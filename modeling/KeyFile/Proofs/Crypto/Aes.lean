import KeyFile.Crypto.Aes

/-!
# AES is undone

Decryption undoes each step of a round, from the last round to the first, whatever the round keys
are. Of the steps, only the mixing of columns takes an argument: it is additive, and so is its
inverse, so it is enough that columns with a single octet come back.
-/
namespace KeyFile.Crypto.Aes

/-! ## Octets -/

private theorem substitute_table :
    substitutions.toList.map (fun octet => inverseSubstitutions.toList.getD octet.toNat 0) =
      (List.range 256).map UInt8.ofNat := by
  decide +kernel

theorem unsubstitute_substitute (octet : UInt8) : unsubstitute (substitute octet) = octet := by
  have small : octet.toNat < 256 := octet.toNat_lt
  have entry := congrArg (fun table => table[octet.toNat]?) substitute_table
  simp only [List.getElem?_map, List.getElem?_range small, Option.map_some,
    UInt8.ofNat_toNat] at entry
  obtain ⟨found, present, result⟩ := Option.map_eq_some_iff.mp entry
  have first : substitute octet = found := by
    rw [substitute, Array.getD_eq_getD_getElem?, ← Array.getElem?_toList, present, Option.getD_some]
  rw [first, unsubstitute, Array.getD_eq_getD_getElem?, ← Array.getElem?_toList,
    ← List.getD_eq_getElem?_getD]
  exact result

private theorem lt_iff_testBit (x : UInt8) : x < 0x80 ↔ x.toNat.testBit 7 = false := by
  have octet := x.toNat_lt
  have high : (0x80 : UInt8).toNat = 128 := rfl
  rw [UInt8.lt_iff_toNat_lt, Nat.testBit_eq_decide_div_mod_eq, decide_eq_false_iff_not]
  omega

/-- A function that can be applied to the parts of a sum. -/
def Additive (f : UInt8 → UInt8) : Prop :=
  ∀ x y, f (x ^^^ y) = f x ^^^ f y

theorem additive_self : Additive fun x => x :=
  fun _ _ => rfl

theorem Additive.sum {f g : UInt8 → UInt8} (first : Additive f) (second : Additive g) :
    Additive fun x => f x ^^^ g x := by
  intro x y
  simp only [first x y, second x y]
  ac_rfl

/-- What is added to an octet whose high bit is shifted out. -/
def carried (x : UInt8) : UInt8 :=
  if x < 0x80 then 0 else 0x1b

theorem double_eq (x : UInt8) : double x = x <<< 1 ^^^ carried x := by
  rw [double, carried]
  split
  · rw [UInt8.xor_zero]
  · rfl

theorem additive_carried : Additive carried := by
  intro x y
  simp only [carried, lt_iff_testBit, UInt8.toNat_xor, Nat.testBit_xor]
  cases x.toNat.testBit 7 <;> cases y.toNat.testBit 7 <;> rfl

theorem additive_double : Additive double := by
  intro x y
  rw [double_eq, double_eq, double_eq, additive_carried, UInt8.shiftLeft_xor]
  ac_rfl

theorem Additive.doubled {f : UInt8 → UInt8} (additive : Additive f) :
    Additive fun x => double (f x) := by
  intro x y
  simp only [additive x y, additive_double (f x) (f y)]

theorem additive_times3 : Additive times3 :=
  additive_self.doubled.sum additive_self

theorem additive_times9 : Additive times9 :=
  additive_self.doubled.doubled.doubled.sum additive_self

theorem additive_times11 : Additive times11 :=
  (additive_self.doubled.doubled.doubled.sum additive_self.doubled).sum additive_self

theorem additive_times13 : Additive times13 :=
  (additive_self.doubled.doubled.doubled.sum additive_self.doubled.doubled).sum additive_self

theorem additive_times14 : Additive times14 :=
  (additive_self.doubled.doubled.doubled.sum additive_self.doubled.doubled).sum
    additive_self.doubled

/-! ## Columns -/

namespace Word

theorem xor_xor_cancel (v w : Word) : (v.xor w).xor w = v := by
  simp only [xor, UInt8.xor_assoc, UInt8.xor_self, UInt8.xor_zero]

theorem mix_xor (v w : Word) : (v.xor w).mix = v.mix.xor w.mix := by
  simp only [mix, xor, additive_double _ _, additive_times3 _ _, mk.injEq]
  refine ⟨?_, ?_, ?_, ?_⟩ <;> ac_rfl

theorem unmix_xor (v w : Word) : (v.xor w).unmix = v.unmix.xor w.unmix := by
  simp only [unmix, xor, additive_times9 _ _, additive_times11 _ _, additive_times13 _ _,
    additive_times14 _ _, mk.injEq]
  refine ⟨?_, ?_, ?_, ?_⟩ <;> ac_rfl

theorem mix_rotate (w : Word) : w.rotate.mix = w.mix.rotate := by
  simp only [mix, rotate, mk.injEq]
  refine ⟨?_, ?_, ?_, ?_⟩ <;> ac_rfl

theorem unmix_rotate (w : Word) : w.rotate.unmix = w.unmix.rotate := by
  simp only [unmix, rotate, mk.injEq]
  refine ⟨?_, ?_, ?_, ?_⟩ <;> ac_rfl

private theorem single_table : ∀ index : Fin 256,
    (⟨UInt8.ofFin index, 0, 0, 0⟩ : Word).mix.unmix = ⟨UInt8.ofFin index, 0, 0, 0⟩ := by
  decide +kernel

theorem unmix_mix (w : Word) : w.mix.unmix = w := by
  have turn (v : Word) (back : v.mix.unmix = v) : v.rotate.mix.unmix = v.rotate := by
    rw [mix_rotate, unmix_rotate, back]
  have first (x : UInt8) : (⟨x, 0, 0, 0⟩ : Word).mix.unmix = ⟨x, 0, 0, 0⟩ := single_table x.toFin
  have fourth (x : UInt8) : (⟨0, 0, 0, x⟩ : Word).mix.unmix = ⟨0, 0, 0, x⟩ :=
    turn ⟨x, 0, 0, 0⟩ (first x)
  have third (x : UInt8) : (⟨0, 0, x, 0⟩ : Word).mix.unmix = ⟨0, 0, x, 0⟩ :=
    turn ⟨0, 0, 0, x⟩ (fourth x)
  have second (x : UInt8) : (⟨0, x, 0, 0⟩ : Word).mix.unmix = ⟨0, x, 0, 0⟩ :=
    turn ⟨0, 0, x, 0⟩ (third x)
  obtain ⟨a, b, c, d⟩ := w
  -- A column is the sum of columns with a single octet, which are rotations of one another.
  have sum : (⟨a, b, c, d⟩ : Word) =
      (xor ⟨a, 0, 0, 0⟩ ⟨0, b, 0, 0⟩).xor (xor ⟨0, 0, c, 0⟩ ⟨0, 0, 0, d⟩) := by
    simp only [xor, UInt8.xor_zero, UInt8.zero_xor]
  rw [sum, mix_xor, mix_xor, mix_xor, unmix_xor, unmix_xor, unmix_xor, first, second, third, fourth]

end Word

/-! ## States -/

namespace State

theorem addKey_addKey (s key : State) : (s.addKey key).addKey key = s := by
  simp only [addKey, Word.xor_xor_cancel]

theorem unshiftRows_shiftRows (s : State) : s.shiftRows.unshiftRows = s := rfl

theorem unsubstitute_substitute (s : State) : s.substitute.unsubstitute = s := by
  simp only [substitute, unsubstitute, map, Word.map, Aes.unsubstitute_substitute]

theorem map_unmix_map_mix (s : State) : (s.map Word.mix).map Word.unmix = s := by
  simp only [map, Word.unmix_mix]

theorem ofBytes_toBytes (s : State) : ofBytes s.toBytes = s := rfl

theorem toBytes_ofBytes {block : Bytes} (whole : block.length = 16) :
    (ofBytes block).toBytes = block := by
  match block, whole with
  | [_, _, _, _, _, _, _, _, _, _, _, _, _, _, _, _], _ => rfl

end State

/-! ## Rounds -/

theorem decryptRounds_encryptRounds (keys : List State) (s : State) :
    decryptRounds keys (encryptRounds keys s) = s := by
  induction keys generalizing s with
  | nil => rfl
  | cons key keys ih =>
    cases keys with
    -- The last round mixes no columns.
    | nil =>
      rw [encryptRounds, decryptRounds, State.addKey_addKey, State.unshiftRows_shiftRows,
        State.unsubstitute_substitute]
    | cons next keys =>
      rw [encryptRounds, decryptRounds, ih, State.addKey_addKey, State.map_unmix_map_mix,
        State.unshiftRows_shiftRows, State.unsubstitute_substitute]

theorem decryptState_encryptState (keys : List State) (s : State) :
    decryptState keys (encryptState keys s) = s := by
  cases keys with
  | nil => rfl
  | cons key keys =>
    rw [encryptState, decryptState, decryptRounds_encryptRounds, State.addKey_addKey]

/-- Decrypting a block undoes encrypting it, under any round keys. -/
theorem decryptBlock_encryptBlock (keys : List State) {block : Bytes}
    (whole : block.length = 16) : decryptBlock keys (encryptBlock keys block) = block := by
  rw [decryptBlock, encryptBlock, State.ofBytes_toBytes, decryptState_encryptState,
    State.toBytes_ofBytes whole]

theorem length_encryptBlock (keys : List State) (block : Bytes) :
    (encryptBlock keys block).length = 16 := rfl

end KeyFile.Crypto.Aes

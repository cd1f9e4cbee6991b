import KeyFile.Crypto.Des
import KeyFile.Proofs.Digits
import KeyFile.Proofs.Pieces

/-!
# Triple DES is undone

A round replaces one half by its sum with a function of the other half, so the rounds in reverse
undo the rounds, whatever that function and the round keys are. The outer permutations undo each
other, and three networks in reverse order undo three networks.
-/
namespace KeyFile.Crypto.Des

/-! ## Bits -/

@[simp] theorem length_select (places : List Nat) (bits : Bits) :
    (select places bits).length = places.length :=
  List.length_map _

@[simp] theorem length_xor (left right : Bits) :
    (xor left right).length = min left.length right.length :=
  List.length_zipWith

theorem xor_xor_cancel {left right : Bits} (same : left.length = right.length) :
    xor (xor left right) right = left :=
  zipWith_zipWith_cancel (by decide) same

theorem bitSigns : Digits.Signs 2 Bool.toNat fun digit => decide (digit = 1) where
  small := Bool.toNat_lt
  read := by decide
  written := by decide

theorem numberOf_eq_digits (bits : Bits) :
    numberOf bits = Digits.toNat 2 (bits.map Bool.toNat) := by
  simp only [numberOf, Digits.toNat, List.foldl_map, Nat.mul_comm]

theorem bitsOf_eq_digits (width number : Nat) :
    bitsOf width number = (Digits.ofNat 2 width number).map fun digit => decide (digit = 1) := by
  induction width generalizing number with
  | zero => rfl
  | succ width ih => rw [bitsOf, Digits.ofNat, List.map_append, List.map_singleton, ih]

@[simp] theorem length_bitsOf (width number : Nat) : (bitsOf width number).length = width := by
  rw [bitsOf_eq_digits, List.length_map, Digits.length_ofNat]

theorem numberOf_bitsOf {width number : Nat} (small : number < 2 ^ width) :
    numberOf (bitsOf width number) = number := by
  rw [numberOf_eq_digits, bitsOf_eq_digits, bitSigns.toNat_ofNat, Nat.mod_eq_of_lt small]

theorem numberOf_lt (bits : Bits) : numberOf bits < 2 ^ bits.length := by
  rw [numberOf_eq_digits]
  exact bitSigns.toNat_lt bits

/-- Bits are the low bits of the number that they spell. -/
theorem bitsOf_numberOf (bits : Bits) : bitsOf bits.length (numberOf bits) = bits := by
  rw [bitsOf_eq_digits, numberOf_eq_digits, bitSigns.ofNat_toNat]

/-! ## Octets -/

theorem length_ofBytes (bytes : Bytes) : (ofBytes bytes).length = 8 * bytes.length := by
  simp only [ofBytes, List.length_flatMap, length_bitsOf, List.map_const', List.sum_replicate_nat]
  exact Nat.mul_comm ..

theorem toBytes_ofBytes (bytes : Bytes) : toBytes (ofBytes bytes) = bytes := by
  have octets : pieces 8 (ofBytes bytes) = bytes.map fun octet => bitsOf 8 octet.toNat := by
    rw [ofBytes, List.flatMap_def]
    apply pieces_flatten (by decide)
    intro piece member
    obtain ⟨octet, -, rfl⟩ := List.mem_map.mp member
    exact length_bitsOf 8 octet.toNat
  have back (octet : UInt8) : UInt8.ofNat (numberOf (bitsOf 8 octet.toNat)) = octet := by
    rw [numberOf_bitsOf octet.toNat_lt, UInt8.ofNat_toNat]
  rw [toBytes, octets, List.map_map]
  simp only [Function.comp_def, back, List.map_id']

theorem ofBytes_toBytes {bits : Bits} (whole : 8 ∣ bits.length) :
    ofBytes (toBytes bits) = bits := by
  have back : ∀ piece ∈ pieces 8 bits,
      bitsOf 8 (UInt8.ofNat (numberOf piece)).toNat = piece := by
    intro piece member
    have length := length_of_mem_pieces whole piece member
    have small : numberOf piece < 2 ^ 8 := length ▸ numberOf_lt piece
    rw [UInt8.toNat_ofNat_of_lt' small, ← length, bitsOf_numberOf]
  calc ofBytes (toBytes bits)
      = ((pieces 8 bits).map fun piece =>
          bitsOf 8 (UInt8.ofNat (numberOf piece)).toNat).flatten := by
        rw [ofBytes, toBytes, List.flatMap_def, List.map_map]
        rfl
    _ = (pieces 8 bits).flatten := by rw [List.map_congr_left back, List.map_id']
    _ = bits := flatten_pieces (by decide) bits

/-! ## Permutations -/

theorem select_range {bits : Bits} {width : Nat} (length : bits.length = width) :
    select (List.range width) bits = bits := by
  subst length
  apply List.ext_getElem (by simp)
  intro place inside present
  simp only [select, List.getElem_map, List.getElem_range]
  exact (List.getElem_eq_getD false).symm

/-- Places of places that count up undo each other. -/
theorem select_select {outer inner : List Nat} {width : Nat} {bits : Bits}
    (within : outer.all fun place => place < inner.length)
    (inverse : outer.map (fun place => inner.getD place 0) = List.range width)
    (length : bits.length = width) : select outer (select inner bits) = bits := by
  have nested : ∀ place ∈ outer,
      (select inner bits).getD place false = bits.getD (inner.getD place 0) false := by
    intro place member
    have inside : place < inner.length :=
      of_decide_eq_true (List.all_eq_true.mp within place member)
    have mapped : place < (select inner bits).length := by rwa [length_select]
    calc (select inner bits).getD place false
        = (select inner bits)[place] := (List.getElem_eq_getD false).symm
      _ = bits.getD inner[place] false := List.getElem_map _
      _ = bits.getD (inner.getD place 0) false := by rw [List.getElem_eq_getD 0]
  calc select outer (select inner bits)
      = select (outer.map fun place => inner.getD place 0) bits := by
        rw [select, List.map_congr_left nested, select, List.map_map]
        rfl
    _ = select (List.range width) bits := by rw [inverse]
    _ = bits := select_range length

theorem select_final_initial {bits : Bits} (length : bits.length = 64) :
    select finalPlaces (select initialPlaces bits) = bits :=
  select_select (by decide) (by decide) length

theorem select_initial_final {bits : Bits} (length : bits.length = 64) :
    select initialPlaces (select finalPlaces bits) = bits :=
  select_select (by decide) (by decide) length

/-! ## The network -/

theorem length_roundFunction (key half : Bits) : (roundFunction key half).length = 32 :=
  length_select ..

theorem rounds_append (keys others : List Bits) (halves : Bits × Bits) :
    rounds (keys ++ others) halves = rounds others (rounds keys halves) := by
  induction keys generalizing halves with
  | nil => rfl
  | cons key keys ih => exact ih ..

theorem length_mixed {left : Bits} (key right : Bits) (half : left.length = 32) :
    (xor left (roundFunction key right)).length = 32 := by
  rw [length_xor, half, length_roundFunction, Nat.min_self]

theorem length_rounds (keys : List Bits) {left right : Bits} (first : left.length = 32)
    (second : right.length = 32) :
    (rounds keys (left, right)).1.length = 32 ∧ (rounds keys (left, right)).2.length = 32 := by
  induction keys generalizing left right with
  | nil => exact ⟨first, second⟩
  | cons key keys ih => exact ih second (length_mixed key right first)

theorem rounds_reverse (keys : List Bits) {left right : Bits} (first : left.length = 32)
    (second : right.length = 32) :
    rounds keys.reverse (rounds keys (left, right)).swap = (right, left) := by
  induction keys generalizing left right with
  | nil => rfl
  | cons key keys ih =>
    have later : rounds keys.reverse (rounds (key :: keys) (left, right)).swap =
        (xor left (roundFunction key right), right) :=
      ih second (length_mixed key right first)
    have undone : xor (xor left (roundFunction key right)) (roundFunction key right) = left :=
      xor_xor_cancel (first.trans (length_roundFunction key right).symm)
    -- The later rounds are undone first, which leaves the halves as they stood after this one.
    rw [List.reverse_cons, rounds_append, later, rounds, rounds, undone]

theorem length_network (keys : List Bits) (block : Bits) : (network keys block).length = 64 :=
  length_select ..

theorem network_reverse (keys : List Bits) {block : Bits} (length : block.length = 64) :
    network keys.reverse (network keys block) = block := by
  obtain ⟨mixed, start⟩ : ∃ mixed, select initialPlaces block = mixed := ⟨_, rfl⟩
  have whole : mixed.length = 64 := start ▸ length_select ..
  have first : (mixed.take 32).length = 32 := by rw [List.length_take, whole]; rfl
  have second : (mixed.drop 32).length = 32 := by rw [List.length_drop, whole]
  have lengths := length_rounds keys first second
  have back := rounds_reverse keys first second
  obtain ⟨⟨left, right⟩, ran⟩ : ∃ halves, rounds keys (mixed.take 32, mixed.drop 32) = halves :=
    ⟨_, rfl⟩
  rw [ran] at lengths back
  have forward : network keys block = select finalPlaces (right ++ left) := by
    rw [network, start, ran]
  -- The two outer permutations between the networks undo each other.
  have again : select initialPlaces (network keys block) = right ++ left := by
    rw [forward]
    apply select_initial_final
    rw [List.length_append, lengths.1, lengths.2]
  calc network keys.reverse (network keys block)
      = select finalPlaces (mixed.take 32 ++ mixed.drop 32) := by
        rw [network, again, List.take_left' lengths.2, List.drop_left' lengths.2]
        exact congrArg (fun halves => select finalPlaces (halves.2 ++ halves.1)) back
    _ = block := by rw [List.take_append_drop, ← start, select_final_initial length]

/-! ## Three keys -/

/-- Decrypting a block undoes encrypting it, under any three lists of round keys. -/
theorem decryptBlock_encryptBlock (keys : Keys) {block : Bytes} (whole : block.length = 8) :
    decryptBlock keys (encryptBlock keys block) = block := by
  have bits : (ofBytes block).length = 64 := by rw [length_ofBytes, whole]
  have middle (block : Bits) (length : block.length = 64) :
      network keys.second (network keys.second.reverse block) = block := by
    simpa only [List.reverse_reverse] using network_reverse keys.second.reverse length
  rw [decryptBlock, encryptBlock, ofBytes_toBytes (by rw [length_network]; decide),
    network_reverse keys.third (length_network ..), middle _ (length_network ..),
    network_reverse keys.first bits, toBytes_ofBytes]

theorem length_encryptBlock (keys : Keys) (block : Bytes) :
    (encryptBlock keys block).length = 8 := by
  have bits (keys : List Bits) (block : Bits) :
      8 * (toBytes (network keys block)).length = 64 := by
    rw [← length_ofBytes, ofBytes_toBytes (by rw [length_network]; decide), length_network]
  exact Nat.eq_of_mul_eq_mul_left (by decide) (bits keys.third _)

end KeyFile.Crypto.Des

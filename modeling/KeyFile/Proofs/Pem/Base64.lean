import KeyFile.Pem.Base64
import KeyFile.Proofs.BigEndian
import KeyFile.Proofs.Outcomes

/-!
# Base64 is read back

Whatever octets are written in base64 are read back as they were, and nothing is read but what is
written for some octets. The argument goes by groups: the six-bit digits of a number spell it,
symbols stand for their digits, and the last group is read back for one, two and three octets alike.
-/
namespace KeyFile.Base64

/-! ## Symbols -/

theorem value_symbol {value : Nat} (small : value < 64) : value? (symbol value) = some value := by
  have table : ∀ digit : Fin 64, value? (symbol digit) = some digit.val := by decide
  exact table ⟨value, small⟩

theorem symbol_ne_pad {value : Nat} (small : value < 64) : symbol value ≠ pad := by
  have table : ∀ digit : Fin 64, symbol digit ≠ pad := by decide
  exact table ⟨value, small⟩

/-- The number of six-bit values is the number that they spell as digits. -/
theorem number_eq_digits (values : List Nat) : number values = Digits.toNat 64 values := rfl

theorem symbols_eq_digits (width number : Nat) :
    symbols width number = (Digits.ofNat 64 width number).map symbol := by
  induction width generalizing number with
  | zero => rfl
  | succ width ih => rw [symbols, Digits.ofNat, List.map_append, ih]; rfl

@[simp] theorem length_symbols (width number : Nat) : (symbols width number).length = width := by
  rw [symbols_eq_digits, List.length_map, Digits.length_ofNat]

theorem digits_lt (width number : Nat) : ∀ value ∈ Digits.ofNat 64 width number, value < 64 :=
  Digits.lt_of_mem_ofNat (by decide) width number

/-! ## Groups -/

theorem readSymbols_map {values : List Nat} (small : ∀ value ∈ values, value < 64) (offset : Nat) :
    readSymbols offset (values.map symbol) = .ok values := by
  induction values generalizing offset with
  | nil => rfl
  | cons first rest ih =>
    have later := ih (fun value member => small value (List.mem_cons_of_mem _ member)) (offset + 1)
    rw [List.map_cons, readSymbols, value_symbol (small first List.mem_cons_self)]
    exact Outcome.map_eq_ok.mpr ⟨rest, later, rfl⟩

/-- Padding is read where it may begin. -/
theorem readPadded_map {values : List Nat} (small : ∀ value ∈ values, value < 64)
    (offset place padding : Nat) (enough : padding = 0 ∨ 2 ≤ place + values.length) :
    readPadded offset place (values.map symbol ++ List.replicate padding pad) =
      .ok (values, padding) := by
  induction values generalizing place with
  | nil =>
    cases padding with
    | zero => rfl
    | succ padding =>
      have late : 2 ≤ place := by simpa using enough
      have all : (List.replicate padding pad).all (· = pad) = true := by
        rw [List.all_eq_true]
        intro octet member
        exact decide_eq_true (List.eq_of_mem_replicate member)
      rw [List.map_nil, List.nil_append, List.replicate_succ, readPadded, if_pos rfl,
        if_pos ⟨late, all⟩, List.length_replicate]
  | cons first rest ih =>
    have digit := small first List.mem_cons_self
    have later := ih (fun value member => small value (List.mem_cons_of_mem _ member)) (place + 1)
      (by rw [List.length_cons] at enough; omega)
    rw [List.map_cons, List.cons_append, readPadded, if_neg (symbol_ne_pad digit),
      value_symbol digit]
    exact Outcome.bind_eq_ok.mpr ⟨_, later, rfl⟩

/-- One digit more than there are octets: the spare bits are those of the missing pads. -/
theorem pow_digits {count : Nat} (few : count ≤ 3) :
    256 ^ count * 4 ^ (3 - count) = 64 ^ (count + 1) := by
  have eight : (256 : Nat) = 4 ^ 4 := by decide
  have six : (64 : Nat) = 4 ^ 3 := by decide
  rw [eight, six, ← Nat.pow_mul, ← Nat.pow_mul, ← Nat.pow_add]
  congr 1
  omega

/-- The spare bits of a group are below this number. -/
theorem spare_eq {count : Nat} (few : count ≤ 3) :
    1 <<< (2 * (4 - (count + 1))) = 4 ^ (3 - count) := by
  have four : (4 : Nat) = 2 ^ 2 := by decide
  rw [Nat.shiftLeft_eq, Nat.one_mul, four, ← Nat.pow_mul]
  congr 1
  omega

/-- The last group, for one, two or three octets. -/
theorem decodeLast_group {octets : Bytes} (filled : 0 < octets.length) (few : octets.length ≤ 3)
    (offset : Nat) :
    decodeLast offset
        (symbols (octets.length + 1) (BigEndian.toNat octets * 4 ^ (3 - octets.length)) ++
          List.replicate (3 - octets.length) pad) =
      .ok octets := by
  generalize shifted : BigEndian.toNat octets * 4 ^ (3 - octets.length) = number
  have read := readPadded_map (digits_lt (octets.length + 1) number) offset 0 (3 - octets.length)
    (by rw [Digits.length_ofNat]; omega)
  have room := pow_digits few
  have positive : 0 < 4 ^ (3 - octets.length) := Nat.pow_pos (by decide)
  have fits : number < 64 ^ (octets.length + 1) := by
    rw [← shifted, ← room]
    exact Nat.mul_lt_mul_of_pos_right (BigEndian.toNat_lt octets) positive
  -- The symbols spell the octets as one number, moved past the spare bits.
  have spelled : Base64.number (Digits.ofNat 64 (octets.length + 1) number) = number := by
    rw [number_eq_digits, Digits.toNat_ofNat, Nat.mod_eq_of_lt fits]
  rw [symbols_eq_digits]
  refine Outcome.bind_eq_ok.mpr ⟨_, read, ?_⟩
  simp only [Digits.length_ofNat, spelled, spare_eq few, Nat.add_sub_cancel]
  refine Outcome.unless_eq_ok.mpr ⟨by omega, Outcome.unless_eq_ok.mpr ⟨by omega, ?_⟩⟩
  refine Outcome.unless_eq_ok.mpr ⟨?_, ?_⟩
  · rw [← shifted, Nat.mul_mod_left]
    exact not_not_intro rfl
  · rw [← shifted, Nat.mul_div_cancel _ positive, BigEndian.octets_toNat]
    rfl

theorem decodeGroups_last {group : Bytes} (filled : group ≠ []) (few : group.length ≤ 4)
    (offset : Nat) : decodeGroups offset group = decodeLast offset group := by
  match group, filled, few with
  | [_], _, _ => rfl
  | [_, _], _, _ => rfl
  | [_, _, _], _, _ => rfl
  | [_, _, _, _], _, _ => rfl

theorem decodeGroups_more {group written : Bytes} (full : group.length = 4) (more : written ≠ [])
    (offset : Nat) :
    decodeGroups offset (group ++ written) =
      readSymbols offset group >>= fun values =>
        (BigEndian.octets 3 (Base64.number values) ++ ·) <$> decodeGroups (offset + 4) written := by
  obtain ⟨lead, others, rfl⟩ := List.exists_cons_of_ne_nil more
  match group, full with
  | [_, _, _, _], _ => rfl

/-- At most three octets, which is where writing ends. -/
private theorem decodeGroups_group {octets : Bytes} (filled : 0 < octets.length)
    (few : octets.length ≤ 3) (offset : Nat) :
    decodeGroups offset
        (symbols (octets.length + 1) (BigEndian.toNat octets * 4 ^ (3 - octets.length)) ++
          List.replicate (3 - octets.length) pad) =
      .ok octets := by
  rw [decodeGroups_last, decodeLast_group filled few]
  · intro empty
    have length := congrArg List.length empty
    rw [List.length_append, length_symbols] at length
    simp at length
  · rw [List.length_append, length_symbols, List.length_replicate]
    omega

/-- Three octets that others follow. -/
private theorem decodeGroups_append {group rest written : Bytes} (three : group.length = 3)
    (more : written ≠ []) (offset : Nat)
    (later : decodeGroups (offset + 4) written = .ok rest) :
    decodeGroups offset (symbols 4 (BigEndian.toNat group) ++ written) = .ok (group ++ rest) := by
  have fits : BigEndian.toNat group < 64 ^ 4 := by
    have value := BigEndian.toNat_lt group
    rw [three] at value
    exact value
  have read := readSymbols_map (digits_lt 4 (BigEndian.toNat group)) offset
  have spelled : BigEndian.octets 3 (Base64.number (Digits.ofNat 64 4 (BigEndian.toNat group))) =
      group := by
    rw [number_eq_digits, Digits.toNat_ofNat, Nat.mod_eq_of_lt fits, ← three,
      BigEndian.octets_toNat]
  rw [decodeGroups_more (length_symbols 4 _) more, symbols_eq_digits]
  refine Outcome.bind_eq_ok.mpr ⟨_, read, Outcome.map_eq_ok.mpr ⟨rest, later, ?_⟩⟩
  rw [spelled]

theorem length_encode_pos {octets : Bytes} (filled : octets ≠ []) : 0 < (encode octets).length := by
  match octets, filled with
  | [_], _ => simp [encode]
  | [_, _], _ => simp [encode]
  | _ :: _ :: _ :: _, _ => simp only [encode, List.length_append, length_symbols]; omega

theorem decodeGroups_encode (octets : Bytes) (offset : Nat) :
    decodeGroups offset (encode octets) = .ok octets := by
  -- The induction follows the recursion of writing, three octets at a time.
  induction octets using encode.induct generalizing offset with
  | case1 => rfl
  | case2 a => exact decodeGroups_group (show 0 < [a].length by simp) (by simp) offset
  | case3 a b => exact decodeGroups_group (show 0 < [a, b].length by simp) (by simp) offset
  | case4 a b c rest ih =>
    rw [encode]
    by_cases last : rest = []
    · subst last
      have group := decodeGroups_group (show 0 < [a, b, c].length by simp) (by simp) offset
      simp only [List.length_cons, List.length_nil, Nat.reduceAdd, Nat.sub_self, Nat.pow_zero,
        Nat.mul_one, List.replicate_zero] at group
      exact group
    · have more : encode rest ≠ [] := List.ne_nil_of_length_pos (length_encode_pos last)
      exact decodeGroups_append (show [a, b, c].length = 3 from rfl) more offset (ih (offset + 4))

theorem length_encode_mod (octets : Bytes) : (encode octets).length % 4 = 0 := by
  induction octets using encode.induct with
  | case1 => rfl
  | case2 a => rw [encode, List.length_append, length_symbols]; rfl
  | case3 a b => rw [encode, List.length_append, length_symbols]; rfl
  | case4 a b c rest ih =>
    rw [encode, List.length_append, length_symbols]
    omega

/-- Reading undoes writing. -/
theorem decode_encode (octets : Bytes) : decode (encode octets) = .ok octets := by
  have whole := length_encode_mod octets
  have stray : strayOctet? (encode octets) = none := by
    rw [strayOctet?, if_neg (by omega)]
  rw [decode, stray]
  exact decodeGroups_encode octets 0

/-! ## Written octets -/

/-- Whether an octet is a symbol or padding. -/
def isWritten (octet : UInt8) : Bool :=
  octet = pad || (value? octet).isSome

theorem isWritten_symbol {value : Nat} (small : value < 64) : isWritten (symbol value) := by
  rw [isWritten, value_symbol small, Option.isSome_some, Bool.or_true]

theorem isWritten_of_mem_symbols {octet : UInt8} {width number : Nat}
    (member : octet ∈ symbols width number) : isWritten octet := by
  rw [symbols_eq_digits, List.mem_map] at member
  obtain ⟨value, digit, rfl⟩ := member
  exact isWritten_symbol (digits_lt width number value digit)

theorem isWritten_of_mem_encode {octet : UInt8} {octets : Bytes} (member : octet ∈ encode octets) :
    isWritten octet := by
  have padding : isWritten pad := rfl
  induction octets using encode.induct with
  | case1 => cases member
  | case2 a =>
    rw [encode, List.mem_append] at member
    rcases member with symbol | filled
    · exact isWritten_of_mem_symbols symbol
    · simp only [List.mem_cons, List.not_mem_nil, or_false, or_self] at filled
      rwa [filled]
  | case3 a b =>
    rw [encode, List.mem_append] at member
    rcases member with symbol | filled
    · exact isWritten_of_mem_symbols symbol
    · rw [List.mem_singleton] at filled
      rwa [filled]
  | case4 a b c rest ih =>
    rw [encode, List.mem_append] at member
    rcases member with symbol | later
    · exact isWritten_of_mem_symbols symbol
    · exact ih later

/-! ## Canonical form -/

private theorem value_table : ∀ index : Fin 256, ∀ value ∈ value? (UInt8.ofFin index),
    symbol value = UInt8.ofFin index ∧ value < 64 := by
  decide +kernel

theorem symbol_of_value {octet : UInt8} {value : Nat} (found : value? octet = some value) :
    symbol value = octet ∧ value < 64 :=
  value_table octet.toFin value found

theorem readSymbols_ok {octets : Bytes} {offset : Nat} {values : List Nat}
    (done : readSymbols offset octets = .ok values) :
    octets = values.map symbol ∧ ∀ value ∈ values, value < 64 := by
  induction octets generalizing offset values with
  | nil =>
    cases done
    exact ⟨rfl, List.forall_mem_nil _⟩
  | cons octet rest ih =>
    rw [readSymbols] at done
    cases found : value? octet with
    | none =>
      rw [found] at done
      cases done
    | some value =>
      rw [found] at done
      obtain ⟨others, read, rfl⟩ := Outcome.map_eq_ok.mp done
      obtain ⟨later, small⟩ := ih read
      obtain ⟨first, digit⟩ := symbol_of_value found
      exact ⟨by rw [List.map_cons, first, ← later], List.forall_mem_cons.mpr ⟨digit, small⟩⟩

theorem readPadded_ok {octets : Bytes} {offset place padding : Nat} {values : List Nat}
    (done : readPadded offset place octets = .ok (values, padding)) :
    octets = values.map symbol ++ List.replicate padding pad ∧ ∀ value ∈ values, value < 64 := by
  induction octets generalizing place values padding with
  | nil =>
    cases done
    exact ⟨rfl, List.forall_mem_nil _⟩
  | cons octet rest ih =>
    rw [readPadded] at done
    split at done
    next padded =>
      split at done
      next all =>
        cases done
        -- Where padding begins, all that follows has been seen to be padding.
        have pads : rest = List.replicate rest.length pad :=
          List.eq_replicate_of_mem fun other member =>
            of_decide_eq_true (List.all_eq_true.mp all.2 other member)
        refine ⟨?_, List.forall_mem_nil _⟩
        rw [List.map_nil, List.nil_append, List.replicate_succ, ← pads, padded]
      next => cases done
    next =>
      split at done
      next => cases done
      next value found =>
        obtain ⟨⟨others, padding⟩, read, done⟩ := Outcome.bind_eq_ok.mp done
        cases Outcome.pure_eq_ok.mp done
        obtain ⟨later, small⟩ := ih read
        obtain ⟨first, digit⟩ := symbol_of_value found
        refine ⟨?_, List.forall_mem_cons.mpr ⟨digit, small⟩⟩
        rw [List.map_cons, List.cons_append, first, ← later]

/-- A group of one, two or three octets. -/
theorem encode_group {octets : Bytes} (filled : 0 < octets.length) (few : octets.length ≤ 3) :
    encode octets =
      symbols (octets.length + 1) (BigEndian.toNat octets * 4 ^ (3 - octets.length)) ++
        List.replicate (3 - octets.length) pad := by
  match octets, filled, few with
  | [_], _, _ => rfl
  | [_, _], _, _ => rfl
  | [_, _, _], _, _ => simp only [encode, List.length_cons, List.length_nil, Nat.reduceAdd,
      Nat.sub_self, Nat.pow_zero, Nat.mul_one, List.replicate_zero]

theorem encode_append {group : Bytes} (three : group.length = 3) (rest : Bytes) :
    encode (group ++ rest) = symbols 4 (BigEndian.toNat group) ++ encode rest := by
  match group, three with
  | [_, _, _], _ => rfl

/-- The octets of a group are written as its symbols, provided that the spare bits are zero. -/
theorem encode_octets {values : List Nat} (small : ∀ value ∈ values, value < 64) {count : Nat}
    (filled : 0 < count) (few : count ≤ 3) (length : values.length = count + 1)
    (spared : number values % 4 ^ (3 - count) = 0) :
    encode (BigEndian.octets count (number values / 4 ^ (3 - count))) =
      values.map symbol ++ List.replicate (3 - count) pad := by
  have positive : 0 < 4 ^ (3 - count) := Nat.pow_pos (by decide)
  have fits : number values / 4 ^ (3 - count) < 256 ^ count := by
    rw [Nat.div_lt_iff_lt_mul positive, pow_digits few, ← length]
    exact Digits.toNat_lt small
  have whole : number values / 4 ^ (3 - count) * 4 ^ (3 - count) = number values :=
    Nat.div_mul_cancel (Nat.dvd_of_mod_eq_zero spared)
  rw [encode_group (by rwa [BigEndian.length_octets]) (by rwa [BigEndian.length_octets]),
    BigEndian.length_octets, BigEndian.toNat_octets, Nat.mod_eq_of_lt fits, whole, ← length,
    symbols_eq_digits, number_eq_digits, Digits.ofNat_toNat small]

theorem decodeLast_ok {group octets : Bytes} {offset : Nat} (few : group.length ≤ 4)
    (done : decodeLast offset group = .ok octets) : encode octets = group := by
  obtain ⟨⟨values, padding⟩, read, done⟩ := Outcome.bind_eq_ok.mp done
  obtain ⟨enough, done⟩ := Outcome.unless_eq_ok.mp done
  obtain ⟨full, done⟩ := Outcome.unless_eq_ok.mp done
  obtain ⟨spared, done⟩ := Outcome.unless_eq_ok.mp done
  cases Outcome.pure_eq_ok.mp done
  obtain ⟨rfl, small⟩ := readPadded_ok read
  rw [List.length_append, List.length_map, List.length_replicate] at few
  -- Symbols and padding are four together, so there are as many pads as octets are missing.
  obtain ⟨count, length⟩ : ∃ count, values.length = count + 1 := ⟨values.length - 1, by omega⟩
  have pads : padding = 3 - count := by omega
  have few : count ≤ 3 := by omega
  simp only [length, spare_eq few, Nat.add_sub_cancel] at spared ⊢
  rw [encode_octets small (by omega) few length (Decidable.not_not.mp spared), pads]

theorem decodeGroups_ok {written octets : Bytes} {offset : Nat}
    (done : decodeGroups offset written = .ok octets) : encode octets = written := by
  fun_induction decodeGroups offset written generalizing octets with
  | case1 =>
    cases done
    rfl
  | case2 offset a b c d e rest ih =>
    obtain ⟨values, read, done⟩ := Outcome.bind_eq_ok.mp done
    obtain ⟨later, next, rfl⟩ := Outcome.map_eq_ok.mp done
    obtain ⟨group, small⟩ := readSymbols_ok read
    have length : values.length = 4 := by
      rw [← List.length_map symbol, ← group]
      rfl
    have fits : number values < 256 ^ 3 := by
      have bound := Digits.toNat_lt small
      rwa [length] at bound
    rw [encode_append (BigEndian.length_octets 3 _), BigEndian.toNat_octets, Nat.mod_eq_of_lt fits,
      ih next, symbols_eq_digits, ← length, number_eq_digits, Digits.ofNat_toNat small, ← group]
    rfl
  | case3 offset group filled short =>
    apply decodeLast_ok _ done
    match group, short with
    | [], _ | [_], _ | [_, _], _ | [_, _, _], _ | [_, _, _, _], _ => simp
    | a :: b :: c :: d :: e :: rest, short => exact absurd rfl (short a b c d e rest)

/-- Octet strings have one written form each, and nothing else is read. -/
theorem decode_eq_ok_iff {written octets : Bytes} :
    decode written = .ok octets ↔ written = encode octets := by
  constructor
  · intro done
    unfold decode at done
    split at done
    · cases done
    · exact (decodeGroups_ok done).symm
  · rintro rfl
    exact decode_encode octets

/-- Nothing is read that begins with another octet. -/
theorem isWritten_of_decode {octet : UInt8} {rest octets : Bytes}
    (done : decode (octet :: rest) = .ok octets) : isWritten octet := by
  have written := decode_eq_ok_iff.mp done
  exact isWritten_of_mem_encode (written ▸ List.mem_cons_self)

theorem length_le_length_encode (octets : Bytes) : octets.length ≤ (encode octets).length := by
  induction octets using encode.induct with
  | case1 => exact Nat.le_refl _
  | case2 a => simp [encode]
  | case3 a b => simp [encode]
  | case4 a b c rest ih =>
    simp only [encode, List.length_cons, List.length_append, length_symbols]
    omega

/-- What is read is no longer than what was written. -/
theorem length_of_decode {written octets : Bytes} (done : decode written = .ok octets) :
    octets.length ≤ written.length := by
  rw [decode_eq_ok_iff.mp done]
  exact length_le_length_encode octets

end KeyFile.Base64

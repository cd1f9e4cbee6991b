import KeyFile.Proofs.Asn1.Headers

/-!
# Which octets begin with a header

Octets begin with a header exactly if they are an identifier octet, a length field and at least as
many octets as the field announces. All other octets have a fault, and it is the first one in the
order in which the octets stand: `LengthFault` and `HeaderFault` have one case for each place where
reading can stop.
-/
namespace KeyFile.Asn1

/-! ## Length fields -/

/-- What keeps octets from beginning with a length field. -/
inductive LengthFault : Bytes → Error → Prop where
  | missing : LengthFault [] .unexpectedEnd
  | indefinite {rest : Bytes} : LengthFault (0x80 :: rest) .indefiniteLength
  | tooLong {first : UInt8} {rest : Bytes} (many : 0x88 < first.toNat) :
      LengthFault (first :: rest) .lengthTooLong
  /-- Fewer octets follow than the first one asks for. -/
  | cut {first : UInt8} {count : Nat} {octets : Bytes} (asked : first.toNat = 0x80 + count)
      (few : count ≤ 8) (fewer : octets.length < count) :
      LengthFault (first :: octets) .unexpectedEnd

theorem LengthFault.readLength_eq {input : Bytes} {e : Error} (fault : LengthFault input e) :
    readLength input = .error e := by
  cases fault with
  | missing => rfl
  | indefinite => rfl
  | @tooLong first rest many =>
    have long : ¬ first < 0x80 := by
      simp only [UInt8.lt_iff_toNat_lt, UInt8.reduceToNat]
      omega
    have definite : first ≠ 0x80 := by
      rintro rfl
      simp only [UInt8.reduceToNat] at many
      omega
    have above : 8 < first.toNat - 0x80 := by omega
    simp only [readLength, long, definite, above, if_false, if_true]
  | @cut first count octets asked few fewer =>
    rw [readLength_long asked (by omega) few, if_pos fewer]

/-- Octets begin with a length field or have one of the faults. -/
theorem lengthFault_of_readLength {input : Bytes} {e : Error}
    (failed : readLength input = .error e) : LengthFault input e := by
  cases input with
  | nil =>
    cases failed
    exact .missing
  | cons first rest =>
    -- The checks are made in this order, and each one that fails has a fault of its own.
    simp only [readLength] at failed
    split at failed
    · cases failed
    next long =>
      split at failed
      next indefinite =>
        cases failed
        rw [indefinite]
        exact .indefinite
      next definite =>
        simp only [UInt8.lt_iff_toNat_lt, UInt8.reduceToNat] at long
        split at failed
        next many =>
          cases failed
          exact .tooLong (by omega)
        next few =>
          split at failed
          next fewer =>
            cases failed
            have asked : first.toNat = 0x80 + (first.toNat - 0x80) := by omega
            exact .cut asked (by omega) fewer
          next => cases failed

/-! ## Headers -/

/-- What keeps octets from beginning with a header that has its content behind it. -/
inductive HeaderFault : Bytes → Error → Prop where
  | missing : HeaderFault [] .unexpectedEnd
  | highTagNumber {first : UInt8} {rest : Bytes} (high : first &&& 0x1f = 0x1f) :
      HeaderFault (first :: rest) .highTagNumber
  | length {first : UInt8} {rest : Bytes} {e : Error} (low : first &&& 0x1f ≠ 0x1f)
      (fault : LengthFault rest e) : HeaderFault (first :: rest) e
  | truncated {first : UInt8} {declared : Nat} {field rest : Bytes} (low : first &&& 0x1f ≠ 0x1f)
      (announces : LengthField declared field) (fewer : rest.length < declared) :
      HeaderFault (first :: (field ++ rest)) (.truncated declared rest.length)

/-- Behind the identifier octet comes the length field, and the content is asked for last. -/
theorem readHeader_of_low {first : UInt8} (low : first &&& 0x1f ≠ 0x1f) (input : Bytes) :
    readHeader (first :: input) = do
      let (length, rest) ← readLength input
      if rest.length < length then throw (.truncated length rest.length)
      return (Tag.ofOctet first, length, rest) := by
  rw [readHeader, if_neg low]

theorem HeaderFault.readHeader_eq {input : Bytes} {e : Error} (fault : HeaderFault input e) :
    readHeader input = .error e := by
  cases fault with
  | missing => rfl
  | highTagNumber high => rw [readHeader, if_pos high]
  | length low fault =>
    rw [readHeader_of_low low, fault.readLength_eq]
    rfl
  | truncated low announces fewer =>
    rw [readHeader_of_low low,
      Outcome.bind_of_ok (readLength_eq_ok_iff.mpr ⟨_, announces, rfl⟩)]
    exact if_pos fewer

theorem headerFault_of_readHeader {input : Bytes} {e : Error}
    (failed : readHeader input = .error e) : HeaderFault input e := by
  cases input with
  | nil =>
    cases failed
    exact .missing
  | cons first rest =>
    by_cases high : first &&& 0x1f = 0x1f
    · rw [readHeader, if_pos high] at failed
      cases failed
      exact .highTagNumber high
    · rw [readHeader_of_low high] at failed
      -- The length field is at fault, or else it announces more than is left.
      cases found : readLength rest with
      | error cause =>
        rw [found] at failed
        cases failed
        exact .length high (lengthFault_of_readLength found)
      | ok result =>
        obtain ⟨declared, left⟩ := result
        obtain ⟨field, announces, rfl⟩ := readLength_eq_ok_iff.mp found
        rw [Outcome.bind_of_ok found] at failed
        simp only at failed
        split at failed
        next fewer =>
          cases failed
          exact .truncated high announces fewer
        next => cases failed

theorem readHeader_eq_error_iff {input : Bytes} {e : Error} :
    readHeader input = .error e ↔ HeaderFault input e :=
  ⟨headerFault_of_readHeader, HeaderFault.readHeader_eq⟩

/-- The octets of a header that is read: any identifier octet of a low tag number, and any field
that announces a length which is there. -/
theorem readHeader_eq_ok_iff_octets {input rest : Bytes} {tag : Tag} {length : Nat} :
    readHeader input = .ok (tag, length, rest) ↔ ∃ first field, first &&& 0x1f ≠ 0x1f ∧
      tag = Tag.ofOctet first ∧ LengthField length field ∧ length ≤ rest.length ∧
        input = first :: (field ++ rest) := by
  rw [readHeader_eq_ok_iff]
  constructor
  · rintro ⟨field, canonical, announces, enough, rfl⟩
    exact ⟨tag.octet, field, canonical.2, canonical.1.symm, announces, enough, rfl⟩
  · rintro ⟨first, field, low, rfl, announces, enough, rfl⟩
    have octet := Tag.octet_ofOctet first
    exact ⟨field, ⟨by rw [octet], by rwa [octet]⟩, announces, enough, by rw [octet]⟩

/-- The length fields that are read as a length, with nothing behind them. -/
theorem readLength_alone_iff {length : Nat} {field : Bytes} :
    readLength field = .ok (length, []) ↔ LengthField length field := by
  rw [readLength_eq_ok_iff]
  constructor
  · rintro ⟨_, announces, rfl⟩
    rwa [List.append_nil]
  · intro announces
    exact ⟨field, announces, (List.append_nil field).symm⟩

/-- Headers are read exactly. Octets begin with a header if they are laid out as one, and only then;
the field that is written for a length is the one shortest field that is read as this length, and it
is read in front of any octets that are enough; everything else fails with its first fault. -/
theorem headers_exact :
    (∀ input tag length rest, readHeader input = .ok (tag, length, rest) ↔
      ∃ first field, first &&& 0x1f ≠ 0x1f ∧ tag = Tag.ofOctet first ∧
        LengthField length field ∧ length ≤ rest.length ∧ input = first :: (field ++ rest)) ∧
    (∀ length, length < 2 ^ 64 →
      (∀ field, Least (fun other => readLength other = .ok (length, [])) field ↔
        field = lengthOctets length) ∧
      ∀ (first : UInt8) (rest : Bytes), first &&& 0x1f ≠ 0x1f → length ≤ rest.length →
        readHeader (first :: (lengthOctets length ++ rest)) =
          .ok (Tag.ofOctet first, length, rest)) ∧
    (∀ input e, readHeader input = .error e ↔ HeaderFault input e) := by
  refine ⟨fun _ _ _ _ => readHeader_eq_ok_iff_octets, ?_, fun _ _ => readHeader_eq_error_iff⟩
  intro length fits
  constructor
  · intro field
    simp only [readLength_alone_iff]
    exact least_iff (.lengthOctets fits) fun _ => LengthField.shortens
  · intro first rest low enough
    exact readHeader_eq_ok_iff_octets.mpr
      ⟨first, lengthOctets length, low, rfl, .lengthOctets fits, enough, rfl⟩

/-- A length of 1 in three octets, the largest length there is, and a length that is not given. -/
theorem lazyHeader_exact :
    readHeader [0x30, 0x83, 0x00, 0x00, 0x01, 0xff, 0xee] = .ok (.sequence, 1, [0xff, 0xee]) ∧
    (∀ field, Least (fun other => readLength other = .ok (1, [])) field ↔ field = [0x01]) ∧
    readHeader [0x30, 0x01, 0xff, 0xee] = .ok (.sequence, 1, [0xff, 0xee]) ∧
    readHeader [0x30, 0x88, 0xff, 0xff, 0xff, 0xff, 0xff, 0xff, 0xff, 0xff, 0x00] =
      .error (.truncated 18446744073709551615 1) ∧
    readHeader [0x30, 0x80, 0x00, 0x00] = .error .indefiniteLength := by
  obtain ⟨laidOut, written, faults⟩ := headers_exact
  have lazy : LengthField 1 [0x83, 0x00, 0x00, 0x01] :=
    .long (by decide) (by decide) (by decide) (by decide)
  have largest : LengthField 18446744073709551615
      [0x88, 0xff, 0xff, 0xff, 0xff, 0xff, 0xff, 0xff, 0xff] :=
    .long (by decide) (by decide) (by decide) (by decide)
  have short : HeaderFault
      (0x30 :: ([0x88, 0xff, 0xff, 0xff, 0xff, 0xff, 0xff, 0xff, 0xff] ++ [0x00]))
      (.truncated 18446744073709551615 1) := .truncated (by decide) largest (by decide)
  obtain ⟨least, read⟩ := written 1 (by decide)
  refine ⟨?_, least, ?_, ?_, ?_⟩
  · exact (laidOut _ _ _ _).mpr ⟨0x30, _, by decide, rfl, lazy, by decide, rfl⟩
  · exact read 0x30 [0xff, 0xee] (by decide) (by decide)
  · exact (faults _ _).mpr short
  · exact (faults _ _).mpr (.length (by decide) .indefinite)

end KeyFile.Asn1

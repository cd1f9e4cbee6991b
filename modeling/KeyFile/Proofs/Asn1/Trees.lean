import KeyFile.Proofs.Asn1.Reading

/-!
# Element trees are read back

A tree is read back along its shape, node by node, at every depth and however it is spelled: each
inner read starts on the content of its element alone and finds nothing after the last element
within. What is written for a tree spells it, and the only limit is that a length field has eight
octets.
-/
namespace KeyFile.Asn1

mutual

/-- A tree whose written form says what it is: bit strings are valid, tags and slots are those that
one octet can announce, and what is encoded already is one element. -/
def Element.Sound : Element → Prop
  | .bitString bits => bits.Valid
  | .tagged tag _ => tag.Canonical
  | .encoded octets => Complete octets
  | .sequence elements => AllSound elements
  | .explicit slot elements => slot < 31 ∧ AllSound elements
  | .unsigned _ | .word _ | .octetString _ | .null | .objectIdentifier _ => True

def AllSound : List Element → Prop
  | [] => True
  | first :: rest => first.Sound ∧ AllSound rest

end

theorem AllSound.mem {elements : List Element} (sound : AllSound elements) :
    ∀ element ∈ elements, element.Sound := by
  induction elements with
  | nil => simp
  | cons first rest ih =>
    simp only [AllSound] at sound
    simp only [List.mem_cons, forall_eq_or_imp]
    exact ⟨sound.1, ih sound.2⟩

theorem AllSound.append {left right : List Element} (front : AllSound left)
    (back : AllSound right) : AllSound (left ++ right) := by
  induction left with
  | nil => exact back
  | cons first rest ih =>
    simp only [AllSound] at front
    exact ⟨front.1, ih front.2⟩

/-- A part that may be absent is sound if it is sound where it is there. -/
theorem AllSound.toList {α : Type} {written : α → Element} {value : Option α}
    (sound : ∀ a ∈ value, (written a).Sound) : AllSound (value.toList.map written) := by
  cases value with
  | none => exact trivial
  | some a => exact ⟨sound a rfl, trivial⟩

theorem length_encode_le_of_mem {element : Element} {elements : List Element}
    (member : element ∈ elements) : element.encode.length ≤ (encodeAll elements).length := by
  induction elements with
  | nil => cases member
  | cons first rest ih =>
    rw [encodeAll, List.length_append]
    cases member with
    | head => omega
    | tail _ later =>
      have le := ih later
      omega

/-! ## Sizes -/

mutual

/-- The octets of all contents, and ten for each header. -/
def Element.allowance : Element → Nat
  | .unsigned value => (integerContent value).length + 10
  | .word _ => 19
  | .octetString octets => octets.length + 10
  | .bitString bits => bits.data.length + 11
  | .null => 10
  | .objectIdentifier identifier => identifier.contents.length + 10
  | .tagged _ content => content.length + 10
  | .encoded octets => octets.length
  | .sequence elements | .explicit _ elements => allowanceAll elements + 10

def allowanceAll : List Element → Nat
  | [] => 0
  | first :: rest => first.allowance + allowanceAll rest

end

mutual

/-- Headers are never longer than ten octets. -/
theorem Element.length_encode_le : (element : Element) → element.allowance < 2 ^ 64 →
    element.encode.length ≤ element.allowance
  | .unsigned _, fits | .octetString _, fits | .objectIdentifier _, fits | .tagged _ _, fits => by
    simp only [Element.allowance] at fits
    exact length_element_le _ _ (by omega)
  | .word value, _ => by
    have width := length_integerContent_word value
    have size := length_element_le .integer (integerContent value.toNat) (by omega)
    simp only [Element.allowance, Element.encode]
    omega
  | .bitString bits, fits => by
    simp only [Element.allowance] at fits
    exact length_element_le _ bits.content
      (by simp only [BitString.content, List.length_cons]; omega)
  | .null, _ => by decide
  | .encoded _, _ => Nat.le_refl _
  | .sequence elements, fits | .explicit _ elements, fits => by
    simp only [Element.allowance] at fits
    have inner := length_encodeAll_le elements (by omega)
    have outer (tag : Tag) := length_element_le tag _ (Nat.lt_of_le_of_lt inner (by omega))
    simp only [Element.allowance, Element.encode]
    exact Nat.le_trans (outer _) (by omega)

theorem length_encodeAll_le : (elements : List Element) → allowanceAll elements < 2 ^ 64 →
    (encodeAll elements).length ≤ allowanceAll elements
  | [], _ => Nat.le_refl _
  | first :: rest, fits => by
    simp only [allowanceAll] at fits
    have head := Element.length_encode_le first (by omega)
    have tail := length_encodeAll_le rest (by omega)
    simp only [encodeAll, allowanceAll, List.length_append]
    omega

end

/-! ## Reading along shapes -/

mutual

/-- A sound tree of a size that a length field can announce is read from what is written for it. -/
theorem Element.spelling_of_fits : (element : Element) → element.Sound →
    element.encode.length < 2 ^ 64 → element.Spelling .accepted element.encode
  | .unsigned value, _, fits =>
    .element Forms.admits_accepted (by decide) (length_content_lt fits) (.integerContent value)
  | .word value, _, fits =>
    .element Forms.admits_accepted (by decide) (length_content_lt fits)
      (.integerContent value.toNat)
  | .octetString _, _, fits | .bitString _, _, fits | .null, _, fits
  | .objectIdentifier _, _, fits =>
    .element Forms.admits_accepted (by decide) (length_content_lt fits) rfl
  | .tagged _ _, canonical, fits =>
    .element Forms.admits_accepted canonical (length_content_lt fits) rfl
  | .encoded _, _, _ => rfl
  | .sequence elements, sound, fits =>
    .element Forms.admits_accepted (by decide) (length_content_lt fits)
      (spellings_of_fits elements sound (length_content_lt fits))
  | .explicit _ elements, sound, fits =>
    .element Forms.admits_accepted (Tag.canonical_contextSpecific sound.1 true)
      (length_content_lt fits) (spellings_of_fits elements sound.2 (length_content_lt fits))

theorem spellings_of_fits : (elements : List Element) → AllSound elements →
    (encodeAll elements).length < 2 ^ 64 → Spellings .accepted elements (encodeAll elements)
  | [], _, _ => rfl
  | first :: rest, sound, fits => by
    rw [encodeAll, List.length_append] at fits
    exact ⟨_, _, first.spelling_of_fits sound.1 (by omega),
      spellings_of_fits rest sound.2 (by omega), rfl⟩

end

/-- What the read of a sequence or wrapper does after its header. -/
private theorem reads_inside {tag : Tag} {octets : Bytes} {inner : Read Error (List Element)}
    {elements : List Element} (framed : Framed .accepted tag (Spellings .accepted elements) octets)
    (done : ∀ {content : Bytes}, Spellings .accepted elements content →
      inner.run content = (.ok elements, []))
    (wrap : List Element → Element) :
    Reads (readContent tag >>= fun content => wrap <$> Read.inside content inner) (wrap elements)
      octets := by
  obtain ⟨content, spelled, framed⟩ := framed.exists_content
  intro rest
  rw [((accepts_readContent tag).reads framed).run_bind, Read.run_map_eq_ok]
  exact ⟨elements, Read.run_inside_eq_ok.mpr ⟨⟨[], done spelled⟩, rfl⟩, rfl⟩

-- The induction is on the tree and its lists of children at once.
mutual

/-- However a sound tree is spelled, it is read along its shape. -/
theorem Element.reads_spelling : (element : Element) → element.Sound → {octets : Bytes} →
    element.Spelling .accepted octets → Reads element.shape.read element octets
  | .unsigned _, _, _, spelled => by
    simp only [Element.shape, Shape.read]
    exact (accepts_readUnsigned.reads spelled).map _
  | .word _, _, _, spelled => by
    simp only [Element.shape, Shape.read]
    exact (accepts_readWord.reads spelled).map _
  | .octetString _, _, _, spelled => by
    simp only [Element.shape, Shape.read]
    exact (accepts_readOctetString.reads spelled).map _
  | .bitString _, valid, _, spelled => by
    simp only [Element.Sound] at valid
    simp only [Element.shape, Shape.read]
    exact (accepts_readBitString.reads ⟨valid, spelled⟩).map _
  | .null, _, _, spelled => by
    simp only [Element.shape, Shape.read]
    intro rest
    rw [(accepts_readNull.reads (a := ()) spelled).run_bind, Read.run_pure]
  | .objectIdentifier _, _, _, spelled => by
    simp only [Element.shape, Shape.read]
    exact (accepts_readObjectIdentifier.reads spelled).map _
  | .tagged tag _, _, _, spelled => by
    simp only [Element.shape, Shape.read]
    exact ((accepts_readContent tag).reads spelled).map _
  | .encoded _, complete, _, spelled => by
    simp only [Element.Sound] at complete
    cases spelled
    simp only [Element.shape, Shape.read]
    exact (complete_iff.mp complete).map _
  -- A constructed element reads its content alone, which is where the recursion goes.
  | .sequence elements, sound, _, spelled => by
    simp only [Element.Sound] at sound
    simp only [Element.shape, Shape.read]
    exact reads_inside spelled (run_readAll_spellings elements sound) _
  | .explicit _ elements, sound, _, spelled => by
    simp only [Element.Sound] at sound
    simp only [Element.shape, Shape.read]
    exact reads_inside spelled (run_readAll_spellings elements sound.2) _

theorem run_readAll_spellings : (elements : List Element) → AllSound elements → {octets : Bytes} →
    Spellings .accepted elements octets →
      (readAll (shapes elements)).run octets = (.ok elements, [])
  | [], _, _, spelled => by
    cases spelled
    simp only [shapes, readAll]
    rfl
  | first :: rest, sound, _, ⟨_, _, front, back, same⟩ => by
    simp only [AllSound] at sound
    simp only [shapes, readAll, same]
    -- The octets of the other elements are what stands after the first.
    rw [(first.reads_spelling sound.1 front).run_bind,
      Read.run_bind_of_ok (run_readAll_spellings rest sound.2 back), Read.run_pure]

end

theorem Element.reads_shape (element : Element) (sound : element.Sound)
    (fits : element.encode.length < 2 ^ 64) : Reads element.shape.read element element.encode :=
  element.reads_spelling sound (element.spelling_of_fits sound fits)

theorem run_readAll_shapes (elements : List Element) (sound : AllSound elements)
    (fits : (encodeAll elements).length < 2 ^ 64) :
    (readAll (shapes elements)).run (encodeAll elements) = (.ok elements, []) :=
  run_readAll_spellings elements sound (spellings_of_fits elements sound fits)

/-- Reading undoes writing, for any number of trees of any depth and width: read along their
shapes, they come out as they were written and nothing is left over, neither after them nor within
any of them. Each of them is also read alone, whatever stands after it. -/
theorem trees_read_back (elements : List Element) (sound : AllSound elements)
    (fits : (encodeAll elements).length < 2 ^ 64) :
    (readAll (shapes elements)).run (encodeAll elements) = (.ok elements, []) ∧
      ∀ element ∈ elements, ∀ rest : Bytes,
        element.shape.read.run (element.encode ++ rest) = (.ok element, rest) := by
  refine ⟨run_readAll_shapes elements sound fits, fun element member => ?_⟩
  exact element.reads_shape (sound.mem element member)
    (Nat.lt_of_le_of_lt (length_encode_le_of_mem member) fits)

/-- One element of every kind, with a content that is long enough for the long form of lengths. -/
def mixedTree : List Element :=
  [.sequence [.unsigned 300, .word 5, .bitString ⟨3, [0x88]⟩, .null,
    .objectIdentifier { arcs := [1, 2, 840] }, .tagged (.contextSpecific 1 false) [9],
    .encoded [5, 0], .explicit 2 [.octetString (List.replicate 130 7), .sequence []]]]

theorem mixedTree_read_back :
    AllSound mixedTree ∧ (encodeAll mixedTree).length < 2 ^ 64 ∧
      (readAll (shapes mixedTree)).run (encodeAll mixedTree) = (.ok mixedTree, []) := by
  have sound : AllSound mixedTree := by
    simp only [mixedTree, AllSound, Element.Sound, and_true, true_and]
    exact ⟨by decide, by decide, rfl, by decide⟩
  have fits : (encodeAll mixedTree).length < 2 ^ 64 := by decide +kernel
  exact ⟨sound, fits, (trees_read_back mixedTree sound fits).1⟩

end KeyFile.Asn1

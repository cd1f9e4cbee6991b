/-!
# Octet strings

Octets are kept in lists, so that every codec of this library is a function on lists and its laws
are equations between lists. This module holds what several codecs share: exclusive or, and cutting
a list into pieces of one length.
-/
namespace KeyFile

/-- What is mixed into a list item by item is taken out again, if the operation cancels. -/
theorem zipWith_zipWith_cancel {α β : Type} {mix : α → β → α} {left : List α} {right : List β}
    {unmix : α → β → α} (cancels : ∀ a b, unmix (mix a b) b = a)
    (same : left.length = right.length) :
    List.zipWith unmix (List.zipWith mix left right) right = left := by
  induction left generalizing right with
  | nil => rfl
  | cons a rest ih =>
    cases right with
    | nil => cases same
    | cons b others =>
      rw [List.zipWith_cons_cons, List.zipWith_cons_cons, cancels, ih (Nat.succ.inj same)]

/-- Octet strings. -/
abbrev Bytes := List UInt8

namespace Bytes

/-- Octet-wise exclusive or, as long as the shorter of the two. -/
def xor (left right : Bytes) : Bytes :=
  List.zipWith (fun a b => a ^^^ b) left right

@[simp] theorem length_xor (left right : Bytes) :
    (xor left right).length = min left.length right.length := by
  simp [xor]

theorem xor_xor_cancel (left right : Bytes) (same : left.length = right.length) :
    xor (xor left right) right = left :=
  zipWith_zipWith_cancel (fun a b => by rw [UInt8.xor_assoc, UInt8.xor_self, UInt8.xor_zero]) same

end Bytes

/-- Consecutive pieces of `size` items each, the last one possibly shorter. -/
def pieces {α : Type} (size : Nat) (items : List α) : List (List α) :=
  cut items.length items
where
  /-- At most `count` pieces. -/
  cut : Nat → List α → List (List α)
    | 0, _ => []
    | count + 1, items =>
      if items.isEmpty then [] else items.take size :: cut count (items.drop size)

end KeyFile

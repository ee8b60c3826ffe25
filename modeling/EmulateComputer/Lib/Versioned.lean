import Mathlib.Order.Nat

/-!
# Versioned — copies validated by a version counter

A source shows some content and counts its changes.  Whoever keeps a copy together with the count
it was taken at may reuse the copy as long as the count stands still.

`Records h s` says that the history `h` gives the content at every count up to the present, and
`Copy h s tag a` that `a` is a copy taken at the count `tag`.  Copies survive every advance of the
source (`Records.advance`), a copy with the present count is the present content
(`Copy.eq_content`), and two copies with one tag agree (`Copy.unique`).
-/

namespace Versioned

variable {α : Type*}

/-- A content and the number of changes made to it so far. -/
structure Source (α : Type*) where
  version : Nat
  content : α

/-- The count never falls, and the content moves only with it. -/
structure Source.Advances (s t : Source α) : Prop where
  version_le : s.version ≤ t.version
  content_eq : t.version = s.version → t.content = s.content

/-- The history ends in the present. -/
def Records (h : Nat → α) (s : Source α) : Prop :=
  h s.version = s.content

/-- `a` is what the source showed at the count `tag`. -/
structure Copy (h : Nat → α) (s : Source α) (tag : Nat) (a : α) : Prop where
  tag_le : tag ≤ s.version
  eq_history : a = h tag

variable {h : Nat → α} {s t : Source α} {a : α}

theorem Records.copy (hs : Records h s) : Copy h s s.version s.content :=
  ⟨le_rfl, hs.symm⟩

theorem Copy.unique {tag : Nat} {b : α} (ha : Copy h s tag a) (hb : Copy h s tag b) : a = b :=
  ha.eq_history.trans hb.eq_history.symm

theorem Copy.eq_content (ha : Copy h s s.version a) (hs : Records h s) : a = s.content :=
  ha.unique hs.copy

/-- The history of a source that has moved on. -/
def extend (h : Nat → α) (s t : Source α) : Nat → α := fun tag =>
  if tag ≤ s.version then h tag else t.content

theorem Records.advance (hs : Records h s) (hst : s.Advances t) : Records (extend h s t) t := by
  unfold Records extend
  split
  · next hle =>
    have hsame : t.version = s.version := le_antisymm hle hst.version_le
    rw [hsame, hs, hst.content_eq hsame]
  · rfl

theorem Copy.advance {tag : Nat} (ha : Copy h s tag a) (hst : s.Advances t) :
    Copy (extend h s t) t tag a :=
  ⟨ha.tag_le.trans hst.version_le, by rw [extend, if_pos ha.tag_le, ha.eq_history]⟩

end Versioned

import EmulateComputer.Lib.Bytes
import Mathlib.Algebra.GroupWithZero.Nat

/-!
# Spans — scattering bytes over a memory and gathering them again

A list of spans is read as one buffer: `gather` is what it holds, and `scatter` fills it from the
front.  Spans that lie apart hold what was scattered over them, followed by what was there.
-/

namespace Spans

/-- A stretch of memory, by its start and its length. -/
abbrev Span := Nat × Nat

def Covers (s : Span) (i : Nat) : Prop :=
  s.1 ≤ i ∧ i < s.1 + s.2

/-- No two of the spans share an address. -/
def Apart (spans : List Span) : Prop :=
  spans.Pairwise fun s t => ∀ i, Covers s i → ¬ Covers t i

def total (spans : List Span) : Nat :=
  (spans.map Prod.snd).sum

def gather (m : Nat → BitVec 8) (spans : List Span) : List (BitVec 8) :=
  spans.flatMap fun s => Bytes.slice m s.1 s.2

/-- Memory with `bs` copied into the spans, in order and as far as they reach. -/
def scatter (m : Nat → BitVec 8) : List Span → List (BitVec 8) → Nat → BitVec 8
  | [], _ => m
  | s :: rest, bs => scatter (Bytes.splice m s.1 (bs.take s.2)) rest (bs.drop s.2)

variable {m m' : Nat → BitVec 8} {s : Span} {spans : List Span} {bs : List (BitVec 8)} {i : Nat}

@[simp] theorem scatter_nil (m : Nat → BitVec 8) (spans : List Span) : scatter m spans [] = m := by
  induction spans generalizing m with
  | nil => rfl
  | cons s rest ih => rw [scatter, List.take_nil, List.drop_nil, Bytes.splice_nil, ih]

theorem splice_of_not_covers (h : ¬ Covers s i) (hbs : bs.length ≤ s.2) :
    Bytes.splice m s.1 bs i = m i := by
  by_contra hne
  obtain ⟨hlo, hhi⟩ := Bytes.splice_ne hne
  exact h ⟨hlo, by omega⟩

theorem scatter_of_not_covers (h : ∀ s ∈ spans, ¬ Covers s i) : scatter m spans bs i = m i := by
  induction spans generalizing m bs with
  | nil => rfl
  | cons s rest ih =>
    rw [List.forall_mem_cons] at h
    rw [scatter, ih h.2, splice_of_not_covers h.1 (List.length_take_le _ _)]

theorem slice_congr_span (h : ∀ i, Covers s i → m i = m' i) :
    Bytes.slice m s.1 s.2 = Bytes.slice m' s.1 s.2 :=
  Bytes.slice_congr fun i hlo hhi => h i ⟨hlo, hhi⟩

theorem gather_congr (h : ∀ s ∈ spans, ∀ i, Covers s i → m i = m' i) :
    gather m spans = gather m' spans := by
  induction spans with
  | nil => rfl
  | cons s rest ih =>
    rw [List.forall_mem_cons] at h
    rw [gather, gather, List.flatMap_cons, List.flatMap_cons, slice_congr_span h.1]
    exact congrArg _ (ih h.2)

theorem length_gather (m : Nat → BitVec 8) (spans : List Span) :
    (gather m spans).length = total spans := by
  simp [gather, total, List.length_flatMap]

/-- A span that is filled from its start. -/
theorem slice_splice_front (m : Nat → BitVec 8) (start n : Nat) (h : bs.length ≤ n) :
    Bytes.slice (Bytes.splice m start bs) start n =
      bs ++ (Bytes.slice m start n).drop bs.length := by
  obtain ⟨k, rfl⟩ := Nat.exists_eq_add_of_le h
  rw [Bytes.slice_add, Bytes.slice_splice_self, Bytes.drop_slice, Nat.add_sub_cancel_left,
    Bytes.slice_congr fun i hlo _ => Bytes.splice_of_ge hlo]

/-- Spans that lie apart hold what was scattered over them, then what was there before. -/
theorem gather_scatter (hapart : Apart spans) (hfit : bs.length ≤ total spans) :
    gather (scatter m spans bs) spans = bs ++ (gather m spans).drop bs.length := by
  induction spans generalizing m bs with
  | nil =>
    obtain rfl : bs = [] := List.length_eq_zero_iff.1 (Nat.le_zero.1 hfit)
    rfl
  | cons s rest ih =>
    obtain ⟨hfirst, hrest⟩ := List.pairwise_cons.1 hapart
    have hlength : (bs.take s.2).length ≤ s.2 := List.length_take_le _ _
    have hhead : Bytes.slice (scatter (Bytes.splice m s.1 (bs.take s.2)) rest (bs.drop s.2))
        s.1 s.2 = bs.take s.2 ++ (Bytes.slice m s.1 s.2).drop (bs.take s.2).length := by
      rw [← slice_splice_front m s.1 s.2 hlength]
      exact slice_congr_span fun i hi => scatter_of_not_covers fun t ht => hfirst t ht i hi
    have hold : gather (Bytes.splice m s.1 (bs.take s.2)) rest = gather m rest :=
      gather_congr fun t ht i hi =>
        splice_of_not_covers (fun hs => hfirst t ht i hs hi) hlength
    have htail := @ih (Bytes.splice m s.1 (bs.take s.2)) (bs.drop s.2) hrest (by
      simp only [total, List.map_cons, List.sum_cons] at hfit ⊢
      rw [List.length_drop]
      omega)
    rw [hold] at htail
    change Bytes.slice _ s.1 s.2 ++ gather _ rest =
      bs ++ (Bytes.slice m s.1 s.2 ++ gather m rest).drop _
    rw [scatter, hhead, htail]
    -- Either the span takes all of the bytes, or it is filled to its end.
    rcases Nat.le_total bs.length s.2 with hle | hge
    · rw [List.take_of_length_le hle, List.drop_eq_nil_of_le hle, List.nil_append,
        List.length_nil, List.drop_zero, List.append_assoc, List.drop_append_of_le_length
        (by rw [Bytes.length_slice]; exact hle)]
    · have hfull : (bs.take s.2).length = s.2 := by
        rw [List.length_take]
        omega
      have hnone : ∀ k, s.2 ≤ k → (Bytes.slice m s.1 s.2).drop k = [] := fun k hk =>
        List.drop_eq_nil_of_le (by rwa [Bytes.length_slice])
      rw [hfull, hnone _ (Nat.le_refl _), List.append_nil, ← List.append_assoc,
        List.take_append_drop, List.drop_append, hnone _ hge, List.nil_append, Bytes.length_slice,
        List.length_drop]

end Spans

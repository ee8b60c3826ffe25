import Mathlib.Data.List.AList
import Mathlib.Algebra.BigOperators.Group.List.Basic
import Mathlib.Algebra.GroupWithZero.Nat

/-!
# Table — keyed tables

A table is Mathlib's association list at one value type, so no key occurs twice.  Mathlib has the
lookups after an insertion and an erasure of the same or of another key; here they are put in one
equation each.  `modify` changes one value in place.  A measure of the values is read at one key
with `Option.elim`, or added up by `total`.
-/

/-- A finite map from keys to values. -/
abbrev Table (κ α : Type*) := AList fun _ : κ => α

namespace Table

variable {κ α : Type*} [DecidableEq κ] {t : Table κ α} {k k' : κ} {a : α}

theorem lookup_insert (t : Table κ α) (k : κ) (a : α) (k' : κ) :
    (t.insert k a).lookup k' = if k' = k then some a else t.lookup k' := by
  split
  · next h => rw [h, AList.lookup_insert]
  · next h => exact AList.lookup_insert_ne h

theorem lookup_insert_eq_some {b : α} :
    (t.insert k a).lookup k' = some b ↔ k' = k ∧ a = b ∨ k' ≠ k ∧ t.lookup k' = some b := by
  rw [lookup_insert]
  split <;> simp_all

theorem lookup_erase (t : Table κ α) (k k' : κ) :
    (t.erase k).lookup k' = if k' = k then none else t.lookup k' := by
  split
  · next h => rw [h, AList.lookup_erase]
  · next h => exact AList.lookup_erase_ne h

theorem lookup_erase_eq_some : (t.erase k).lookup k' = some a ↔ k' ≠ k ∧ t.lookup k' = some a := by
  rw [lookup_erase]
  split <;> simp_all

variable {P : κ → α → Prop}

/-- What holds of every value, but perhaps one that is replaced, and of the new value. -/
theorem forall_insert (h : ∀ k' b, k' ≠ k → t.lookup k' = some b → P k' b)
    (ha : P k a) (k' : κ) (b : α) (hb : (t.insert k a).lookup k' = some b) : P k' b := by
  rcases lookup_insert_eq_some.1 hb with ⟨rfl, rfl⟩ | ⟨hne, hb⟩
  · exact ha
  · exact h k' b hne hb

theorem forall_erase (h : ∀ k' b, t.lookup k' = some b → P k' b) (k' : κ) (b : α)
    (hb : (t.erase k).lookup k' = some b) : P k' b :=
  h k' b (lookup_erase_eq_some.1 hb).2

theorem mem_entries_iff : ⟨k, a⟩ ∈ t.entries ↔ t.lookup k = some a := by
  rw [← AList.mem_lookup_iff, Option.mem_def]

theorem mem_iff : k ∈ t ↔ ∃ a, t.lookup k = some a := by
  rw [← AList.lookup_isSome, Option.isSome_iff_exists]

/-! ## Changing one value -/

section Modify

/-- `f` applied to an entry at `k`. -/
def change (k : κ) (f : α → α) (e : Σ _ : κ, α) : Σ _ : κ, α :=
  ⟨e.1, if e.1 = k then f e.2 else e.2⟩

/-- Apply `f` to the value at `k`, leaving every key in its place. -/
def modify (t : Table κ α) (k : κ) (f : α → α) : Table κ α where
  entries := t.entries.map (change k f)
  nodupKeys := by
    rw [List.NodupKeys, List.keys, List.map_map]
    exact t.nodupKeys

theorem lookup_modify (t : Table κ α) (k : κ) (f : α → α) (k' : κ) :
    (t.modify k f).lookup k' = if k' = k then (t.lookup k').map f else t.lookup k' := by
  apply Option.ext
  intro b
  have hentry : ⟨k', b⟩ ∈ (t.modify k f).entries ↔
      ∃ a, ⟨k', a⟩ ∈ t.entries ∧ (if k' = k then f a else a) = b := by
    unfold modify
    rw [List.mem_map]
    constructor
    · rintro ⟨⟨k'', a⟩, hmem, heq⟩
      obtain ⟨rfl, hb⟩ := Sigma.mk.inj_iff.1 heq
      exact ⟨a, hmem, eq_of_heq hb⟩
    · rintro ⟨a, hmem, hb⟩
      exact ⟨⟨k', a⟩, hmem, by rw [← hb]; rfl⟩
  rw [← mem_entries_iff, hentry]
  simp only [mem_entries_iff]
  split
  · rw [Option.map_eq_some_iff]
  · exact exists_eq_right

variable {f : α → α}

theorem lookup_modify_of_lookup (hk : t.lookup k = some a) (k' : κ) :
    (t.modify k f).lookup k' = if k' = k then some (f a) else t.lookup k' := by
  rw [lookup_modify]
  split
  · next h => rw [h, hk, Option.map_some]
  · rfl

theorem lookup_modify_self (hk : t.lookup k = some a) : (t.modify k f).lookup k = some (f a) := by
  rw [lookup_modify_of_lookup hk, if_pos rfl]

theorem forall_modify (hk : t.lookup k = some a)
    (h : ∀ k' b, k' ≠ k → t.lookup k' = some b → P k' b) (ha : P k (f a)) (k' : κ) (b : α)
    (hb : (t.modify k f).lookup k' = some b) : P k' b := by
  rw [lookup_modify_of_lookup hk] at hb
  split at hb
  · next heq => exact heq ▸ Option.some.inj hb ▸ ha
  · next hne => exact h k' b hne hb

theorem modify_of_lookup_eq_none (hk : t.lookup k = none) (f : α → α) : t.modify k f = t := by
  refine AList.ext ((List.map_congr_left fun e he => ?_).trans (List.map_id _))
  have hne : e.1 ≠ k := by
    rintro rfl
    rw [mem_entries_iff.1 (show ⟨e.1, e.2⟩ ∈ t.entries from he)] at hk
    cases hk
  rw [change, if_neg hne, id_eq]

theorem modify_modify (t : Table κ α) (k : κ) (f g : α → α) :
    (t.modify k f).modify k g = t.modify k (g ∘ f) := by
  refine AList.ext ?_
  change (t.entries.map (change k f)).map (change k g) = t.entries.map (change k (g ∘ f))
  rw [List.map_map]
  refine List.map_congr_left fun e _ => ?_
  unfold Function.comp change
  split <;> rfl

end Modify

/-! ## A measure of the value at one key -/

section At

variable {β : Type*} {b : β} {m : α → β} {f : α → α}

theorem elim_of_lookup (hk : t.lookup k = some a) : (t.lookup k).elim b m = m a := by
  rw [hk, Option.elim_some]

theorem elim_insert (t : Table κ α) (k : κ) (a : α) (k' : κ) :
    ((t.insert k a).lookup k').elim b m = if k' = k then m a else (t.lookup k').elim b m := by
  rw [lookup_insert]
  split <;> rfl

theorem elim_modify (hk : t.lookup k = some a) (k' : κ) :
    ((t.modify k f).lookup k').elim b m = if k' = k then m (f a) else (t.lookup k').elim b m := by
  rw [lookup_modify_of_lookup hk]
  split <;> rfl

/-- A change that the measure does not see. -/
theorem elim_modify_of_eq (hf : ∀ a, m (f a) = m a) (t : Table κ α) (k k' : κ) :
    ((t.modify k f).lookup k').elim b m = (t.lookup k').elim b m := by
  rw [lookup_modify]
  split
  · cases t.lookup k' with
    | none => rfl
    | some a => exact hf a
  · rfl

variable {n : α → Nat}

theorem elim_modify_le (hf : ∀ a, n (f a) ≤ n a) (t : Table κ α) (k k' : κ) :
    ((t.modify k f).lookup k').elim 0 n ≤ (t.lookup k').elim 0 n := by
  rw [lookup_modify]
  split
  · cases t.lookup k' with
    | none => exact Nat.le_refl 0
    | some a => exact hf a
  · exact Nat.le_refl _

theorem elim_erase_le (t : Table κ α) (k k' : κ) :
    ((t.erase k).lookup k').elim 0 n ≤ (t.lookup k').elim 0 n := by
  rw [lookup_erase]
  split
  · exact Nat.zero_le _
  · exact Nat.le_refl _

end At

/-! ## Related values -/

section Rel

variable {R : κ → α → α → Prop} {t' t'' : Table κ α}

/-- The tables have the same keys, and the values there are related. -/
def Rel (R : κ → α → α → Prop) (t t' : Table κ α) : Prop :=
  ∀ k, Option.Rel (R k) (t.lookup k) (t'.lookup k)

namespace Rel

theorem refl (hR : ∀ k a, R k a a) (t : Table κ α) : Rel R t t := by
  intro k
  cases t.lookup k with
  | none => exact .none
  | some a => exact .some (hR k a)

theorem trans (hR : ∀ k a b c, R k a b → R k b c → R k a c) (h : Rel R t t')
    (h' : Rel R t' t'') : Rel R t t'' := by
  intro k
  have hrel := h k
  have hrel' := h' k
  generalize t.lookup k = a, t'.lookup k = b, t''.lookup k = c at hrel hrel' ⊢
  cases hrel with
  | none => exact hrel'
  | some hab =>
    cases hrel' with
    | some hbc => exact .some (hR k _ _ _ hab hbc)

theorem forth (h : Rel R t t') (ha : t.lookup k = some a) :
    ∃ b, t'.lookup k = some b ∧ R k a b := by
  have hrel := h k
  rw [ha] at hrel
  generalize t'.lookup k = found at hrel ⊢
  cases hrel with
  | some hab => exact ⟨_, rfl, hab⟩

theorem back (h : Rel R t t') (ha : t'.lookup k = some a) : ∃ b, t.lookup k = some b ∧ R k b a := by
  have hrel := h k
  rw [ha] at hrel
  generalize t.lookup k = found at hrel ⊢
  cases hrel with
  | some hab => exact ⟨_, rfl, hab⟩

theorem modify (hR : ∀ k a, R k a a) {f : α → α}
    (hf : ∀ a, t.lookup k = some a → R k a (f a)) : Rel R t (t.modify k f) := by
  intro k'
  rw [lookup_modify]
  split
  · next h =>
    subst h
    cases ha : t.lookup k' with
    | none => exact .none
    | some a => exact .some (hf a ha)
  · exact refl hR t k'

theorem elim_eq {β : Type*} {b : β} {m : α → β} (hm : ∀ k a a', R k a a' → m a' = m a)
    (h : Rel R t t') (k : κ) : (t'.lookup k).elim b m = (t.lookup k).elim b m := by
  have hrel := h k
  generalize t.lookup k = a, t'.lookup k = a' at hrel ⊢
  cases hrel with
  | none => rfl
  | some haa => exact hm k _ _ haa

end Rel

end Rel

/-! ## Sums over the values -/

section Total

variable (f : α → Nat)

/-- The sum of a measure of the values. -/
def total (t : Table κ α) : Nat :=
  (t.entries.map fun e => f e.2).sum

theorem total_insert (hk : k ∉ t) : total f (t.insert k a) = f a + total f t := by
  unfold total
  rw [AList.entries_insert_of_notMem hk, List.map_cons, List.sum_cons]

theorem total_insert_erase (t : Table κ α) (k : κ) (a : α) :
    total f (t.insert k a) = f a + total f (t.erase k) := by
  unfold total
  rfl

theorem total_erase (hk : t.lookup k = some a) : f a + total f (t.erase k) = total f t := by
  have hmem : k ∈ t.entries.keys := List.mem_keys_of_mem (mem_entries_iff.2 hk)
  obtain ⟨b, l₁, l₂, hnot, hsplit, herase⟩ := List.exists_of_kerase hmem
  have hb : t.lookup k = some b := mem_entries_iff.1 (by rw [hsplit]; simp)
  obtain rfl : b = a := Option.some.inj (hb.symm.trans hk)
  have htotal : total f (t.erase k) = ((l₁ ++ l₂).map fun e => f e.2).sum := by
    rw [← herase]
    rfl
  unfold total at htotal ⊢
  rw [htotal, hsplit]
  simp only [List.map_append, List.map_cons, List.sum_append, List.sum_cons]
  omega

theorem total_modify {g : α → α} (hk : t.lookup k = some a) :
    total f (t.modify k g) + f a = total f t + f (g a) := by
  -- Every entry but the one at `k` keeps its value, so the sums differ in that term only.
  have hsum : ∀ l : List (Σ _ : κ, α), l.NodupKeys → ⟨k, a⟩ ∈ l →
      ((l.map (change k g)).map fun e => f e.2).sum + f a =
        (l.map fun e => f e.2).sum + f (g a) := by
    intro l
    induction l with
    | nil => exact fun _ hmem => absurd hmem List.not_mem_nil
    | cons e l ih =>
      intro hnodup hmem
      obtain ⟨hnot, hrest⟩ := List.nodupKeys_cons.1 hnodup
      rcases List.mem_cons.1 hmem with rfl | hl
      · have hother : l.map (change k g) = l := by
          refine (List.map_congr_left fun e he => ?_).trans (List.map_id l)
          have hkey : e.1 ∈ l.keys := List.mem_keys_of_mem he
          have hne : e.1 ≠ k := fun h => hnot (show k ∈ l.keys from h ▸ hkey)
          rw [change, if_neg hne, id_eq]
        simp only [List.map_cons, List.sum_cons, hother, change, if_pos]
        omega
      · have hne : e.1 ≠ k := fun h => hnot (h ▸ List.mem_keys_of_mem hl)
        have := ih hrest hl
        simp only [List.map_cons, List.sum_cons, change, if_neg hne]
        omega
  exact hsum t.entries t.nodupKeys (mem_entries_iff.2 hk)

/-- The sum can be taken over any keys that cover the values with a measure. -/
theorem total_eq_sum_of_cover {ks : List κ} (hnodup : ks.Nodup)
    (hcover : ∀ k a, t.lookup k = some a → f a ≠ 0 → k ∈ ks) :
    total f t = (ks.map fun k => (t.lookup k).elim 0 f).sum := by
  induction ks generalizing t with
  | nil =>
    refine List.sum_eq_zero fun n hn => ?_
    obtain ⟨e, he, rfl⟩ := List.mem_map.1 hn
    by_contra hne
    exact absurd (hcover e.1 e.2 (mem_entries_iff.1 he) hne) List.not_mem_nil
  | cons k ks ih =>
    obtain ⟨hnot, hrest⟩ := List.nodup_cons.1 hnodup
    have herase : total f (t.erase k) = (ks.map fun k => (t.lookup k).elim 0 f).sum := by
      refine (ih hrest fun k' a ha hne => ?_).trans ?_
      · obtain ⟨hk, ha⟩ := lookup_erase_eq_some.1 ha
        exact (List.mem_cons.1 (hcover k' a ha hne)).resolve_left hk
      · refine congrArg List.sum (List.map_congr_left fun k' hk' => ?_)
        have hne : k' ≠ k := fun h => hnot (h ▸ hk')
        rw [lookup_erase, if_neg hne]
    rw [List.map_cons, List.sum_cons, ← herase]
    cases hk : t.lookup k with
    | none =>
      have hkeys : k ∉ t.entries.keys := AList.lookup_eq_none.1 hk
      have hsame : (t.erase k).entries = t.entries := List.kerase_of_notMem_keys hkeys
      rw [Option.elim_none, Nat.zero_add]
      unfold total
      rw [hsame]
    | some a => exact (total_erase f hk).symm

end Total

end Table

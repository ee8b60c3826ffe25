import Mathlib.Logic.Basic

/-!
# Radix — walks down a tree of tables

A table is a row of words in some memory.  A walk reads one word per level: it names the next
table, is a leaf, or is void.

* `Layout.walk` is where the walk for one key ends;
* `Layout.path` lists the addresses it reads;
* `Layout.path_congr`, `Layout.walk_congr`: memories whose words say the same along the path have
  the same path and lead to the same leaf.
-/

namespace Radix

variable {A W T : Type}

/-- What a word of a table says. -/
inductive Node (T : Type)
  | table (next : T)
  | leaf
  | void

/-- Where a walk ends: at an address without a word, at a void word, or at a leaf. -/
inductive Outcome (A W : Type)
  | unmapped
  | void
  | leaf (level : Nat) (addr : A) (word : W)

/-- The layout of the tree for one key: the address of the key's word in a table, and the reading
of a word, both by level. -/
structure Layout (A W T : Type) where
  slot : Nat → T → A
  classify : Nat → W → Node T

namespace Layout

variable (l : Layout A W T) (mem : A → Option W)

/-- Where a word leads; `next` continues in the table below. -/
def follow (level : Nat) (a : A) (w : W) (next : T → Outcome A W) : Outcome A W :=
  match l.classify level w with
  | .table t => next t
  | .leaf => .leaf level a w
  | .void => .void

def visit (level : Nat) (t : T) (next : T → Outcome A W) : Outcome A W :=
  match mem (l.slot level t) with
  | none => .unmapped
  | some w => l.follow level (l.slot level t) w next

/-- The walk from a level down; below level 0 there are no tables. -/
def walk : Nat → T → Outcome A W
  | 0, t => l.visit mem 0 t fun _ => .void
  | level + 1, t => l.visit mem (level + 1) t (walk level)

def path : Nat → T → List A
  | 0, t => [l.slot 0 t]
  | level + 1, t =>
    l.slot (level + 1) t ::
      match (mem (l.slot (level + 1) t)).map (l.classify (level + 1)) with
      | some (.table t') => path level t'
      | _ => []

variable {l mem} {level n : Nat} {w : W} {t : T}

/-- How the visit of a table leads to a leaf. -/
theorem visit_eq_leaf {next : T → Outcome A W} {a : A} :
    l.visit mem n t next = .leaf level a w ↔ ∃ v, mem (l.slot n t) = some v ∧
      (l.classify n v = .leaf ∧ n = level ∧ l.slot n t = a ∧ v = w ∨
        ∃ t', l.classify n v = .table t' ∧ next t' = .leaf level a w) := by
  unfold visit follow
  cases mem (l.slot n t) with
  | none => simp
  | some v => cases hnode : l.classify n v <;> simp [hnode]

/-- A leaf is a word of the path that reads as one. -/
theorem walk_leaf {a : A} (h : l.walk mem n t = .leaf level a w) :
    mem a = some w ∧ a ∈ l.path mem n t ∧ l.classify level w = .leaf := by
  induction n generalizing t with
  | zero =>
    obtain ⟨v, hmem, ⟨hnode, rfl, rfl, rfl⟩ | ⟨t', -, hnext⟩⟩ := visit_eq_leaf.mp h
    · exact ⟨hmem, List.mem_singleton_self _, hnode⟩
    · cases hnext
  | succ n ih =>
    obtain ⟨v, hmem, ⟨hnode, rfl, rfl, rfl⟩ | ⟨t', hnode, hnext⟩⟩ := visit_eq_leaf.mp h
    · exact ⟨hmem, List.mem_cons_self, hnode⟩
    · obtain ⟨hword, hpath, hleaf⟩ := ih hnext
      refine ⟨hword, ?_, hleaf⟩
      simp only [path, hmem, Option.map_some, hnode]
      exact List.mem_cons_of_mem _ hpath

/-- The path reads slots of tables only. -/
theorem exists_slot_of_mem_path {a : A} (h : a ∈ l.path mem n t) :
    ∃ level t', a = l.slot level t' := by
  induction n generalizing t with
  | zero => exact ⟨0, t, List.mem_singleton.mp h⟩
  | succ n ih =>
    rcases List.mem_cons.mp h with rfl | hrest
    · exact ⟨n + 1, t, rfl⟩
    · split at hrest
      · exact ih hrest
      · exact absurd hrest List.not_mem_nil

section Congr

variable {mem' : A → Option W}

theorem path_congr {t : T}
    (h : ∀ a ∈ l.path mem n t, ∀ level,
      (mem' a).map (l.classify level) = (mem a).map (l.classify level)) :
    l.path mem' n t = l.path mem n t := by
  induction n generalizing t with
  | zero => rfl
  | succ n ih =>
    have hfirst := h _ List.mem_cons_self (n + 1)
    simp only [path] at h ⊢
    rw [hfirst]
    cases hnode : (mem (l.slot (n + 1) t)).map (l.classify (n + 1)) with
    | none => rfl
    | some node =>
      rw [hnode] at h
      cases node with
      | table t' => exact congrArg _ (ih fun a ha => h a (List.mem_cons_of_mem _ ha))
      | leaf => rfl
      | void => rfl

/-- If words on the path are related to those of a second memory, and related words say the same,
then a leaf of the first is one of the second. -/
theorem walk_congr {S : W → W → Prop}
    (hS : ∀ level w w', S w w' → l.classify level w' = l.classify level w) {t : T}
    (h : ∀ a ∈ l.path mem n t, ∀ w, mem a = some w → ∃ w', mem' a = some w' ∧ S w w')
    {level : Nat} {a : A} {w : W} (hleaf : l.walk mem n t = .leaf level a w) :
    ∃ w', S w w' ∧ l.walk mem' n t = .leaf level a w' := by
  induction n generalizing t with
  | zero =>
    obtain ⟨v, hmem, ⟨hnode, rfl, rfl, rfl⟩ | ⟨t', -, hnext⟩⟩ := visit_eq_leaf.mp hleaf
    · obtain ⟨v', hmem', hv⟩ := h _ (List.mem_singleton_self _) v hmem
      exact ⟨v', hv, visit_eq_leaf.mpr
        ⟨v', hmem', .inl ⟨(hS 0 _ _ hv).trans hnode, rfl, rfl, rfl⟩⟩⟩
    · cases hnext
  | succ n ih =>
    obtain ⟨v, hmem, hv⟩ := visit_eq_leaf.mp hleaf
    obtain ⟨v', hmem', hrel⟩ := h _ List.mem_cons_self v hmem
    have hsame : l.classify (n + 1) v' = l.classify (n + 1) v := hS _ _ _ hrel
    rcases hv with ⟨hnode, rfl, rfl, rfl⟩ | ⟨t', hnode, hnext⟩
    · exact ⟨v', hrel, visit_eq_leaf.mpr
        ⟨v', hmem', .inl ⟨hsame.trans hnode, rfl, rfl, rfl⟩⟩⟩
    · simp only [path, hmem, Option.map_some, hnode] at h
      obtain ⟨w', hw, hwalk⟩ := ih (fun b hb => h b (List.mem_cons_of_mem _ hb)) hnext
      exact ⟨w', hw, visit_eq_leaf.mpr ⟨v', hmem', .inr ⟨t', hsame.trans hnode, hwalk⟩⟩⟩

end Congr

end Layout

end Radix

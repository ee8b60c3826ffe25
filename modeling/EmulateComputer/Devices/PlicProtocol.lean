import Mathlib.Data.List.Induction
import EmulateComputer.Devices.Plic

/-!
# PlicProtocol — the controller over whole runs

From reset, whatever lines are driven and whatever registers are accessed:

- a source is pending exactly when its line is high and nobody has claimed it;
- no source is claimed by both contexts, and source 0 takes no part;
- the cached bitmap answers `eip` as a claim would.

The search of `claim` is compared with what it is for: the lowest-numbered of the sources of
highest priority.
-/

namespace EmulateComputer

namespace PlicRegs

/-- A source the context may claim. -/
def Claimable (r : PlicRegs) (ctx : Fin 2) (id : Fin 32) : Prop :=
  r.pending.getLsbD id = true ∧ (r.enable ctx).getLsbD id = true ∧
    r.threshold ctx < r.priority id

instance (r : PlicRegs) (ctx : Fin 2) (id : Fin 32) : Decidable (r.Claimable ctx id) :=
  inferInstanceAs (Decidable (_ ∧ _ ∧ _))

/-- The claimable source of highest priority with the lowest number. -/
def IsBest (r : PlicRegs) (ctx : Fin 2) (id : Fin 32) : Prop :=
  r.Claimable ctx id ∧ ∀ other, r.Claimable ctx other →
    r.priority other < r.priority id ∨ (r.priority other = r.priority id ∧ id ≤ other)

/-- What the registers keep over every run, source by source. -/
structure Consistent (r : PlicRegs) : Prop where
  pending : ∀ j, r.pending.getLsbD j = true ↔
    r.level.getLsbD j = true ∧ ∀ ctx, (r.claimed ctx).getLsbD j = false
  disjoint : ∀ j ctx ctx', (r.claimed ctx).getLsbD j = true → (r.claimed ctx').getLsbD j = true →
    ctx = ctx'
  level_zero : r.level.getLsbD 0 = false
  claimed_zero : ∀ ctx, (r.claimed ctx).getLsbD 0 = false

namespace Consistent

variable {r : PlicRegs} (h : Consistent r)
include h

theorem pending_eq : r.pending = r.level &&& ~~~(r.claimed 0 ||| r.claimed 1) := by
  apply BitVec.eq_of_getLsbD_eq
  intro j hj
  rw [Bool.eq_iff_iff, h.pending j, Fin.forall_fin_two]
  simp [hj]

theorem claimed_disjoint : r.claimed 0 &&& r.claimed 1 = 0 := by
  rw [BitMask.eq_zero_iff]
  intro j
  by_contra hb
  rw [Bool.not_eq_false, BitVec.getLsbD_and, Bool.and_eq_true] at hb
  exact absurd (h.disjoint j 0 1 hb.1 hb.2) (by decide)

theorem pending_zero : r.pending.getLsbD 0 = false := by
  by_contra hb
  have hp := (h.pending 0).mp (by simpa using hb)
  exact Bool.noConfusion (h.level_zero.symm.trans hp.1)

/-- A change at one source. -/
theorem change {r' : PlicRegs} {i : Nat} (hi : i ≠ 0)
    (hothers : ∀ j, j ≠ i → r'.pending.getLsbD j = r.pending.getLsbD j ∧
      r'.level.getLsbD j = r.level.getLsbD j ∧
      ∀ ctx, (r'.claimed ctx).getLsbD j = (r.claimed ctx).getLsbD j)
    (hpending : r'.pending.getLsbD i = true ↔
      r'.level.getLsbD i = true ∧ ∀ ctx, (r'.claimed ctx).getLsbD i = false)
    (hdisjoint : ∀ ctx ctx', (r'.claimed ctx).getLsbD i = true →
      (r'.claimed ctx').getLsbD i = true → ctx = ctx') : Consistent r' := by
  refine ⟨fun j => ?_, fun j => ?_, ?_, ?_⟩
  · by_cases hj : j = i
    · rw [hj, hpending]
    · simp only [hothers j hj, h.pending j]
  · by_cases hj : j = i
    · rw [hj]
      exact hdisjoint
    · simp only [hothers j hj]
      exact h.disjoint j
  · rw [(hothers 0 hi.symm).2.1, h.level_zero]
  · simp only [hothers 0 hi.symm, h.claimed_zero, implies_true]

end Consistent

end PlicRegs

namespace Plic

inductive Op
  | setIrq (id : U32) (level : Bool)
  | read (offset : U64) (size : Nat)
  | write (offset val : U64) (size : Nat)

def apply (p : Plic) : Op → Plic
  | .setIrq id level => p.setIrq id level
  | .read offset size => (read offset size p).state
  | .write offset val size => (write offset val size p).state

def after (ops : List Op) : Plic :=
  ops.foldl apply new

def claimOffset (ctx : Nat) : Nat :=
  CONTEXT_BASE + ctx * CONTEXT_STRIDE + 4

def claimRead (p : Plic) (ctx : Nat) : U32 :=
  (p.readReg (claimOffset ctx)).1

/-! ## The search for the best source -/

section Search

variable (p : Plic) (ctx : Fin 2)

theorem better_eq (best : Fin 32 × U32) (id : Fin 32) :
    p.better ctx best id =
      if p.Claimable ctx id ∧ best.2 < p.priority id then (id, p.priority id) else best := by
  unfold better PlicRegs.Claimable
  simp only [BitVec.getLsbD_and, Bool.and_eq_true, and_assoc]

/-- What a scan has found among the sources it has seen: none that may be claimed, or the best. -/
theorem foldl_better (seen : List (Fin 32)) (h : seen.Pairwise (· < ·)) :
    (seen.foldl (p.better ctx) (0, 0) = (0, 0) ∧ ∀ id ∈ seen, ¬ p.Claimable ctx id) ∨
      ∃ id ∈ seen, seen.foldl (p.better ctx) (0, 0) = (id, p.priority id) ∧ p.Claimable ctx id ∧
        ∀ other ∈ seen, p.Claimable ctx other →
          p.priority other < p.priority id ∨ (p.priority other = p.priority id ∧ id ≤ other) := by
  induction seen using List.reverseRecOn with
  | nil => exact .inl ⟨rfl, nofun⟩
  | append_singleton seen next ih =>
    obtain ⟨hseen, -, hlast⟩ := List.pairwise_append.1 h
    simp only [List.foldl_append, List.foldl_cons, List.foldl_nil, better_eq,
      List.forall_mem_append, List.forall_mem_singleton]
    rcases ih hseen with ⟨heq, hnone⟩ | ⟨id, hmem, heq, hid, hbest⟩ <;> rw [heq]
    · by_cases hnext : p.Claimable ctx next
      · have hpos : 0 < p.priority next := Nat.lt_of_le_of_lt (Nat.zero_le _) hnext.2.2
        exact .inr ⟨next, by simp, if_pos ⟨hnext, hpos⟩, hnext,
          fun other hother hc => absurd hc (hnone other hother), fun _ => .inr ⟨rfl, le_rfl⟩⟩
      · exact .inl ⟨if_neg fun h => hnext h.1, hnone, hnext⟩
    · right
      split
      next hnext =>
        -- `next` beats the incumbent, and with it everything seen before.
        refine ⟨next, by simp, rfl, hnext.1, fun other hother hc => .inl ?_,
          fun _ => .inr ⟨rfl, le_rfl⟩⟩
        rcases hbest other hother hc with hlt | ⟨hsame, -⟩
        · exact BitVec.lt_trans hlt hnext.2
        · exact hsame ▸ hnext.2
      next hnext =>
        refine ⟨id, by simp [hmem], rfl, hid, hbest, fun hc => ?_⟩
        rcases Nat.lt_or_eq_of_le (Nat.not_lt.1 fun hlt => hnext ⟨hc, hlt⟩) with hless | hsame
        · exact .inl hless
        · exact .inr ⟨BitVec.eq_of_toNat_eq hsame, (hlast id hmem next (by simp)).le⟩

variable {p}

/-- If source 0 is not pending, the search finds the best source, and 0 when there is none. -/
theorem best_spec (hzero : p.pending.getLsbD 0 = false) :
    (p.best ctx = 0 ∧ ∀ id, ¬ p.Claimable ctx id) ∨
      (p.best ctx ≠ 0 ∧ p.IsBest ctx (p.best ctx)) := by
  have hne : ∀ {id : Fin 32}, p.Claimable ctx id → id ≠ 0 := by
    rintro id h rfl
    exact Bool.noConfusion (hzero.symm.trans h.1)
  have hsources : ∀ id : Fin 32, id ≠ 0 → id ∈ (List.finRange 32).tail := by decide
  rcases p.foldl_better ctx _ (List.pairwise_lt_finRange 32).tail with
    ⟨heq, hnone⟩ | ⟨id, -, heq, hid, hbest⟩
  · exact .inl ⟨congrArg Prod.fst heq, fun id hid => hnone id (hsources id (hne hid)) hid⟩
  · rw [show p.best ctx = id from congrArg Prod.fst heq]
    exact .inr ⟨hne hid, hid, fun other hc => hbest other (hsources other (hne hc)) hc⟩

end Search

/-! ## Readiness -/

theorem ready_iff (r : PlicRegs) (ctx : Fin 2) : r.ready ctx = true ↔ ∃ id, r.Claimable ctx id := by
  simp [PlicRegs.ready, PlicRegs.Claimable, and_assoc]

/-- The bitmap is current, so `eip` says whether the context has a claimable source. -/
theorem eip_iff (p : Plic) (ctx : Fin 2) : p.eip ctx = true ↔ ∃ id, p.Claimable ctx id := by
  rw [← ready_iff]
  unfold eip
  rw [p.readyMask_eq]
  unfold PlicRegs.readyMask
  match ctx with
  | 0 => cases p.ready 0 <;> cases p.ready 1 <;> decide
  | 1 => cases p.ready 0 <;> cases p.ready 1 <;> decide

/-- Where the claim register of a context lies. -/
theorem claimOffset_decode (ctx : Nat) :
    ¬ claimOffset ctx ≤ 0x1FFFFF ∧ (claimOffset ctx - CONTEXT_BASE) / CONTEXT_STRIDE = ctx ∧
      (claimOffset ctx - CONTEXT_BASE) % CONTEXT_STRIDE = 4 := by
  unfold claimOffset CONTEXT_BASE CONTEXT_STRIDE
  omega

/-- Offsets past the enable registers belong to the contexts. -/
theorem not_low_of_context {offset : Nat} (h : ¬ offset ≤ 0x1FFFFF) :
    ¬ offset ≤ 0x0FFF ∧ offset ≠ 0x1000 ∧ ¬ offset < ENABLE_BASE := by
  unfold ENABLE_BASE
  omega

theorem readReg_claimOffset (p : Plic) (ctx : Nat) :
    p.readReg (claimOffset ctx) = if h : ctx < 2 then p.claim ⟨ctx, h⟩ else (0, p) := by
  obtain ⟨hhigh, hdiv, hmod⟩ := claimOffset_decode ctx
  have hlow := not_low_of_context hhigh
  simp [readReg, hlow, hhigh, hdiv, hmod]

theorem written_claimOffset (p : Plic) (ctx : Nat) (val : U32) :
    p.written (claimOffset ctx) val = if h : ctx < 2 then p.complete ⟨ctx, h⟩ val else p := by
  obtain ⟨hhigh, hdiv, hmod⟩ := claimOffset_decode ctx
  have hlow := not_low_of_context hhigh
  simp [written, hlow, hhigh, hdiv, hmod]

theorem claim_fst (p : Plic) (ctx : Fin 2) :
    (p.claim ctx).1 = BitVec.ofNat 32 (p.best ctx).val := by
  unfold claim
  by_cases h : p.best ctx = 0
  · simp [h]
  · simp [h]

/-! ## What each operation keeps -/

open PlicRegs (Consistent)

variable {p : Plic} {id : U32}

theorem isSource_of_not (h : ¬ (id = 0 ∨ 32 ≤ id)) : IsSource id :=
  ⟨(not_or.mp h).1, BitVec.not_le.mp (not_or.mp h).2⟩

theorem IsSource.toNat_lt (h : IsSource id) : id.toNat < 32 := by
  simpa [BitVec.lt_def] using h.2

theorem IsSource.toNat_ne (h : IsSource id) : id.toNat ≠ 0 :=
  fun hzero => h.1 (BitVec.eq_of_toNat_eq hzero)

/-- A source is mid-claim when some context holds it. -/
theorem anyClaimed_and_bit (p : Plic) (h : IsSource id) :
    p.anyClaimed &&& ((1 : U32) <<< id.toNat) = 0 ↔
      ∀ ctx, (p.claimed ctx).getLsbD id.toNat = false := by
  rw [BitMask.and_bit_eq_zero_iff _ h.toNat_lt, PlicRegs.anyClaimed, BitVec.getLsbD_or,
    Bool.or_eq_false_iff, Fin.forall_fin_two]

theorem consistent_setIrq (h : Consistent p.toPlicRegs) (id : U32) (level : Bool) :
    Consistent (p.setIrq id level).toPlicRegs := by
  unfold setIrq
  split
  · exact h
  · rename_i hid
    have hsource := isSource_of_not hid
    have hlt := hsource.toNat_lt
    have hclaimed := p.anyClaimed_and_bit hsource
    dsimp only
    split
    · exact h
    · cases level with
      | true =>
        simp only [recomputeReady, if_true]
        refine h.change hsource.toNat_ne (fun j hj => ⟨?_, ?_, fun _ => rfl⟩) ?_
          (h.disjoint id.toNat)
        · split
          · rw [BitMask.getLsbD_or_bit _ hlt, if_neg hj]
          · rfl
        · rw [BitMask.getLsbD_or_bit _ hlt, if_neg hj]
        · by_cases hfree : p.anyClaimed &&& ((1 : U32) <<< id.toNat) = 0
          · -- An unclaimed source becomes pending with its level.
            simp only [if_pos hfree, BitMask.getLsbD_or_bit _ hlt, if_true, true_and, true_iff]
            exact hclaimed.mp hfree
          · -- A claimed one stays not pending.
            rw [if_neg hfree, h.pending]
            exact ⟨fun hp => absurd (hclaimed.mpr hp.2) hfree,
              fun hp => absurd (hclaimed.mpr hp.2) hfree⟩
      | false =>
        refine h.change hsource.toNat_ne (fun j hj => ⟨?_, ?_, fun _ => rfl⟩) ?_
          (h.disjoint id.toNat)
        · exact (BitMask.getLsbD_and_not_bit _ hlt j).trans (if_neg hj)
        · exact (BitMask.getLsbD_and_not_bit _ hlt j).trans (if_neg hj)
        · simp [recomputeReady, hlt]

/-- The claimed sets after the set of one context has changed. -/
theorem getLsbD_claimed_update (claimed : Fin 2 → U32) (ctx other : Fin 2) (mask : U32) (j : Nat) :
    (Function.update claimed ctx mask other).getLsbD j =
      if other = ctx then mask.getLsbD j else (claimed other).getLsbD j := by
  by_cases hother : other = ctx
  · subst hother
    rw [Function.update_self, if_pos rfl]
  · rw [Function.update_of_ne hother, if_neg hother]

/-- A claim moves its source from the pending to the claimed ones. -/
theorem consistent_claim (h : Consistent p.toPlicRegs) (ctx : Fin 2) :
    Consistent (p.claim ctx).2.toPlicRegs := by
  rcases best_spec ctx h.pending_zero with ⟨hnone, -⟩ | ⟨hne, hbest⟩
  · simpa [claim, hnone] using h
  · have hlt : (p.best ctx).val < 32 := (p.best ctx).isLt
    -- A pending source is held by nobody.
    have hfree := ((h.pending (p.best ctx)).mp hbest.1.1).2
    have hclaimed : ∀ other j,
        ((Function.update p.claimed ctx (p.claimed ctx ||| ((1 : U32) <<< (p.best ctx).val)))
          other).getLsbD j =
        if other = ctx ∧ j = (p.best ctx).val then true else (p.claimed other).getLsbD j := by
      intro other j
      rw [getLsbD_claimed_update, BitMask.getLsbD_or_bit _ hlt]
      by_cases hother : other = ctx <;> simp [hother]
    simp only [claim, hne, ne_eq, not_false_eq_true, if_true, recomputeReady]
    refine h.change (fun hzero => hne (Fin.ext hzero)) (fun j hj => ⟨?_, rfl, fun other => ?_⟩) ?_
      fun c c' => ?_
    · rw [BitMask.getLsbD_and_not_bit _ hlt, if_neg hj]
    · rw [hclaimed, if_neg fun hat => hj hat.2]
    · simp only [BitMask.getLsbD_and_not_bit _ hlt, hclaimed, and_true]
      exact ⟨nofun, fun hall => absurd (hall.2 ctx) (by simp)⟩
    · simp only [hclaimed, hfree, and_true, Bool.if_false_right, Bool.and_true,
        decide_eq_true_eq]
      exact fun hc hc' => hc.trans hc'.symm

/-- Only the context that holds a claim completes it. -/
theorem complete_eq_self {ctx : Fin 2}
    (h : ¬ (IsSource id ∧ (p.claimed ctx).getLsbD id.toNat = true)) : p.complete ctx id = p := by
  unfold complete
  by_cases hid : id = 0 ∨ 32 ≤ id
  · rw [if_pos hid]
  · have hsource := isSource_of_not hid
    have hfree : (p.claimed ctx).getLsbD id.toNat = false :=
      Bool.not_eq_true _ ▸ fun hb => h ⟨hsource, hb⟩
    rw [if_neg hid]
    exact if_pos ((BitMask.and_bit_eq_zero_iff _ hsource.toNat_lt).mpr hfree)

section

variable (h : Consistent p.toPlicRegs)

include h

/-- A completed source is pending again if its line is still high. -/
theorem consistent_complete (ctx : Fin 2) (id : U32) :
    Consistent (p.complete ctx id).toPlicRegs := by
  by_cases hheld : IsSource id ∧ (p.claimed ctx).getLsbD id.toNat = true
  · obtain ⟨hsource, hbit⟩ := hheld
    have hlt := hsource.toNat_lt
    have hclaimed : ∀ other j,
        ((Function.update p.claimed ctx (p.claimed ctx &&& ~~~((1 : U32) <<< id.toNat)))
          other).getLsbD j =
        if other = ctx ∧ j = id.toNat then false else (p.claimed other).getLsbD j := by
      intro other j
      rw [getLsbD_claimed_update, BitMask.getLsbD_and_not_bit _ hlt]
      by_cases hother : other = ctx <;> simp [hother]
    -- Nobody else holds the source, so it is free afterwards.
    have hfree : ∀ other, (if other = ctx then false else (p.claimed other).getLsbD id.toNat) =
        false := by
      intro other
      split
      next => rfl
      next hne =>
        by_contra hb
        exact hne (h.disjoint id.toNat other ctx (by simpa using hb) hbit)
    have hvalid : ¬ (id = 0 ∨ 32 ≤ id) := by
      rintro (rfl | hge)
      · exact hsource.1 rfl
      · exact absurd hsource.2 (BitVec.not_lt.mpr hge)
    have hholds : p.claimed ctx &&& ((1 : U32) <<< id.toNat) ≠ 0 := by
      rw [Ne, BitMask.and_bit_eq_zero_iff _ hlt, hbit]
      exact Bool.noConfusion
    simp only [complete, hvalid, hholds, if_false, recomputeReady]
    refine h.change hsource.toNat_ne (fun j hj => ⟨?_, rfl, fun other => ?_⟩) ?_ fun c c' hc => ?_
    · split
      · rw [BitMask.getLsbD_or_bit _ hlt, if_neg hj]
      · rfl
    · rw [hclaimed, if_neg fun hat => hj hat.2]
    · have hlevel := BitMask.and_bit_eq_zero_iff p.level hlt
      simp only [hclaimed, and_true, hfree, implies_true]
      split
      next hhigh =>
        rw [BitMask.getLsbD_or_bit _ hlt, if_pos rfl]
        simpa using mt hlevel.mpr hhigh
      next hlow =>
        rw [h.pending, hlevel.mp (not_not.mp hlow)]
        simp
    · simp only [hclaimed, and_true, hfree] at hc
      cases hc
  · rw [complete_eq_self hheld]
    exact h

theorem consistent_readReg (offset : Nat) : Consistent (p.readReg offset).2.toPlicRegs := by
  unfold readReg
  dsimp only
  -- Every register but the claim register is read without effect.
  split
  · split <;> exact h
  · split
    · exact h
    · split
      · exact h
      · split
        · split
          · split <;> exact h
          · exact h
        · split
          · split
            · exact h
            · split
              · exact consistent_claim h _
              · exact h
          · exact h

theorem consistent_written (offset : Nat) (val : U32) :
    Consistent (p.written offset val).toPlicRegs := by
  -- Priorities, enables and thresholds are not part of the invariant.
  have hregs : ∀ priority enable threshold, Consistent { p.toPlicRegs with
      priority := priority, enable := enable, threshold := threshold } :=
    fun _ _ _ => ⟨h.pending, h.disjoint, h.level_zero, h.claimed_zero⟩
  unfold written
  dsimp only
  split
  · split
    · exact hregs _ p.enable p.threshold
    · exact h
  · split
    · exact h
    · split
      · split
        · split
          · exact hregs p.priority _ p.threshold
          · exact h
        · exact h
      · split
        · split
          · exact hregs p.priority p.enable _
          · split
            · exact consistent_complete h _ val
            · exact h
        · exact h

theorem consistent_apply (op : Op) : Consistent (p.apply op).toPlicRegs := by
  cases op with
  | setIrq id level => exact consistent_setIrq h id level
  | read offset size => exact consistent_readReg h offset.toNat
  | write offset val size => exact consistent_written h offset.toNat (val.setWidth 32)

end

theorem consistent_new : Consistent new.toPlicRegs :=
  ⟨fun j => by simp [new], fun j ctx ctx' hc => by simp [new] at hc, by decide, by decide⟩

theorem consistent_after (ops : List Op) : Consistent (after ops).toPlicRegs := by
  exact List.foldlRecOn (motive := fun p : Plic => Consistent p.toPlicRegs) ops apply
    consistent_new fun p hp op _ => consistent_apply hp op

/-! ## The protocol -/

/-- What the controller promises between operations. -/
structure Protocol (p : Plic) : Prop where
  pending_eq : p.pending = p.level &&& ~~~(p.claimed 0 ||| p.claimed 1)
  claimed_disjoint : p.claimed 0 &&& p.claimed 1 = 0
  source_zero : p.pending.getLsbD 0 = false ∧ ∀ ctx, (p.claimed ctx).getLsbD 0 = false
  eip_iff_claim : ∀ ctx, p.eip ctx = true ↔ p.claimRead ctx ≠ 0
  claim_best : ∀ ctx : Fin 2, p.claimRead ctx ≠ 0 →
    ∃ id, p.claimRead ctx = BitVec.ofNat 32 id.val ∧ p.IsBest ctx id
  claim_some : ∀ (ctx : Fin 2) id, p.Claimable ctx id → p.claimRead ctx ≠ 0
  complete_owned : ∀ ctx val, p.written (claimOffset ctx) val ≠ p →
    ∃ h : ctx < 2, (p.claimed ⟨ctx, h⟩).getLsbD val.toNat = true

/-- A claim read returns the number of the source the search finds. -/
theorem claimRead_eq (p : Plic) (ctx : Fin 2) :
    p.claimRead ctx = BitVec.ofNat 32 (p.best ctx).val := by
  rw [claimRead, readReg_claimOffset, dif_pos ctx.isLt]
  exact p.claim_fst ctx

theorem claimRead_ne_zero_iff (p : Plic) (ctx : Fin 2) : p.claimRead ctx ≠ 0 ↔ p.best ctx ≠ 0 := by
  rw [claimRead_eq, Ne, Ne, ← BitVec.toNat_inj, BitVec.toNat_ofNat, Fin.ext_iff,
    Nat.mod_eq_of_lt (Nat.lt_of_lt_of_le (p.best ctx).isLt (by decide))]
  rfl

theorem eip_iff_claimRead (h : Consistent p.toPlicRegs) (ctx : Nat) :
    p.eip ctx = true ↔ p.claimRead ctx ≠ 0 := by
  by_cases hctx : ctx < 2
  · have heip := p.eip_iff ⟨ctx, hctx⟩
    have hread := p.claimRead_ne_zero_iff ⟨ctx, hctx⟩
    rw [heip, hread]
    rcases best_spec ⟨ctx, hctx⟩ h.pending_zero with ⟨hnone, hall⟩ | ⟨hne, hbest⟩
    · exact ⟨fun hex => absurd hex.choose_spec (hall _), fun hne => absurd hnone hne⟩
    · exact ⟨fun _ => hne, fun _ => ⟨_, hbest.1⟩⟩
  · -- There is no such context: no interrupt, and its register reads as zero.
    rw [claimRead, readReg_claimOffset, dif_neg hctx]
    simp [eip, NUM_CONTEXTS, hctx]

/-- The protocol holds after every sequence of operations from reset. -/
theorem protocol_after (ops : List Op) : Protocol (after ops) := by
  have h := consistent_after ops
  refine ⟨h.pending_eq, h.claimed_disjoint, ⟨h.pending_zero, h.claimed_zero⟩,
    eip_iff_claimRead h, ?_, ?_, ?_⟩
  · intro ctx hclaim
    rcases best_spec ctx h.pending_zero with ⟨hnone, -⟩ | ⟨-, hbest⟩
    · exact absurd hnone ((claimRead_ne_zero_iff _ ctx).mp hclaim)
    · exact ⟨_, claimRead_eq _ ctx, hbest⟩
  · intro ctx id hid
    rcases best_spec ctx h.pending_zero with ⟨-, hall⟩ | ⟨hne, -⟩
    · exact absurd hid (hall id)
    · exact (claimRead_ne_zero_iff _ ctx).mpr hne
  · intro ctx val hchanged
    rw [written_claimOffset] at hchanged
    by_cases hctx : ctx < 2
    · rw [dif_pos hctx] at hchanged
      refine ⟨hctx, ?_⟩
      by_contra hfree
      exact hchanged (complete_eq_self fun hheld => hfree hheld.2)
    · rw [dif_neg hctx] at hchanged
      exact absurd rfl hchanged

end Plic

end EmulateComputer

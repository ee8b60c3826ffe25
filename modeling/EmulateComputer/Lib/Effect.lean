import Mathlib.Order.Defs.Unbundled
import Mathlib.Logic.Function.Basic

/-!
# Effect — frame rules for fallible state transformers

`EStateM ε σ α` is the monad of programs over a state `σ` that may fail with an `ε` and whose
state *survives* a failure, exactly as the targets of `&mut` references do when a function
returns an error.

This file provides, over arbitrary state and error types:

* `Effect.zoom`, running a program on a part of a larger state;
* `Effect.Keeps R x` — every run of `x`, successful or not, moves its state along `R`;
* `Effect.Post x s Q E` — the outcome of `x` from `s` satisfies `Q` on success, `E` on failure;
* `Effect.Answers P x` — every answer of `x` satisfies `P`.

Each notion comes with one rule per monadic operation, so that a statement about a long program
is assembled from statements about its primitive steps.
-/

namespace EStateM.Result

variable {ε σ α : Type}

/-- The state a run ends in, whether or not it failed. -/
def state : EStateM.Result ε σ α → σ
  | .ok _ s => s
  | .error _ s => s

@[simp] theorem state_ok (a : α) (s : σ) :
    (EStateM.Result.ok a s : EStateM.Result ε σ α).state = s :=
  rfl

@[simp] theorem state_error (e : ε) (s : σ) :
    (EStateM.Result.error e s : EStateM.Result ε σ α).state = s :=
  rfl

end EStateM.Result

namespace Effect

variable {ε ε' σ τ α β : Type}

/-! ## Running the monadic operations -/

@[simp] theorem run_pure (a : α) (s : σ) : (pure a : EStateM ε σ α) s = .ok a s :=
  rfl

@[simp] theorem run_throw (e : ε) (s : σ) : (throw e : EStateM ε σ α) s = .error e s :=
  rfl

@[simp] theorem run_get (s : σ) : (get : EStateM ε σ σ) s = .ok s s :=
  rfl

@[simp] theorem run_modify (f : σ → σ) (s : σ) : (modify f : EStateM ε σ PUnit) s = .ok ⟨⟩ (f s) :=
  rfl

theorem run_bind (x : EStateM ε σ α) (f : α → EStateM ε σ β) (s : σ) :
    (x >>= f) s =
      match x s with
      | .ok a t => f a t
      | .error e t => .error e t :=
  rfl

variable {x y : EStateM ε σ α} {s t : σ} {f : α → EStateM ε σ β}

theorem run_bind_ok {a : α} (h : x s = .ok a t) : (x >>= f) s = f a t := by
  rw [run_bind, h]

theorem run_bind_error {e : ε} (h : x s = .error e t) : (x >>= f) s = .error e t := by
  rw [run_bind, h]

/-- Run a program on the part of the state that `get` reads and `put` replaces, renaming its
failures by `err`. -/
def zoom (get : σ → τ) (put : τ → σ → σ) (err : ε → ε') (x : EStateM ε τ α) :
    EStateM ε' σ α := fun s =>
  match x (get s) with
  | .ok a t => .ok a (put t s)
  | .error e t => .error (err e) (put t s)

def mapError (err : ε → ε') (x : EStateM ε σ α) : EStateM ε' σ α :=
  zoom id (fun t _ => t) err x

def ofOption (e : ε) : Option α → EStateM ε σ α
  | some a => pure a
  | none => throw e

/-- Turn failure into the answer `none`, keeping the state it left. -/
def attempt (x : EStateM ε σ α) : EStateM ε' σ (Option α) := fun s =>
  match x s with
  | .ok a t => .ok (some a) t
  | .error _ t => .ok none t

/-! ## Frames -/

/-- `x` moves its state along `R`, whether it succeeds or fails. -/
def Keeps (R : σ → σ → Prop) (x : EStateM ε σ α) : Prop :=
  ∀ s, R s (x s).state

section Keeps

variable {R : σ → σ → Prop}

theorem keeps_pure [Std.Refl R] (a : α) : Keeps R (pure a : EStateM ε σ α) :=
  fun s => refl_of R s

theorem keeps_throw [Std.Refl R] (e : ε) : Keeps R (throw e : EStateM ε σ α) :=
  fun s => refl_of R s

theorem keeps_get [Std.Refl R] : Keeps R (get : EStateM ε σ σ) :=
  fun s => refl_of R s

theorem keeps_modify {f : σ → σ} (h : ∀ s, R s (f s)) : Keeps R (modify f : EStateM ε σ PUnit) :=
  h

theorem keeps_bind [IsTrans σ R] (hx : Keeps R x)
    (hf : ∀ a, Keeps R (f a)) : Keeps R (x >>= f) := by
  intro s
  have hs := hx s
  rw [run_bind]
  cases h : x s with
  | ok a t =>
    rw [h] at hs
    exact trans_of R hs (hf a t)
  | error e t =>
    rw [h] at hs
    exact hs

theorem keeps_map {f : α → β} (hx : Keeps R x) : Keeps R (f <$> x) := by
  intro s
  have hs := hx s
  change R s (EStateM.map f x s).state
  unfold EStateM.map
  cases h : x s with
  | ok a t | error e t => simpa [h] using hs

theorem keeps_ite {c : Prop} [Decidable c] (hx : c → Keeps R x)
    (hy : ¬ c → Keeps R y) : Keeps R (if c then x else y) := by
  split
  · exact hx ‹_›
  · exact hy ‹_›

variable {err : ε → ε'} {put : τ → σ → σ} {get : σ → τ}

theorem keeps_zoom {x : EStateM ε τ α} {S : τ → τ → Prop} (hx : Keeps S x)
    (h : ∀ s t, S (get s) t → R s (put t s)) : Keeps R (zoom get put err x) := by
  intro s
  have hs := hx (get s)
  unfold zoom
  cases hr : x (get s) with
  | ok a t | error e t => simpa using h s t (by simpa [hr] using hs)

/-- Nothing is asked of the part where any change of it will do. -/
theorem keeps_zoom_any {x : EStateM ε τ α}
    (h : ∀ s t, R s (put t s)) : Keeps R (zoom get put err x) :=
  keeps_zoom (S := fun _ _ => True) (fun _ => trivial) fun s t _ => h s t

theorem keeps_mapError (hx : Keeps R x) : Keeps R (mapError err x) :=
  keeps_zoom hx fun _ _ h => h

theorem keeps_ofOption [Std.Refl R] (e : ε) (o : Option α) :
    Keeps R (ofOption e o : EStateM ε σ α) := by
  cases o with
  | none => exact keeps_throw e
  | some a => exact keeps_pure a

theorem keeps_attempt (hx : Keeps R x) : Keeps R (attempt x : EStateM ε' σ (Option α)) := by
  intro s
  have hs := hx s
  unfold attempt
  cases h : x s with
  | ok a t | error e t => simpa [h] using hs

end Keeps

/-! ## Failing -/

/-- `x` fails from `s`. -/
def fails (x : EStateM ε σ α) (s : σ) : Bool :=
  match x s with
  | .ok _ _ => false
  | .error _ _ => true

@[simp] theorem fails_pure (a : α) (s : σ) : fails (pure a : EStateM ε σ α) s = false :=
  rfl

@[simp] theorem fails_throw (e : ε) (s : σ) : fails (throw e : EStateM ε σ α) s = true :=
  rfl

@[simp] theorem fails_modify (f : σ → σ) (s : σ) : fails (modify f : EStateM ε σ PUnit) s = false :=
  rfl

@[simp] theorem fails_zoom (get : σ → τ) (put : τ → σ → σ) (err : ε → ε') (x : EStateM ε τ α)
    (s : σ) : fails (zoom get put err x) s = fails x (get s) := by
  unfold fails zoom
  cases x (get s) <;> rfl

theorem fails_modify_bind (f : σ → σ) (x : EStateM ε σ α) (s : σ) :
    fails (do modify f; x) s = fails x (f s) :=
  rfl

variable {c : Prop}

theorem fails_ite [Decidable c] (x y : EStateM ε σ α) (s : σ) :
    fails (if c then x else y) s = if c then fails x s else fails y s := by
  split <;> rfl

/-! ## Outcomes -/

/-- The outcome of `x` from `s`: `Q` holds of a success, `E` of a failure. -/
def Post (x : EStateM ε σ α) (s : σ) (Q : α → σ → Prop) (E : ε → σ → Prop) : Prop :=
  match x s with
  | .ok a t => Q a t
  | .error e t => E e t

section Post

variable {Q : α → σ → Prop} {E : ε → σ → Prop} {γ : Type}

theorem post_ok {a : α} (h : x s = .ok a t) : Post x s Q E ↔ Q a t := by
  simp [Post, h]

theorem post_error {e : ε} (h : x s = .error e t) : Post x s Q E ↔ E e t := by
  simp [Post, h]

theorem Post.mono {Q' : α → σ → Prop} {E' : ε → σ → Prop} (h : Post x s Q E)
    (hQ : ∀ a t, Q a t → Q' a t) (hE : ∀ e t, E e t → E' e t) : Post x s Q' E' := by
  unfold Post at *
  cases hx : x s with
  | ok a t => exact hQ _ _ (by simpa [hx] using h)
  | error e t => exact hE _ _ (by simpa [hx] using h)

/-- An outcome that decides a proposition either way decides it. -/
theorem Post.iff {P : Prop} (h : Post x s (fun a t => Q a t ↔ P) fun e t => E e t ↔ P) :
    Post x s Q E ↔ P := by
  unfold Post at h ⊢
  cases hx : x s with
  | ok a t | error e t => simpa [hx] using h

theorem post_bind {Q : β → σ → Prop}
    (h : Post x s (fun a t => Post (f a) t Q E) E) : Post (x >>= f) s Q E := by
  unfold Post at h ⊢
  rw [run_bind]
  cases hx : x s with
  | ok a t => simpa [hx, Post] using h
  | error e t => simpa [hx] using h

theorem post_get {f : σ → EStateM ε σ α} (h : Post (f s) s Q E) : Post (get >>= f) s Q E :=
  h

theorem post_modify {f : PUnit → EStateM ε σ α} {g : σ → σ} (h : Post (f ⟨⟩) (g s) Q E) :
    Post (modify g >>= f) s Q E :=
  h

theorem post_ofOption {f : γ → EStateM ε σ α} {e : ε} {o : Option γ}
    (hsome : ∀ a, o = some a → Post (f a) s Q E) (hnone : o = none → E e s) :
    Post (ofOption e o >>= f) s Q E := by
  cases o with
  | some a => exact hsome a rfl
  | none => exact hnone rfl

theorem post_ite [Decidable c] (hx : c → Post x s Q E)
    (hy : ¬ c → Post y s Q E) : Post (if c then x else y) s Q E := by
  split
  · exact hx ‹_›
  · exact hy ‹_›

theorem post_map {x : EStateM ε σ γ} {f : γ → α} (h : Post x s (fun a t => Q (f a) t) E) :
    Post (f <$> x) s Q E := by
  unfold Post at h ⊢
  change match EStateM.map f x s with
    | .ok a t => Q a t
    | .error e t => E e t
  unfold EStateM.map
  cases hx : x s with
  | ok a t | error e t => simpa [hx] using h

theorem post_mapError {err : ε → ε'} {E : ε' → σ → Prop} (h : Post x s Q fun e t => E (err e) t) :
    Post (mapError err x) s Q E := by
  unfold Post at h ⊢
  unfold mapError zoom
  cases hx : x s with
  | ok a t | error e t => simpa [hx] using h

/-- Trying a program turns both of its outcomes into a success. -/
theorem post_attempt {x : EStateM ε σ γ} {f : Option γ → EStateM ε' σ α} {E : ε' → σ → Prop}
    (h : Post x s (fun a t => Post (f (some a)) t Q E) fun _ t => Post (f none) t Q E) :
    Post (attempt x >>= f) s Q E := by
  unfold Post at h ⊢
  rw [run_bind]
  unfold attempt
  cases hx : x s with
  | ok a t | error e t => simpa [hx, Post] using h

theorem Post.of_keeps {R : σ → σ → Prop} (hx : Keeps R x) :
    Post x s (fun _ t => R s t) (fun _ t => R s t) := by
  have hs := hx s
  unfold Post
  cases h : x s with
  | ok a t | error e t => simpa [h] using hs

end Post

/-! ## Answers -/

/-- Every answer of `x` satisfies `P`; nothing is said of failures. -/
def Answers (P : α → Prop) (x : EStateM ε σ α) : Prop :=
  ∀ s, Post x s (fun a _ => P a) fun _ _ => True

section Answers

variable {P : α → Prop}

theorem answers_any (x : EStateM ε σ α) : Answers (fun _ => True) x := by
  intro s
  unfold Post
  cases x s with
  | ok a t | error e t => trivial

theorem answers_pure {a : α} (h : P a) : Answers P (pure a : EStateM ε σ α) :=
  fun _ => h

theorem answers_throw (e : ε) : Answers P (throw e : EStateM ε σ α) :=
  fun _ => trivial

variable {Q : β → Prop}

theorem answers_bind (hx : Answers P x) (hf : ∀ a, P a → Answers Q (f a)) : Answers Q (x >>= f) :=
  fun s => post_bind ((hx s).mono (fun a t ha => hf a ha t) fun _ _ h => h)

theorem answers_seq (hf : ∀ a, Answers Q (f a)) : Answers Q (x >>= f) :=
  answers_bind (answers_any x) fun a _ => hf a

theorem answers_dite [Decidable c] {x : c → EStateM ε σ α} {y : ¬ c → EStateM ε σ α}
    (hx : ∀ h, Answers P (x h)) (hy : ∀ h, Answers P (y h)) :
    Answers P (if h : c then x h else y h) := by
  split
  · exact hx _
  · exact hy _

theorem answers_ite [Decidable c] (hx : c → Answers P x)
    (hy : ¬ c → Answers P y) : Answers P (if c then x else y) :=
  answers_dite hx hy

end Answers

end Effect

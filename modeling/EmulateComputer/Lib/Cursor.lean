import EmulateComputer.Lib.Bytes
import EmulateComputer.Lib.Effect

/-!
# Cursor — checked readers over a byte string

A reader is a fallible program over a `Cursor`, a byte string with a position in it.

`Frames r bytes P` says that `r`, started anywhere in front of an initial segment of `bytes`,
succeeds only if they are all there, consumes exactly these bytes and returns an answer with `P`,
whatever surrounds them.  The rules below compose such statements along the structure of the
decoder: sequencing concatenates the consumed bytes.
-/

/-- A byte string and the position of the next byte to be read. -/
structure Cursor where
  data : List (BitVec 8)
  pos : Nat

namespace Cursor

variable {ε α β : Type}

def new (data : List (BitVec 8)) : Cursor :=
  ⟨data, 0⟩

def remaining (c : Cursor) : Nat :=
  c.data.length - c.pos

/-- The next `n` bytes, or the failure `err` if fewer are left. -/
def take (n : Nat) (err : Cursor → ε) :
    EStateM ε Cursor { bytes : List (BitVec 8) // bytes.length = n } := fun c =>
  if h : c.pos + n ≤ c.data.length then
    .ok ⟨(c.data.drop c.pos).take n, by
      simp only [List.length_take, List.length_drop]
      omega⟩ { c with pos := c.pos + n }
  else
    .error (err c) c

/-- Run `r` on each index from `i` on, `n` times, collecting the answers. -/
def readMany (r : Nat → EStateM ε Cursor α) :
    Nat → (n : Nat) → EStateM ε Cursor { l : List α // l.length = n }
  | _, 0 => pure ⟨[], rfl⟩
  | i, n + 1 => do
    let a ← r i
    let l ← readMany r (i + 1) n
    pure ⟨a :: l.1, congrArg (· + 1) l.2⟩

variable {bytes : List (BitVec 8)} {a : α} {r : EStateM ε Cursor α}

/-! ## Framing -/

/-- On an initial segment of `bytes` and what follows them, `r` succeeds only if `bytes` are all
there, and then it consumes exactly them and its answer satisfies `P`. -/
def Frames (r : EStateM ε Cursor α) (bytes : List (BitVec 8)) (P : α → Prop) : Prop :=
  ∀ before present after a c, present <+: bytes ++ after →
    r ⟨before ++ present, before.length⟩ = .ok a c →
      P a ∧ bytes <+: present ∧ c = ⟨before ++ present, before.length + bytes.length⟩

variable {f : α → EStateM ε Cursor β} {bytes' present : List (BitVec 8)} {P : α → Prop}
variable {Q : β → Prop}

theorem frames_pure (h : P a) : Frames (pure a : EStateM ε Cursor α) [] P := by
  intro before present after a' c _ hrun
  cases hrun
  exact ⟨h, List.nil_prefix, rfl⟩

theorem frames_throw (e : ε) (bytes : List (BitVec 8)) (P : α → Prop) :
    Frames (throw e : EStateM ε Cursor α) bytes P := by
  intro before present after a c _ hrun
  cases hrun

theorem frames_take {n : Nat} {err : Cursor → ε} (h : bytes.length = n) :
    Frames (take n err) bytes (·.1 = bytes) := by
  subst h
  intro before present after a c hpresent hrun
  unfold take at hrun
  split at hrun
  case isTrue hroom =>
    cases hrun
    have hlength : bytes.length ≤ present.length := by simpa using hroom
    have hbytes : bytes <+: present :=
      List.prefix_of_prefix_length_le (List.prefix_append _ _) hpresent hlength
    refine ⟨?_, hbytes, rfl⟩
    simpa using List.prefix_iff_eq_take.mp hbytes |>.symm
  case isFalse => cases hrun

theorem Frames.bind (hr : Frames r bytes P) (hf : ∀ a, P a → Frames (f a) bytes' Q) :
    Frames (r >>= f) (bytes ++ bytes') Q := by
  intro before present after b c hpresent hrun
  rw [List.append_assoc] at hpresent
  rw [Effect.run_bind] at hrun
  cases hfirst : r ⟨before ++ present, before.length⟩ with
  | error e t =>
    rw [hfirst] at hrun
    cases hrun
  | ok a t =>
    rw [hfirst] at hrun
    obtain ⟨ha, ⟨rest, rfl⟩, rfl⟩ := hr _ _ _ _ _ hpresent hfirst
    have hrest : rest <+: bytes' ++ after := (List.prefix_append_right_inj bytes).mp hpresent
    obtain ⟨hb, htail, rfl⟩ :=
      hf a ha (before ++ bytes) _ _ _ _ hrest (by simpa [List.append_assoc] using hrun)
    exact ⟨hb, (List.prefix_append_right_inj bytes).mpr htail, by
      simp [List.append_assoc, Nat.add_assoc]⟩

/-- A framed reader followed by one that consumes nothing. -/
theorem Frames.bind_nil (hr : Frames r bytes P) (hf : ∀ a, P a → Frames (f a) [] Q) :
    Frames (r >>= f) bytes Q := by
  simpa using hr.bind hf

/-- A check that consumes nothing, in front of a framed reader. -/
theorem Frames.nil_bind (hr : Frames r [] P) (hf : ∀ a, P a → Frames (f a) bytes Q) :
    Frames (r >>= f) bytes Q :=
  hr.bind hf

/-- A list of records, one after the other, of each of which a part is known. -/
theorem frames_readMany {encode : α → List (BitVec 8)} {r : EStateM ε Cursor β} {part : β → α}
    {as : List α} (h : ∀ a ∈ as, Frames r (encode a) (part · = a)) (i : Nat) :
    Frames (readMany (fun _ => r) i as.length) (as.flatMap encode) (·.1.map part = as) := by
  induction as generalizing i with
  | nil => exact frames_pure rfl
  | cons a as ih =>
    obtain ⟨hhead, htail⟩ := List.forall_mem_cons.mp h
    refine hhead.bind fun b hb => ?_
    exact (ih htail (i + 1)).bind_nil fun l hl => frames_pure (congrArg₂ List.cons hb hl)

/-- A framed reader fails on everything that was cut short. -/
theorem Frames.fails_of_cut (hr : Frames r bytes P) (hpresent : present <+: bytes)
    (hne : present ≠ bytes) : ∃ e c, r (new present) = .error e c := by
  cases hrun : r (new present) with
  | error e c => exact ⟨e, c, rfl⟩
  | ok a c =>
    obtain ⟨-, hbytes, -⟩ := hr [] present [] a c (by simpa using hpresent) hrun
    exact absurd (hpresent.eq_of_length_le hbytes.length_le) hne

/-! ## Reading -/

/-- In front of `bytes`, the reader consumes exactly them and its answer satisfies `P`. -/
def Reads (r : EStateM ε Cursor α) (bytes : List (BitVec 8)) (P : α → Prop) : Prop :=
  ∀ before after, ∃ a, P a ∧ r ⟨before ++ (bytes ++ after), before.length⟩ =
    .ok a ⟨before ++ (bytes ++ after), before.length + bytes.length⟩

theorem reads_pure (h : P a) : Reads (pure a : EStateM ε Cursor α) [] P :=
  fun _ _ => ⟨a, h, rfl⟩

theorem reads_take {n : Nat} {err : Cursor → ε} (h : bytes.length = n) :
    Reads (take n err) bytes (·.1 = bytes) := by
  intro before after
  subst h
  simp [take]

theorem Reads.bind (hr : Reads r bytes P) (hf : ∀ a, P a → Reads (f a) bytes' Q) :
    Reads (r >>= f) (bytes ++ bytes') Q := by
  intro before after
  obtain ⟨a, ha, hfirst⟩ := hr before (bytes' ++ after)
  obtain ⟨b, hb, hsecond⟩ := hf a ha (before ++ bytes) after
  refine ⟨b, hb, ?_⟩
  rw [List.append_assoc, Effect.run_bind_ok hfirst]
  simpa [List.append_assoc, Nat.add_assoc] using hsecond

theorem Reads.bind_nil (hr : Reads r bytes P) (hf : ∀ a, P a → Reads (f a) [] Q) :
    Reads (r >>= f) bytes Q := by
  simpa using hr.bind hf

theorem Reads.mono {P' : α → Prop} (hr : Reads r bytes P) (h : ∀ a, P a → P' a) :
    Reads r bytes P' := by
  intro before after
  obtain ⟨a, ha, hread⟩ := hr before after
  exact ⟨a, h a ha, hread⟩

/-- A list of records, one after the other. -/
theorem reads_readMany {encode : α → List (BitVec 8)} {as : List α}
    (h : ∀ a ∈ as, Reads r (encode a) (· = a)) (i : Nat) :
    Reads (readMany (fun _ => r) i as.length) (as.flatMap encode) (·.1 = as) := by
  induction as generalizing i with
  | nil => exact reads_pure rfl
  | cons a as ih =>
    obtain ⟨hhead, htail⟩ := List.forall_mem_cons.mp h
    refine hhead.bind fun b hb => ?_
    exact (ih htail (i + 1)).bind_nil fun l hl => reads_pure (congrArg₂ List.cons hb hl)

/-- The reader accepts all of `bytes` with an answer that passes `p`. -/
def accepts (r : EStateM ε Cursor α) (bytes : List (BitVec 8)) (p : α → Bool) : Bool :=
  match r (new bytes) with
  | .ok a c => c.remaining == 0 && p a
  | .error _ _ => false

theorem accepts_of_reads {p : α → Bool} (hr : Reads r bytes P) (hp : ∀ a, P a → p a = true) :
    accepts r bytes p = true := by
  obtain ⟨a, ha, hread⟩ := hr [] []
  simp only [List.nil_append, List.append_nil, List.length_nil, Nat.zero_add] at hread
  rw [accepts, new, hread]
  simp [remaining, hp a ha]

end Cursor

import Mathlib.Logic.Relation
import Mathlib.Tactic.TypeStar

/-!
# Credit — flow control by credit, for one direction of one channel

A sender may send as much as it has credit for; the receiver gives the credit back as it releases
what it holds.  An `Account` says where the credit of a window is: with the sender, with data in
flight, with data the receiver holds, or with grants in flight.  Every step moves an amount from
one place to the next, or lets it go (an end that forgets its count, a message that nobody reads).
So the four places together never hold more than the window, whatever the interleaving, and an
arriving message finds room.
-/

namespace Credit

/-- Where the credit of one window is. -/
structure Account where
  sender : Nat
  flight : Nat
  held : Nat
  grants : Nat

namespace Account

def total (a : Account) : Nat :=
  a.sender + a.flight + a.held + a.grants

variable {a b : Account} {n window : Nat}

/-- Data that is in flight finds room at the receiver. -/
theorem held_add_le (h : a.total ≤ window) (hn : n ≤ a.flight) : a.held + n ≤ window := by
  unfold total at h
  omega

/-- Credit that is in flight finds room at the sender. -/
theorem sender_add_le (h : a.total ≤ window) (hn : n ≤ a.grants) : a.sender + n ≤ window := by
  unfold total at h
  omega

end Account

/-- One move of credit, of an amount `n`. -/
inductive Step (a b : Account) : Prop
  | send (n : Nat) (sender : b.sender + n = a.sender) (flight : b.flight = a.flight + n)
      (held : b.held = a.held) (grants : b.grants = a.grants)
  | deliver (n : Nat) (sender : b.sender = a.sender) (flight : b.flight + n = a.flight)
      (held : b.held = a.held + n) (grants : b.grants = a.grants)
  | release (n : Nat) (sender : b.sender = a.sender) (flight : b.flight = a.flight)
      (held : b.held + n = a.held) (grants : b.grants = a.grants + n)
  | credit (n : Nat) (sender : b.sender = a.sender + n) (flight : b.flight = a.flight)
      (held : b.held = a.held) (grants : b.grants + n = a.grants)
  | forget (sender : b.sender ≤ a.sender) (flight : b.flight ≤ a.flight) (held : b.held ≤ a.held)
      (grants : b.grants ≤ a.grants)

/-- A sequence of moves. -/
abbrev Run : Account → Account → Prop :=
  Relation.ReflTransGen Step

theorem Step.total_le {a b : Account} (h : Step a b) : b.total ≤ a.total := by
  cases h <;> simp only [Account.total] <;> omega

/-- No interleaving makes credit. -/
theorem Run.total_le {a b : Account} (h : Run a b) : b.total ≤ a.total := by
  induction h with
  | refl => exact Nat.le_refl _
  | tail _ hstep ih => exact Nat.le_trans hstep.total_le ih

end Credit

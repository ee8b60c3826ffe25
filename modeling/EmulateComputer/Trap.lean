import Mathlib.Algebra.GroupWithZero.Nat

/-!
# Trap — machine words, privilege modes, exceptions and interrupts

The cause codes and trap values of the privileged architecture, as the hart reports them, and
the masks of the `mip`/`mie` bits.
-/

namespace EmulateComputer

abbrev U8 := BitVec 8
abbrev U16 := BitVec 16
abbrev U32 := BitVec 32
abbrev U64 := BitVec 64

/-! Named, so that the literals of the index types are the same terms everywhere. -/

instance neZeroOne : NeZero 1 := ⟨by decide⟩
instance neZeroTwo : NeZero 2 := ⟨by decide⟩
instance neZeroRegs : NeZero 32 := ⟨by decide⟩

/-- `Result<α, ()>` of a function that takes a `&mut σ`: a failed access keeps the state it
reached. -/
abbrev Access (σ α : Type) := EStateM Unit σ α

/-- Privilege modes; the encodings are the ones stored in `mstatus.MPP`. -/
inductive Mode
  | user
  | supervisor
  | machine
  deriving DecidableEq, Repr

namespace Mode

/-- `mode as u64`. -/
def bits : Mode → U64
  | user => 0
  | supervisor => 1
  | machine => 3

/-- Only the encodings 1 and 3 select elevated privilege. -/
def fromBits (v : U64) : Mode :=
  if v = 1 then supervisor else if v = 3 then machine else user

/-- `self <= other` of the derived `PartialOrd`. -/
def le (m m' : Mode) : Prop :=
  m.bits ≤ m'.bits

instance (m m' : Mode) : Decidable (m.le m') :=
  inferInstanceAs (Decidable (m.bits ≤ m'.bits))

end Mode

inductive Exception
  | instructionAddressMisaligned (tval : U64)
  | instructionAccessFault (tval : U64)
  | illegalInstruction (tval : U64)
  | breakpoint (tval : U64)
  | loadAddressMisaligned (tval : U64)
  | loadAccessFault (tval : U64)
  | storeAddressMisaligned (tval : U64)
  | storeAccessFault (tval : U64)
  | environmentCallFromU
  | environmentCallFromS
  | environmentCallFromM
  | instructionPageFault (tval : U64)
  | loadPageFault (tval : U64)
  | storePageFault (tval : U64)
  deriving DecidableEq, Repr

namespace Exception

def cause : Exception → U64
  | instructionAddressMisaligned _ => 0
  | instructionAccessFault _ => 1
  | illegalInstruction _ => 2
  | breakpoint _ => 3
  | loadAddressMisaligned _ => 4
  | loadAccessFault _ => 5
  | storeAddressMisaligned _ => 6
  | storeAccessFault _ => 7
  | environmentCallFromU => 8
  | environmentCallFromS => 9
  | environmentCallFromM => 11
  | instructionPageFault _ => 12
  | loadPageFault _ => 13
  | storePageFault _ => 15

def tval : Exception → U64
  | instructionAddressMisaligned v | instructionAccessFault v | illegalInstruction v
  | breakpoint v | loadAddressMisaligned v | loadAccessFault v | storeAddressMisaligned v
  | storeAccessFault v | instructionPageFault v | loadPageFault v | storePageFault v => v
  | environmentCallFromU | environmentCallFromS | environmentCallFromM => 0

end Exception

inductive Interrupt
  | supervisorSoftware
  | machineSoftware
  | supervisorTimer
  | machineTimer
  | supervisorExternal
  | machineExternal
  deriving DecidableEq, Repr

namespace Interrupt

/-- The discriminant: cause code and `mip` bit index. -/
def number : Interrupt → Nat
  | supervisorSoftware => 1
  | machineSoftware => 3
  | supervisorTimer => 5
  | machineTimer => 7
  | supervisorExternal => 9
  | machineExternal => 11

def cause (i : Interrupt) : U64 :=
  ((1 : U64) <<< 63) ||| BitVec.ofNat 64 i.number

def bit (i : Interrupt) : U64 :=
  (1 : U64) <<< i.number

end Interrupt

/-! ## Bits of `mip` and `mie` -/

namespace Irq

def SSIP : U64 := (1 : U64) <<< 1
def MSIP : U64 := (1 : U64) <<< 3
def STIP : U64 := (1 : U64) <<< 5
def MTIP : U64 := (1 : U64) <<< 7
def SEIP : U64 := (1 : U64) <<< 9
def MEIP : U64 := (1 : U64) <<< 11

end Irq

end EmulateComputer

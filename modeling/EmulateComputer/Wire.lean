import EmulateComputer.Lib.Cursor
import EmulateComputer.Trap

/-!
# Wire — the byte writer and reader of the snapshot container

A `Writer` only ever appends, so each of its operations is modelled by the bytes it appends.
A `Reader` is a checked cursor; its operations fail with the source's texts.  Every section is
`u16 version | u32 body length | body`, and its body must be consumed exactly.
-/

namespace EmulateComputer

/-! ## Writer -/

namespace Writer

def u8 (v : U8) : List U8 :=
  [v]

def bool (v : Bool) : List U8 :=
  [if v then 1 else 0]

def u16 (v : U16) : List U8 :=
  Bytes.toLE 2 v

def u32 (v : U32) : List U8 :=
  Bytes.toLE 4 v

def u64 (v : U64) : List U8 :=
  Bytes.toLE 8 v

/-- Length-prefixed bytes; the `u32` count is truncated as by `as u32`. -/
def bytes (bs : List U8) : List U8 :=
  u32 (BitVec.ofNat 32 bs.length) ++ bs

def utf8 (value : String) : List U8 :=
  value.toByteArray.data.toList.map UInt8.toBitVec

def string (value : String) : List U8 :=
  bytes (utf8 value)

/-- `Writer::section`: version, body length and body. -/
def sectionOf (version : U16) (body : List U8) : List U8 :=
  u16 version ++ (u32 (BitVec.ofNat 32 body.length) ++ body)

end Writer

/-! ## Reader -/

abbrev Reader := Cursor

abbrev Read (α : Type) := EStateM String Reader α

namespace Reader

/-- A `usize` sum that overflows is reported as such; it is past the end of any slice. -/
def take (n : Nat) : Read { bytes : List U8 // bytes.length = n } :=
  Cursor.take n fun r =>
    if r.pos + n < 2 ^ 64 then
      "snapshot: truncated (wanted " ++ toString n ++ " bytes at " ++ toString r.pos ++ ")"
    else
      "snapshot: length overflow"

def word (w n : Nat) : Read (BitVec w) := do
  let b ← take n
  pure (Bytes.ofLE w b.1)

def u8 : Read U8 :=
  word 8 1

def bool : Read Bool := do
  let v ← u8
  if v = 0 then
    pure false
  else if v = 1 then
    pure true
  else
    throw ("snapshot: " ++ toString v.toNat ++ " is not a boolean")

def u16 : Read U16 :=
  word 16 2

def u32 : Read U32 :=
  word 32 4

def u64 : Read U64 :=
  word 64 8

def raw (n : Nat) : Read { bytes : List U8 // bytes.length = n } :=
  take n

def bytes : Read (List U8) := do
  let len ← u32
  let bs ← take len.toNat
  pure bs.1

def string : Read String := do
  let bs ← bytes
  match String.fromUTF8? ⟨(bs.map UInt8.ofBitVec).toArray⟩ with
  | some value => pure value
  | none => throw "snapshot: invalid UTF-8"

/-- `Reader::section`: check the version, hand the body to `body` as its own reader, and insist
that it consumes it exactly. -/
def readSection {α : Type} (name : String) (expectedVersion : U16) (body : Read α) : Read α := do
  let version ← u16
  if version ≠ expectedVersion then
    throw ("snapshot: " ++ name ++ " section is version " ++ toString version.toNat ++
      ", this build reads " ++ toString expectedVersion.toNat)
  else
    let len ← u32
    let bs ← take len.toNat
    match body (Cursor.new bs.1) with
    | .error why _ => throw ("snapshot: " ++ name ++ ": " ++ why)
    | .ok value inner =>
      if inner.remaining ≠ 0 then
        throw ("snapshot: " ++ name ++ " section has " ++ toString inner.remaining ++
          " unread trailing bytes")
      else
        pure value

end Reader

end EmulateComputer

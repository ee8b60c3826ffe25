import EmulateComputer.Trap
import EmulateComputer.Hostnet.Text
import EmulateComputer.Lib.Bytes
import EmulateComputer.Lib.Decimal

/-!
# MuxProtocol — the frames of one multiplexed WebSocket

A data frame is a big-endian channel id and then bytes; a control frame is a channel id in decimal,
a space and a command.  The relay decodes with the functions here, and both ends write frames in
this form, so the facts below say that what is written is read back as it was meant.
-/

namespace EmulateComputer

/-- What crosses the WebSocket: a text or some bytes. -/
inductive Frame
  | text (text : String)
  | binary (bytes : List U8)
  deriving DecidableEq

namespace Mux

def MUX_WINDOW : Nat := 256 * 1024

def MUX_FRAME : Nat := 64 * 1024

def MUX_SOCKET_BUFFER : Nat := 1024 * 1024

def encodeData (id : Nat) (data : List U8) : List U8 :=
  Bytes.toBE 4 (BitVec.ofNat 32 id) ++ data

def decodeData (frame : List U8) : Except String (Nat × List U8) :=
  if frame.length < 5 ∨ MUX_FRAME + 4 < frame.length then .error "invalid data frame"
  else
    let id := (Bytes.ofBE 32 (frame.take 4)).toNat
    if id = 0 then .error "invalid channel" else .ok (id, frame.drop 4)

/-- The text that carries a command for a channel. -/
def address (id : Nat) (command : String) : String :=
  s!"{id} {command}"

/-- The regular expression is `^([1-9][0-9]*) (.+)$`. -/
def decodeControl (text : List Char) : Except String (Nat × List Char) :=
  if 4096 < Text.utf16Length text then .error "control frame too large"
  else
    match Decimal.positive (text.takeWhile Char.isDigit), text.dropWhile Char.isDigit with
    | some id, ' ' :: command =>
      if command = [] ∨ command.any Text.isLineTerminator then .error "invalid control frame"
      else if 0xffffffff < id then .error "invalid channel"
      else .ok (id, command)
    | _, _ => .error "invalid control frame"

/-- The number after `word` and a space; `none` for another command. -/
def credit (command : List Char) (word : String) : Except String (Option Nat) :=
  match Text.stripPrefix (word ++ " ") command with
  | none => .ok none
  | some value =>
    match Decimal.positive value with
    | none => .error "invalid credit"
    | some bytes => if MUX_WINDOW < bytes then .error "invalid credit" else .ok (some bytes)

example : decodeControl "12 WINDOW 7".toList = .ok (12, "WINDOW 7".toList) := by decide
example : decodeControl "012 FIN".toList = .error "invalid control frame" := by decide
example : credit "WINDOW 7".toList "WINDOW" = .ok (some 7) := by decide

/-! ## What is written is read back -/

theorem length_encodeData (id : Nat) (data : List U8) :
    (encodeData id data).length = data.length + 4 := by
  rw [encodeData, List.length_append, Bytes.length_toBE, Nat.add_comm]

theorem split_encodeData {id : Nat} (hid : id < 2 ^ 32) (data : List U8) :
    (Bytes.ofBE 32 ((encodeData id data).take 4)).toNat = id ∧
      (encodeData id data).drop 4 = data := by
  have hlength := Bytes.length_toBE 4 (BitVec.ofNat 32 id)
  refine ⟨?_, List.drop_left' hlength⟩
  rw [encodeData, List.take_left' hlength, Bytes.ofBE_toBE 4 _ (by decide), BitVec.toNat_ofNat,
    Nat.mod_eq_of_lt hid]

/-- Data is decoded as it was addressed, or not at all. -/
theorem eq_of_decodeData_encodeData {id id' : Nat} {data data' : List U8} (hid : id < 2 ^ 32)
    (h : decodeData (encodeData id data) = .ok (id', data')) : id' = id ∧ data' = data := by
  obtain ⟨hword, htail⟩ := split_encodeData hid data
  unfold decodeData at h
  simp only [htail, hword] at h
  split_ifs at h
  cases h
  exact ⟨rfl, rfl⟩

theorem toList_address (id : Nat) (command : String) :
    (address id command).toList = Nat.toDigits 10 id ++ ' ' :: command.toList := by
  simp [address, toString, Nat.repr]

/-- A command is decoded as it was addressed, or not at all. -/
theorem eq_of_decodeControl_address {id id' : Nat} {command : String} {command' : List Char}
    (h : decodeControl (address id command).toList = .ok (id', command')) :
    id' = id ∧ command' = command.toList := by
  unfold decodeControl at h
  rw [toList_address, Decimal.takeWhile_toDigits (fun _ h => h) (by decide),
    Decimal.dropWhile_toDigits (fun _ h => h) (by decide), Decimal.positive_toDigits] at h
  by_cases hzero : id = 0
  · split at h <;> cases h
  · simp only [if_neg hzero] at h
    split_ifs at h
    cases h
    exact ⟨rfl, rfl⟩

theorem lt_of_decodeControl {text command : List Char} {id : Nat}
    (h : decodeControl text = .ok (id, command)) : id < 2 ^ 32 := by
  unfold decodeControl at h
  split at h
  · cases h
  · split at h
    · split_ifs at h
      cases h
      omega
    · cases h

end Mux

end EmulateComputer

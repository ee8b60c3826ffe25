import Mathlib.Data.List.DropRight
import Mathlib.Algebra.GroupWithZero.Nat

/-!
# Text — what the network code does with strings

The texts of the relay protocol and of its errors are taken apart character by character.  A text
is a list of characters here; the callers convert at their boundary.
-/

namespace EmulateComputer

namespace Text

/-- The characters with the Unicode property `White_Space`. -/
def isWhitespace (c : Char) : Bool :=
  (0x9 ≤ c.toNat && c.toNat ≤ 0xD) || (0x2000 ≤ c.toNat && c.toNat ≤ 0x200A) ||
    [0x20, 0x85, 0xA0, 0x1680, 0x2028, 0x2029, 0x202F, 0x205F, 0x3000].contains c.toNat

def trim (text : List Char) : List Char :=
  (text.dropWhile isWhitespace).rdropWhile isWhitespace

/-- Without the line ends at the end of the text. -/
def trimEndLines (text : List Char) : List Char :=
  text.rdropWhile fun c => c = '\r' || c = '\n'

def stripPrefix (start : String) (text : List Char) : Option (List Char) :=
  if start.toList.isPrefixOf text then some (text.drop start.toList.length) else none

def splitWhitespace (text : List Char) : List (List Char) :=
  (text.splitOnP isWhitespace).filter fun part => !part.isEmpty

def contains (text part : List Char) : Bool :=
  text.tails.any part.isPrefixOf

def digitsValue (digits : List Char) : Nat :=
  digits.foldl (fun n c => 10 * n + (c.toNat - '0'.toNat)) 0

def splitOnce (separator : Char) (text : List Char) : Option (List Char × List Char) :=
  match text.dropWhile (· ≠ separator) with
  | [] => none
  | _ :: rest => some (text.takeWhile (· ≠ separator), rest)

/-- The length of a text in UTF-16 code units. -/
def utf16Length (text : List Char) : Nat :=
  (text.map fun c => if c.toNat < 0x10000 then 1 else 2).sum

/-- The characters that `.` in a regular expression does not match. -/
def isLineTerminator (c : Char) : Bool :=
  [0xA, 0xD, 0x2028, 0x2029].contains c.toNat

theorem stripPrefix_eq_some_iff {start : String} {text rest : List Char} :
    stripPrefix start text = some rest ↔ text = start.toList ++ rest := by
  unfold stripPrefix
  split
  · next h =>
    obtain ⟨tail, rfl⟩ := List.isPrefixOf_iff_prefix.1 h
    rw [List.drop_left, Option.some.injEq, List.append_cancel_left_eq]
  · next h =>
    refine iff_of_false nofun fun heq => h ?_
    rw [heq]
    exact List.isPrefixOf_iff_prefix.2 (List.prefix_append _ _)

end Text

end EmulateComputer

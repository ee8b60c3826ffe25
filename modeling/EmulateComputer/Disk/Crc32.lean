import EmulateComputer.Lib.XorMaps
import EmulateComputer.Trap

/-!
# Crc32 — the checksum of disk records

`crc32` takes a byte at a time from a table.  The checksum itself is defined on bits: a register is
shifted by one for every bit of the message, the least significant bit of a byte first, and the
polynomial is added whenever the bit shifted out differs from that of the message.

Both ways to take in a byte respect exclusive or of register and byte together, so they agree if
they do on the words with a single bit.
-/

namespace EmulateComputer.Crc32

/-- The reflected polynomial of IEEE 802.3. -/
def POLYNOMIAL : U32 := 0xedb88320

def tableRound (crc : U32) : U32 :=
  (crc >>> 1) ^^^ (POLYNOMIAL &&& (0 - (crc &&& 1)))

def tableEntry (index : Nat) : U32 :=
  Nat.repeat tableRound 8 (BitVec.ofNat 32 index)

def CRC32_TABLE : List U32 :=
  (List.range 256).map tableEntry

def lookupByte (crc : U32) (byte : U8) : U32 :=
  (crc >>> 8) ^^^ CRC32_TABLE[((crc ^^^ byte.setWidth 32) &&& 0xff).toNat]?.getD 0

def crc32 (bytes : List U8) : U32 :=
  ~~~(bytes.foldl lookupByte (BitVec.allOnes 32))

/-! ## Bit by bit -/

def bitStep (crc : U32) (bit : Bool) : U32 :=
  (crc >>> 1) ^^^ if crc.getLsbD 0 ^^ bit then POLYNOMIAL else 0

/-- Take the low `n` bits of a byte in, the least significant one first. -/
def bitSteps (crc : U32) (byte : U8) (n : Nat) : U32 :=
  (List.range n).foldl (fun crc i => bitStep crc (byte.getLsbD i)) crc

def bitwiseCrc32 (bytes : List U8) : U32 :=
  ~~~(bytes.foldl (fun crc byte => bitSteps crc byte 8) (BitVec.allOnes 32))

theorem bitStep_xor (c d : U32) (a b : Bool) :
    bitStep (c ^^^ d) (a ^^ b) = bitStep c a ^^^ bitStep d b := by
  have hadd : ∀ x y a b : Bool, (if (x ^^ y) ^^ (a ^^ b) then POLYNOMIAL else 0) =
      (if x ^^ a then POLYNOMIAL else 0) ^^^ (if y ^^ b then POLYNOMIAL else 0) := by
    decide
  unfold bitStep
  rw [BitVec.ushiftRight_xor_distrib, BitVec.getLsbD_xor, hadd]
  ac_rfl

theorem bitSteps_xor (c d : U32) (a b : U8) (n : Nat) :
    bitSteps (c ^^^ d) (a ^^^ b) n = bitSteps c a n ^^^ bitSteps d b n := by
  induction n with
  | zero => rfl
  | succ n ih =>
    simp only [bitSteps, List.range_succ, List.foldl_append, List.foldl_cons,
      List.foldl_nil] at ih ⊢
    rw [ih, BitVec.getLsbD_xor, bitStep_xor]

/-- A round of the table is a step of the register with no message. -/
theorem tableRound_eq (crc : U32) : tableRound crc = bitStep crc false := by
  unfold tableRound bitStep
  rw [Bool.xor_false, show crc &&& 1 = _ from BitVec.and_one_eq_setWidth_ofBool_getLsbD]
  cases crc.getLsbD 0 <;> rfl

theorem tableEntry_eq (crc : U32) : Nat.repeat tableRound 8 crc = bitSteps crc 0 8 := by
  simp only [Nat.repeat, tableRound_eq]
  rfl

theorem lookupByte_eq (crc : U32) (byte : U8) :
    lookupByte crc byte =
      (crc >>> 8) ^^^ bitSteps ((crc ^^^ byte.setWidth 32) &&& 0xff) 0 8 := by
  have hlt : ((crc ^^^ byte.setWidth 32) &&& 0xff).toNat < 256 :=
    Nat.lt_succ_of_le (BitVec.toNat_and _ _ ▸ Nat.and_le_right)
  rw [← tableEntry_eq, lookupByte, CRC32_TABLE, List.getElem?_map, List.getElem?_range hlt,
    Option.map_some, Option.getD_some, tableEntry, BitVec.ofNat_toNat, BitVec.setWidth_eq]

theorem lookupByte_xor (c d : U32) (a b : U8) :
    lookupByte (c ^^^ d) (a ^^^ b) = lookupByte c a ^^^ lookupByte d b := by
  have hsum : c ^^^ d ^^^ (a ^^^ b).setWidth 32 =
      (c ^^^ a.setWidth 32) ^^^ (d ^^^ b.setWidth 32) := by
    ac_rfl
  have hentry : ∀ x y : U32, bitSteps (x ^^^ y) 0 8 = bitSteps x 0 8 ^^^ bitSteps y 0 8 :=
    fun x y => bitSteps_xor x y 0 0 8
  simp only [lookupByte_eq]
  rw [hsum, XorMap.xor_and, hentry, BitVec.ushiftRight_xor_distrib]
  ac_rfl

/-- One lookup takes in the eight bits of a byte. -/
theorem lookupByte_eq_bitSteps (crc : U32) (byte : U8) :
    lookupByte crc byte = bitSteps crc byte 8 := by
  -- Register and byte as one word.
  have hbits := XorMap.eq_of_bits
    (f := fun w : BitVec 40 => lookupByte (w.extractLsb' 0 32) (w.extractLsb' 32 8))
    (g := fun w : BitVec 40 => bitSteps (w.extractLsb' 0 32) (w.extractLsb' 32 8) 8)
    (fun x y => by simp only [BitVec.extractLsb'_xor, lookupByte_xor])
    (fun x y => by simp only [BitVec.extractLsb'_xor, bitSteps_xor])
    (by decide +kernel) (byte ++ crc)
  simpa only [BitVec.extractLsb'_append_eq_left, BitVec.extractLsb'_append_eq_right] using hbits

/-- The table computes the checksum as it is defined. -/
theorem crc32_eq_bitwise (bytes : List U8) : crc32 bytes = bitwiseCrc32 bytes := by
  have hbyte : lookupByte = fun crc byte => bitSteps crc byte 8 := by
    funext crc byte
    exact lookupByte_eq_bitSteps crc byte
  rw [crc32, bitwiseCrc32, hbyte]

example : crc32 [0x31, 0x32, 0x33, 0x34, 0x35, 0x36, 0x37, 0x38, 0x39] = 0xcbf43926 := by
  decide +kernel

end EmulateComputer.Crc32

import EmulateComputer.Lib.Bytes
import EmulateComputer.Trap

/-!
# Bitmanip — bit-manipulation and scalar cryptography

The pure arithmetic behind the Zbb, Zbc, Zbkb, Zknd, Zkne and Zknh instructions.  Every result is
the full 64-bit value written to `rd`; the `w` forms sign-extend from bit 31.
-/

namespace EmulateComputer

inductive BitOp
  | andn | orn | xnor
  | max | maxu | min | minu
  | rol | ror | rolw | rorw
  | pack | packh | packw
  | clmul | clmulh | clmulr
  | aes64es | aes64esm | aes64ds | aes64dsm | aes64ks2
  deriving DecidableEq, Repr

inductive BitUnaryOp
  | clz | ctz | cpop | clzw | ctzw | cpopw
  | sextB | sextH | orcB | rev8 | brev8
  | aes64im
  | sha256sig0 | sha256sig1 | sha256sum0 | sha256sum1
  | sha512sig0 | sha512sig1 | sha512sum0 | sha512sum1
  deriving DecidableEq, Repr

inductive BitImmOp
  | rori | roriw | aes64ks1i
  deriving DecidableEq, Repr

namespace Bitmanip

/-! ## Zbb and Zbkb helpers -/

/-- Every non-zero byte becomes `0xff`. -/
def orcB (a : U64) : U64 :=
  let low7 : U64 := 0x7f7f7f7f7f7f7f7f
  let ones : U64 := 0x0101010101010101
  let flags := (((a &&& low7) + low7) ||| a) >>> 7
  (flags &&& ones) * 0xff

def brev8 (a : U64) : U64 :=
  let m1 : U64 := 0x5555555555555555
  let m2 : U64 := 0x3333333333333333
  let m4 : U64 := 0x0f0f0f0f0f0f0f0f
  let x := ((a &&& m1) <<< 1) ||| ((a >>> 1) &&& m1)
  let x := ((x &&& m2) <<< 2) ||| ((x >>> 2) &&& m2)
  ((x &&& m4) <<< 4) ||| ((x >>> 4) &&& m4)

/-! ## Zbc carry-less multiply -/

theorem clear_lowest_lt {bits : U64} (h : ¬ bits = 0) :
    (bits &&& (bits - 1)).toNat < bits.toNat := by
  have hpos : 0 < bits.toNat := Nat.pos_of_ne_zero fun h0 => h (BitVec.eq_of_toNat_eq h0)
  have hle : 1 ≤ bits := BitVec.le_def.2 hpos
  calc (bits &&& (bits - 1)).toNat ≤ (bits - 1).toNat := by
        exact Nat.and_le_right
    _ = bits.toNat - 1 := BitVec.toNat_sub_of_le hle
    _ < bits.toNat := Nat.sub_lt hpos Nat.one_pos

/-- One turn per set bit of `bits`, the lowest first. -/
def clmulLoop (wide : BitVec 128) (bits : U64) (out : BitVec 128) : BitVec 128 :=
  if _ : bits = 0 then
    out
  else
    clmulLoop wide (bits &&& (bits - 1)) (out ^^^ (wide <<< bits.ctz.toNat))
termination_by bits.toNat
decreasing_by exact clear_lowest_lt ‹_›

def clmulFull (a b : U64) : BitVec 128 :=
  clmulLoop (a.setWidth 128) b 0

def clmul (a b : U64) : U64 :=
  (clmulFull a b).setWidth 64

def clmulh (a b : U64) : U64 :=
  (clmulFull a b >>> 64).setWidth 64

def clmulr (a b : U64) : U64 :=
  (clmulFull a b >>> 63).setWidth 64

/-! ## AES -/

def SBOX_FWD : List U8 :=
  [0x63, 0x7c, 0x77, 0x7b, 0xf2, 0x6b, 0x6f, 0xc5, 0x30, 0x01, 0x67, 0x2b, 0xfe, 0xd7, 0xab, 0x76,
    0xca, 0x82, 0xc9, 0x7d, 0xfa, 0x59, 0x47, 0xf0, 0xad, 0xd4, 0xa2, 0xaf, 0x9c, 0xa4, 0x72, 0xc0,
    0xb7, 0xfd, 0x93, 0x26, 0x36, 0x3f, 0xf7, 0xcc, 0x34, 0xa5, 0xe5, 0xf1, 0x71, 0xd8, 0x31, 0x15,
    0x04, 0xc7, 0x23, 0xc3, 0x18, 0x96, 0x05, 0x9a, 0x07, 0x12, 0x80, 0xe2, 0xeb, 0x27, 0xb2, 0x75,
    0x09, 0x83, 0x2c, 0x1a, 0x1b, 0x6e, 0x5a, 0xa0, 0x52, 0x3b, 0xd6, 0xb3, 0x29, 0xe3, 0x2f, 0x84,
    0x53, 0xd1, 0x00, 0xed, 0x20, 0xfc, 0xb1, 0x5b, 0x6a, 0xcb, 0xbe, 0x39, 0x4a, 0x4c, 0x58, 0xcf,
    0xd0, 0xef, 0xaa, 0xfb, 0x43, 0x4d, 0x33, 0x85, 0x45, 0xf9, 0x02, 0x7f, 0x50, 0x3c, 0x9f, 0xa8,
    0x51, 0xa3, 0x40, 0x8f, 0x92, 0x9d, 0x38, 0xf5, 0xbc, 0xb6, 0xda, 0x21, 0x10, 0xff, 0xf3, 0xd2,
    0xcd, 0x0c, 0x13, 0xec, 0x5f, 0x97, 0x44, 0x17, 0xc4, 0xa7, 0x7e, 0x3d, 0x64, 0x5d, 0x19, 0x73,
    0x60, 0x81, 0x4f, 0xdc, 0x22, 0x2a, 0x90, 0x88, 0x46, 0xee, 0xb8, 0x14, 0xde, 0x5e, 0x0b, 0xdb,
    0xe0, 0x32, 0x3a, 0x0a, 0x49, 0x06, 0x24, 0x5c, 0xc2, 0xd3, 0xac, 0x62, 0x91, 0x95, 0xe4, 0x79,
    0xe7, 0xc8, 0x37, 0x6d, 0x8d, 0xd5, 0x4e, 0xa9, 0x6c, 0x56, 0xf4, 0xea, 0x65, 0x7a, 0xae, 0x08,
    0xba, 0x78, 0x25, 0x2e, 0x1c, 0xa6, 0xb4, 0xc6, 0xe8, 0xdd, 0x74, 0x1f, 0x4b, 0xbd, 0x8b, 0x8a,
    0x70, 0x3e, 0xb5, 0x66, 0x48, 0x03, 0xf6, 0x0e, 0x61, 0x35, 0x57, 0xb9, 0x86, 0xc1, 0x1d, 0x9e,
    0xe1, 0xf8, 0x98, 0x11, 0x69, 0xd9, 0x8e, 0x94, 0x9b, 0x1e, 0x87, 0xe9, 0xce, 0x55, 0x28, 0xdf,
    0x8c, 0xa1, 0x89, 0x0d, 0xbf, 0xe6, 0x42, 0x68, 0x41, 0x99, 0x2d, 0x0f, 0xb0, 0x54, 0xbb, 0x16]

def SBOX_INV : List U8 :=
  [0x52, 0x09, 0x6a, 0xd5, 0x30, 0x36, 0xa5, 0x38, 0xbf, 0x40, 0xa3, 0x9e, 0x81, 0xf3, 0xd7, 0xfb,
    0x7c, 0xe3, 0x39, 0x82, 0x9b, 0x2f, 0xff, 0x87, 0x34, 0x8e, 0x43, 0x44, 0xc4, 0xde, 0xe9, 0xcb,
    0x54, 0x7b, 0x94, 0x32, 0xa6, 0xc2, 0x23, 0x3d, 0xee, 0x4c, 0x95, 0x0b, 0x42, 0xfa, 0xc3, 0x4e,
    0x08, 0x2e, 0xa1, 0x66, 0x28, 0xd9, 0x24, 0xb2, 0x76, 0x5b, 0xa2, 0x49, 0x6d, 0x8b, 0xd1, 0x25,
    0x72, 0xf8, 0xf6, 0x64, 0x86, 0x68, 0x98, 0x16, 0xd4, 0xa4, 0x5c, 0xcc, 0x5d, 0x65, 0xb6, 0x92,
    0x6c, 0x70, 0x48, 0x50, 0xfd, 0xed, 0xb9, 0xda, 0x5e, 0x15, 0x46, 0x57, 0xa7, 0x8d, 0x9d, 0x84,
    0x90, 0xd8, 0xab, 0x00, 0x8c, 0xbc, 0xd3, 0x0a, 0xf7, 0xe4, 0x58, 0x05, 0xb8, 0xb3, 0x45, 0x06,
    0xd0, 0x2c, 0x1e, 0x8f, 0xca, 0x3f, 0x0f, 0x02, 0xc1, 0xaf, 0xbd, 0x03, 0x01, 0x13, 0x8a, 0x6b,
    0x3a, 0x91, 0x11, 0x41, 0x4f, 0x67, 0xdc, 0xea, 0x97, 0xf2, 0xcf, 0xce, 0xf0, 0xb4, 0xe6, 0x73,
    0x96, 0xac, 0x74, 0x22, 0xe7, 0xad, 0x35, 0x85, 0xe2, 0xf9, 0x37, 0xe8, 0x1c, 0x75, 0xdf, 0x6e,
    0x47, 0xf1, 0x1a, 0x71, 0x1d, 0x29, 0xc5, 0x89, 0x6f, 0xb7, 0x62, 0x0e, 0xaa, 0x18, 0xbe, 0x1b,
    0xfc, 0x56, 0x3e, 0x4b, 0xc6, 0xd2, 0x79, 0x20, 0x9a, 0xdb, 0xc0, 0xfe, 0x78, 0xcd, 0x5a, 0xf4,
    0x1f, 0xdd, 0xa8, 0x33, 0x88, 0x07, 0xc7, 0x31, 0xb1, 0x12, 0x10, 0x59, 0x27, 0x80, 0xec, 0x5f,
    0x60, 0x51, 0x7f, 0xa9, 0x19, 0xb5, 0x4a, 0x0d, 0x2d, 0xe5, 0x7a, 0x9f, 0x93, 0xc9, 0x9c, 0xef,
    0xa0, 0xe0, 0x3b, 0x4d, 0xae, 0x2a, 0xf5, 0xb0, 0xc8, 0xeb, 0xbb, 0x3c, 0x83, 0x53, 0x99, 0x61,
    0x17, 0x2b, 0x04, 0x7e, 0xba, 0x77, 0xd6, 0x26, 0xe1, 0x69, 0x14, 0x63, 0x55, 0x21, 0x0c, 0x7d]

inductive Dir
  | fwd
  | inv
  deriving DecidableEq, Repr

/-- Multiplication by `x` in the AES field. -/
def xt2 (x : U8) : U8 :=
  (x <<< 1) ^^^ (if x &&& 0x80 ≠ 0 then (0x1b : U8) else 0)

def xt3 (x : U8) : U8 :=
  x ^^^ xt2 x

def gfmul (x y : U8) : U8 :=
  (if y &&& 1 ≠ 0 then x else 0) ^^^ (if y &&& 2 ≠ 0 then xt2 x else 0) ^^^
    (if y &&& 4 ≠ 0 then xt2 (xt2 x) else 0) ^^^ (if y &&& 8 ≠ 0 then xt2 (xt2 (xt2 x)) else 0)

def getbyte {w : Nat} (x : BitVec w) (i : Nat) : U8 :=
  (x >>> (8 * i)).setWidth 8

def aesMixcolumnFwd (x : U32) : U32 :=
  let s := getbyte x
  Bytes.ofLE 32
    [xt2 (s 0) ^^^ xt3 (s 1) ^^^ s 2 ^^^ s 3,
     s 0 ^^^ xt2 (s 1) ^^^ xt3 (s 2) ^^^ s 3,
     s 0 ^^^ s 1 ^^^ xt2 (s 2) ^^^ xt3 (s 3),
     xt3 (s 0) ^^^ s 1 ^^^ s 2 ^^^ xt2 (s 3)]

def aesMixcolumnInv (x : U32) : U32 :=
  let s := getbyte x
  Bytes.ofLE 32
    [gfmul (s 0) 0xe ^^^ gfmul (s 1) 0xb ^^^ gfmul (s 2) 0xd ^^^ gfmul (s 3) 0x9,
     gfmul (s 0) 0x9 ^^^ gfmul (s 1) 0xe ^^^ gfmul (s 2) 0xb ^^^ gfmul (s 3) 0xd,
     gfmul (s 0) 0xd ^^^ gfmul (s 1) 0x9 ^^^ gfmul (s 2) 0xe ^^^ gfmul (s 3) 0xb,
     gfmul (s 0) 0xb ^^^ gfmul (s 1) 0xd ^^^ gfmul (s 2) 0x9 ^^^ gfmul (s 3) 0xe]

def shiftrowsFwd (rs2 rs1 : U64) : U64 :=
  Bytes.ofLE 64
    [getbyte rs1 0, getbyte rs1 5, getbyte rs2 2, getbyte rs2 7,
     getbyte rs1 4, getbyte rs2 1, getbyte rs2 6, getbyte rs1 3]

def shiftrowsInv (rs2 rs1 : U64) : U64 :=
  Bytes.ofLE 64
    [getbyte rs1 0, getbyte rs2 5, getbyte rs2 2, getbyte rs1 7,
     getbyte rs1 4, getbyte rs1 1, getbyte rs2 6, getbyte rs2 3]

/-- Look every one of the first `n` bytes up in a table of 256. -/
def subBytes {w : Nat} (table : List U8) (n : Nat) (x : BitVec w) : BitVec w :=
  Bytes.ofLE w ((Bytes.toLE n x).map fun byte => table[byte.toNat]?.getD 0)

def sboxEachByte (x : U64) (dir : Dir) : U64 :=
  match dir with
  | .fwd => subBytes SBOX_FWD 8 x
  | .inv => subBytes SBOX_INV 8 x

def halves (lo hi : U32) : U64 :=
  lo.setWidth 64 ||| (hi.setWidth 64 <<< 32)

def aes64Round (a b : U64) (dir : Dir) (mix : Bool) : U64 :=
  let sr := match dir with
    | .fwd => shiftrowsFwd b a
    | .inv => shiftrowsInv b a
  let sb := sboxEachByte sr dir
  if ¬ mix then sb
  else
    let mixer := match dir with
      | .fwd => aesMixcolumnFwd
      | .inv => aesMixcolumnInv
    halves (mixer (sb.setWidth 32)) (mixer ((sb >>> 32).setWidth 32))

def aesSubwordFwd (x : U32) : U32 :=
  subBytes SBOX_FWD 4 x

/-- Round constants; round 10 never asks for one. -/
def aesDecodeRcon (rnum : U32) : U32 :=
  ([0x01, 0x02, 0x04, 0x08, 0x10, 0x20, 0x40, 0x80, 0x1b, 0x36] : List U32)[rnum.toNat]?.getD 0

def aes64ks1i (a : U64) (rnum : U32) : U64 :=
  let prev : U32 := (a >>> 32).setWidth 32
  let subwords := aesSubwordFwd prev
  let result :=
    if rnum = 0xa then subwords else subwords.rotateRight 8 ^^^ aesDecodeRcon rnum
  halves result result

def aes64ks2 (a b : U64) : U64 :=
  let w0 : U32 := (a >>> 32).setWidth 32 ^^^ b.setWidth 32
  let w1 : U32 := w0 ^^^ (b >>> 32).setWidth 32
  halves w0 w1

/-! ## Dispatch -/

/-- `as i32 as u64`: sign-extend from bit 31. -/
def sextW (x : U32) : U64 :=
  x.signExtend 64

def bitRr (kind : BitOp) (a b : U64) : U64 :=
  match kind with
  | .andn => a &&& ~~~b
  | .orn => a ||| ~~~b
  | .xnor => ~~~(a ^^^ b)
  | .max => if a.slt b then b else a
  | .maxu => if a < b then b else a
  | .min => if b.slt a then b else a
  | .minu => if b < a then b else a
  | .rol => a.rotateLeft (b &&& 63).toNat
  | .ror => a.rotateRight (b &&& 63).toNat
  | .rolw => sextW ((a.setWidth 32).rotateLeft (b &&& 31).toNat)
  | .rorw => sextW ((a.setWidth 32).rotateRight (b &&& 31).toNat)
  | .pack => (a &&& (0xffffffff : U64)) ||| (b <<< 32)
  | .packh => (a &&& (0xff : U64)) ||| ((b &&& (0xff : U64)) <<< 8)
  | .packw => sextW (((a &&& (0xffff : U64)) ||| ((b &&& (0xffff : U64)) <<< 16)).setWidth 32)
  | .clmul => clmul a b
  | .clmulh => clmulh a b
  | .clmulr => clmulr a b
  | .aes64es => aes64Round a b .fwd false
  | .aes64esm => aes64Round a b .fwd true
  | .aes64ds => aes64Round a b .inv false
  | .aes64dsm => aes64Round a b .inv true
  | .aes64ks2 => aes64ks2 a b

def bitUnary (kind : BitUnaryOp) (a : U64) : U64 :=
  let x : U32 := a.setWidth 32
  match kind with
  | .clz => a.clz
  | .ctz => a.ctz
  | .cpop => a.cpop
  | .clzw => x.clz.setWidth 64
  | .ctzw => x.ctz.setWidth 64
  | .cpopw => x.cpop.setWidth 64
  | .sextB => (a.setWidth 8).signExtend 64
  | .sextH => (a.setWidth 16).signExtend 64
  | .orcB => orcB a
  | .rev8 => Bytes.ofLE 64 (Bytes.toLE 8 a).reverse
  | .brev8 => brev8 a
  | .aes64im => halves (aesMixcolumnInv x) (aesMixcolumnInv ((a >>> 32).setWidth 32))
  | .sha256sig0 => sextW (x.rotateRight 7 ^^^ x.rotateRight 18 ^^^ (x >>> 3))
  | .sha256sig1 => sextW (x.rotateRight 17 ^^^ x.rotateRight 19 ^^^ (x >>> 10))
  | .sha256sum0 => sextW (x.rotateRight 2 ^^^ x.rotateRight 13 ^^^ x.rotateRight 22)
  | .sha256sum1 => sextW (x.rotateRight 6 ^^^ x.rotateRight 11 ^^^ x.rotateRight 25)
  | .sha512sig0 => a.rotateRight 1 ^^^ a.rotateRight 8 ^^^ (a >>> 7)
  | .sha512sig1 => a.rotateRight 19 ^^^ a.rotateRight 61 ^^^ (a >>> 6)
  | .sha512sum0 => a.rotateRight 28 ^^^ a.rotateRight 34 ^^^ a.rotateRight 39
  | .sha512sum1 => a.rotateRight 14 ^^^ a.rotateRight 18 ^^^ a.rotateRight 41

def bitImm (kind : BitImmOp) (a : U64) (imm : U32) : U64 :=
  match kind with
  | .rori => a.rotateRight (imm &&& 63).toNat
  | .roriw => sextW ((a.setWidth 32).rotateRight (imm &&& 31).toNat)
  | .aes64ks1i => aes64ks1i a imm

end Bitmanip

end EmulateComputer

import EmulateComputer.Cpu.Decode

/-!
# Float — floating-point values and the arithmetic around the float library

Correctly rounded arithmetic comes from a third-party library; `ApFloat` is its interface, with
every operation a parameter.  Around it stand the parts that are the emulator's own: overflow
detection at an unbounded exponent, the repair of tininess, square roots, conversions to integers
and the operations on bit patterns, which are the same for both precisions and take the format as
a parameter.
-/

namespace EmulateComputer

/-- The formats the emulator instantiates the float library at. -/
inductive Format
  | single
  | double
  | quad
  | extendedSingle
  | extendedDouble
  deriving DecidableEq, Repr

inductive Round
  | nearestTiesToEven
  | towardZero
  | towardNegative
  | towardPositive
  | nearestTiesToAway
  deriving DecidableEq, Repr

structure Status where
  invalidOp : Bool
  divByZero : Bool
  overflow : Bool
  underflow : Bool
  inexact : Bool
  deriving DecidableEq, Repr

namespace Status

def OK : Status := ⟨false, false, false, false, false⟩
def INVALID_OP : Status := { OK with invalidOp := true }
def INEXACT : Status := { OK with inexact := true }

end Status

structure StatusAnd (α : Type) where
  status : Status
  value : α

/-- The float library and the float primitives of the host, as arbitrary functions. -/
class ApFloat where
  Value : Format → Type
  fromBits (f : Format) (bits : BitVec 128) : Value f
  toBits {f : Format} (a : Value f) : BitVec 128
  addR {f : Format} (a b : Value f) (round : Round) : StatusAnd (Value f)
  subR {f : Format} (a b : Value f) (round : Round) : StatusAnd (Value f)
  mulR {f : Format} (a b : Value f) (round : Round) : StatusAnd (Value f)
  divR {f : Format} (a b : Value f) (round : Round) : StatusAnd (Value f)
  mulAddR {f : Format} (a b c : Value f) (round : Round) : StatusAnd (Value f)
  neg {f : Format} (a : Value f) : Value f
  abs {f : Format} (a : Value f) : Value f
  zero (f : Format) : Value f
  nan (f : Format) : Value f
  largest (f : Format) : Value f
  smallestNormalized (f : Format) : Value f
  isNan {f : Format} (a : Value f) : Bool
  isSignaling {f : Format} (a : Value f) : Bool
  isNegative {f : Format} (a : Value f) : Bool
  isZero {f : Format} (a : Value f) : Bool
  isInfinite {f : Format} (a : Value f) : Bool
  isDenormal {f : Format} (a : Value f) : Bool
  partialCmp {f : Format} (a b : Value f) : Option Ordering
  convertR {f : Format} (a : Value f) (g : Format) (round : Round) : StatusAnd (Value g)
  fromI128R (f : Format) (v : Int) (round : Round) : StatusAnd (Value f)
  fromU128R (f : Format) (v : Nat) (round : Round) : StatusAnd (Value f)
  nextUp {f : Format} (a : Value f) : StatusAnd (Value f)
  nextDown {f : Format} (a : Value f) : StatusAnd (Value f)
  /-- `f32::sqrt` and `f64::sqrt` on bit patterns. -/
  sqrtF32 (bits : U32) : U32
  sqrtF64 (bits : U64) : U64
  /-- `f32 as f64`. -/
  widen (bits : U32) : U64
  /-- Round to an integral value under a validated rounding mode. -/
  roundRm (bits : U64) (rm : U8) : U64
  /-- `f64 as i128`, saturating. -/
  toI128 (bits : U64) : Int

/-- The float library in which every operation answers zero; it makes concrete runs computable. -/
@[reducible] def ApFloat.zeros : ApFloat where
  Value _ := Unit
  fromBits _ _ := ()
  toBits _ := 0
  addR _ _ _ := ⟨.OK, ()⟩
  subR _ _ _ := ⟨.OK, ()⟩
  mulR _ _ _ := ⟨.OK, ()⟩
  divR _ _ _ := ⟨.OK, ()⟩
  mulAddR _ _ _ _ := ⟨.OK, ()⟩
  neg _ := ()
  abs _ := ()
  zero _ := ()
  nan _ := ()
  largest _ := ()
  smallestNormalized _ := ()
  isNan _ := false
  isSignaling _ := false
  isNegative _ := false
  isZero _ := true
  isInfinite _ := false
  isDenormal _ := false
  partialCmp _ _ := some .eq
  convertR _ _ _ := ⟨.OK, ()⟩
  fromI128R _ _ _ := ⟨.OK, ()⟩
  fromU128R _ _ _ := ⟨.OK, ()⟩
  nextUp _ := ⟨.OK, ()⟩
  nextDown _ := ⟨.OK, ()⟩
  sqrtF32 _ := 0
  sqrtF64 _ := 0
  widen _ := 0
  roundRm _ _ := 0
  toI128 _ := 0

/-! ## Bit patterns -/

/-- A binary interchange format of width `w`, by its distinguished bit patterns. -/
structure BinFormat (w : Nat) where
  sign : BitVec w
  infinity : BitVec w
  minNormal : BitVec w
  quiet : BitVec w
  canonicalNan : BitVec w

namespace BinFormat

variable {w : Nat} (f : BinFormat w)

def magnitude (x : BitVec w) : BitVec w :=
  x &&& ~~~f.sign

def isSignNegative (x : BitVec w) : Bool :=
  x &&& f.sign ≠ 0

def isNan (x : BitVec w) : Bool :=
  f.infinity < f.magnitude x

def isInfinite (x : BitVec w) : Bool :=
  f.magnitude x = f.infinity

def isZero (x : BitVec w) : Bool :=
  f.magnitude x = 0

def isSubnormal (x : BitVec w) : Bool :=
  !f.isZero x && f.magnitude x < f.minNormal

/-- A NaN without the quiet bit. -/
def isSnan (x : BitVec w) : Bool :=
  f.isNan x && x &&& f.quiet = 0

/-- `a == b`: the two zeros are equal, a NaN equals nothing. -/
def eq (a b : BitVec w) : Bool :=
  !f.isNan a && !f.isNan b && (a = b || (f.isZero a && f.isZero b))

def lt (a b : BitVec w) : Bool :=
  !f.isNan a && !f.isNan b &&
    if f.isSignNegative a then
      if f.isSignNegative b then f.magnitude b < f.magnitude a
      else !(f.isZero a && f.isZero b)
    else if f.isSignNegative b then false
    else f.magnitude a < f.magnitude b

def le (a b : BitVec w) : Bool :=
  f.lt a b || f.eq a b

/-- RISC-V `fmin`: a NaN loses, and `-0.0` is below `+0.0`. -/
def min (a b : BitVec w) : BitVec w :=
  if f.isNan a && f.isNan b then f.canonicalNan
  else if f.isNan a then b
  else if f.isNan b then a
  else if f.isZero a && f.isZero b then if f.isSignNegative a then a else b
  else if f.lt b a then b else a

def max (a b : BitVec w) : BitVec w :=
  if f.isNan a && f.isNan b then f.canonicalNan
  else if f.isNan a then b
  else if f.isNan b then a
  else if f.isZero a && f.isZero b then if f.isSignNegative a then b else a
  else if f.lt a b then b else a

def classify (x : BitVec w) : U64 :=
  let sign := f.isSignNegative x
  if f.isNan x then (1 : U64) <<< (if f.isSnan x then 8 else 9)
  else
    (1 : U64) <<<
      (if f.isInfinite x then if sign then 0 else 7
      else if f.isZero x then if sign then 3 else 4
      else if f.isSubnormal x then if sign then 2 else 5
      else if sign then 1 else 6)

end BinFormat

namespace Float

def CANONICAL_NAN_F32 : U32 := 0x7FC00000
def CANONICAL_NAN_F64 : U64 := 0x7FF8000000000000

def F32 : BinFormat 32 :=
  { sign := 0x80000000, infinity := 0x7F800000, minNormal := 0x00800000, quiet := 0x00400000
    canonicalNan := CANONICAL_NAN_F32 }

def F64 : BinFormat 64 :=
  { sign := 0x8000000000000000, infinity := 0x7FF0000000000000
    minNormal := 0x0010000000000000, quiet := 0x0008000000000000
    canonicalNan := CANONICAL_NAN_F64 }

def NX : U64 := (1 : U64) <<< 0
def UF : U64 := (1 : U64) <<< 1
def OF : U64 := (1 : U64) <<< 2
def DZ : U64 := (1 : U64) <<< 3
def NV : U64 := (1 : U64) <<< 4

def apFflags (status : Status) : U64 :=
  (if status.invalidOp then NV else 0) ||| (if status.divByZero then DZ else 0) |||
    (if status.overflow then OF else 0) ||| (if status.underflow then UF else 0) |||
    (if status.inexact then NX else 0)

/-- The library's rounding mode for a validated rounding-mode field. -/
def apRound (rm : U8) : Round :=
  if rm = 0 then .nearestTiesToEven
  else if rm = 1 then .towardZero
  else if rm = 2 then .towardNegative
  else if rm = 3 then .towardPositive
  else .nearestTiesToAway

section Arithmetic

variable [ApFloat]

open ApFloat

/-! ## Comparisons derived from `partialCmp` -/

def gt {f : Format} (a b : Value f) : Bool := partialCmp a b = some .gt
def lt {f : Format} (a b : Value f) : Bool := partialCmp a b = some .lt
def eq {f : Format} (a b : Value f) : Bool := partialCmp a b = some .eq
def ge {f : Format} (a b : Value f) : Bool := gt a b || eq a b

/-! ## Exception flags -/

/-- Overflow is recomputed at an unbounded exponent; an inexact tiny result underflows. -/
def adjustedApStatus {f : Format} (result : Value f) (status : Status) (overflowed : Bool) :
    Status :=
  { status with
    overflow := status.inexact && overflowed
    underflow := status.underflow ||
      (status.inexact && !overflowed && (isDenormal result || isZero result)) }

def extended {f : Format} (value : Value f) (g : Format) : Value g :=
  (convertR value g .nearestTiesToEven).value

def arithmetic {f : Format} (op : FpOp) (a b c : Value f) (round : Round) : StatusAnd (Value f) :=
  match op with
  | .add => addR a b round
  | .sub => subR a b round
  | .mul => mulR a b round
  | .madd => mulAddR a b c round
  | .msub => mulAddR a b (neg c) round
  | .nmsub => mulAddR (neg a) b c round
  | .nmadd => mulAddR (neg a) b (neg c) round
  -- Division; the caller passes no other operation.
  | _ => divR a b round

/-- A tiny value that rounded up to the smallest normal one still underflows. -/
def repairTininess {f : Format} (g : Format) (result : StatusAnd (Value f)) (unbounded : Value g) :
    StatusAnd (Value f) :=
  if result.status.inexact ∧ eq (abs result.value) (smallestNormalized f) ∧
      lt (abs unbounded) (extended (smallestNormalized f) g) then
    { result with status := { result.status with underflow := true } }
  else result

/-- Whether the exact sum of two values exceeds (or reaches) `limit` in magnitude. -/
def exactSumReaches {f : Format} (a b limit : Value f) (inclusive : Bool) : Bool :=
  if isNan a || isNan b || isInfinite a || isInfinite b then false
  else
    let aNegative := isNegative a && !isZero a
    let bNegative := isNegative b && !isZero b
    let a := abs a
    let b := abs b
    let larger := if ge a b then a else b
    let smaller := if ge a b then b else a
    if aNegative = bNegative then
      if gt larger limit then true
      else if eq larger limit then inclusive || !isZero smaller
      else
        let gap := (subR limit larger .nearestTiesToEven).value
        gt smaller gap || (inclusive && eq smaller gap)
    else if lt larger limit then false
    else if eq larger limit then inclusive && isZero smaller
    else
      let excess := (subR larger limit .nearestTiesToEven).value
      gt excess smaller || (inclusive && eq excess smaller)

/-- IEEE overflow of a rounded sum; the boundary depends on the rounding mode. -/
def roundedSumOverflows {f : Format} (a b : Value f) (round : Round)
    (max midpoint onePast : Value f) : Bool :=
  let aNegative := isNegative a && !isZero a
  let bNegative := isNegative b && !isZero b
  let negative := if aNegative = bNegative || ge (abs a) (abs b) then aNegative else bNegative
  match round with
  | .towardPositive =>
    if ¬ negative then exactSumReaches a b max false else exactSumReaches a b onePast true
  | .towardNegative =>
    if negative then exactSumReaches a b max false else exactSumReaches a b onePast true
  | .nearestTiesToEven | .nearestTiesToAway => exactSumReaches a b midpoint true
  | .towardZero => exactSumReaches a b onePast true

/-! ## The two precisions -/

/-- A destination format with the wider one that holds its products exactly and the one with its
precision and a larger exponent range. -/
structure Precision where
  narrow : Format
  wide : Format
  ext : Format
  /-- Halfway between the largest finite value and one unit past it. -/
  midpoint : BitVec 128
  /-- One unit past the largest finite value. -/
  onePast : BitVec 128

def SINGLE : Precision :=
  { narrow := .single, wide := .double, ext := .extendedSingle
    midpoint := 0x47effffff0000000, onePast := 0x47f0000000000000 }

def DOUBLE : Precision :=
  { narrow := .double, wide := .quad, ext := .extendedDouble
    midpoint := ((0x43fe : BitVec 128) <<< 112) |||
      (((1 : BitVec 128) <<< 112) - ((1 : BitVec 128) <<< 59))
    onePast := (0x43ff : BitVec 128) <<< 112 }

namespace Precision

variable (p : Precision)

def widened (value : Value p.narrow) : Value p.wide :=
  extended value p.wide

def wideOverflows (value : Value p.wide) : Bool :=
  ge (abs value) (fromBits p.wide p.onePast)

def sumOverflows (a b : Value p.wide) (round : Round) : Bool :=
  roundedSumOverflows a b round (p.widened (largest p.narrow)) (fromBits p.wide p.midpoint)
    (fromBits p.wide p.onePast)

/-- Result and overflow of `fadd`, `fsub`, `fmul` and `fdiv`. -/
def binary (op : FpOp) (a b : Value p.narrow) (round : Round) : StatusAnd (Value p.narrow) × Bool :=
  let result := arithmetic op a b (zero p.narrow) round
  let wideA := p.widened a
  let wideB := p.widened b
  let overflowed := result.status.inexact &&
    match op with
    | .add => p.sumOverflows wideA wideB round
    | .sub => p.sumOverflows wideA (neg wideB) round
    | .mul => p.wideOverflows (mulR wideA wideB round).value
    | _ => p.wideOverflows (divR wideA wideB round).value
  (repairTininess p.ext result
    (arithmetic op (extended a p.ext) (extended b p.ext) (zero p.ext) round).value, overflowed)

/-- Result and overflow of the fused multiply-adds. -/
def fused (op : FpOp) (a b c : Value p.narrow) (round : Round) :
    StatusAnd (Value p.narrow) × Bool :=
  let result := arithmetic op a b c round
  let product := (mulR (p.widened a) (p.widened b) .nearestTiesToEven).value
  let wideC := p.widened c
  let overflowed := result.status.inexact &&
    match op with
    | .madd => p.sumOverflows product wideC round
    | .msub => p.sumOverflows product (neg wideC) round
    | .nmsub => p.sumOverflows (neg product) wideC round
    | _ => p.sumOverflows (neg product) (neg wideC) round
  (repairTininess p.ext result
    (arithmetic op (extended a p.ext) (extended b p.ext) (extended c p.ext) round).value,
    overflowed)

/-- Correct the host's nearest square root to the rounding mode. -/
def sqrtRound (a nearest : Value p.narrow) (round : Round) : StatusAnd (Value p.narrow) :=
  let nearestQuad := extended nearest .quad
  let square := (mulR nearestQuad nearestQuad .nearestTiesToEven).value
  match partialCmp square (extended a .quad) with
  | none => ⟨.INVALID_OP, nan p.narrow⟩
  | some .eq => ⟨.OK, nearest⟩
  | some .lt =>
    ⟨.INEXACT, if round = .towardPositive then (nextUp nearest).value else nearest⟩
  | some .gt =>
    ⟨.INEXACT, if round = .towardNegative ∨ round = .towardZero then (nextDown nearest).value
      else nearest⟩

/-- `sqrt_single`, `sqrt_double`; `host` is the primitive square root on bit patterns. -/
def sqrt (host : BitVec 128 → BitVec 128) (a : Value p.narrow) (round : Round) :
    StatusAnd (Value p.narrow) :=
  if isNan a then
    ⟨if isSignaling a then .INVALID_OP else .OK, nan p.narrow⟩
  else if isNegative a ∧ ¬ isZero a then ⟨.INVALID_OP, nan p.narrow⟩
  else if isZero a ∨ isInfinite a then ⟨.OK, a⟩
  else p.sqrtRound a (fromBits p.narrow (host (toBits a))) round

end Precision

def sqrtSingle (a : Value .single) (round : Round) : StatusAnd (Value .single) :=
  SINGLE.sqrt (fun bits => (sqrtF32 (bits.setWidth 32)).setWidth 128) a round

def sqrtDouble (a : Value .double) (round : Round) : StatusAnd (Value .double) :=
  DOUBLE.sqrt (fun bits => (sqrtF64 (bits.setWidth 64)).setWidth 128) a round

/-! ## Conversion to integers -/

/-- Conversion with clamping: NaN and out-of-range values set NV, inexact ones NX. -/
def fcvtToInt (x : U64) (rm : U8) (min max : Int) : Int × U64 :=
  if F64.isNan x then (max, NV)
  else
    let r := roundRm x rm
    let v := toI128 r
    if F64.isInfinite r ∨ v < min ∨ max < v then
      (if F64.lt r 0 then min else max, NV)
    else (v, if F64.eq r x then 0 else NX)

end Arithmetic

end Float

end EmulateComputer

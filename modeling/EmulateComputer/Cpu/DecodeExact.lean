import EmulateComputer.Cpu.DecodeTables
import EmulateComputer.Cpu.WellDecoded

/-!
# DecodeExact — what the decoder answers stands for the word

Whatever operation the decoder makes of a 32-bit word, the encoder makes that word of the operation,
up to the bits the architecture ignores.  The proof follows the dispatch of the decoder: one lemma
for each opcode, from the tables of the opcode and the fields of its format.
-/

namespace EmulateComputer

namespace Decode

open BitFields Encode

/-- The word stands for the operation, up to the ignored bits. -/
def Encodes (raw : U32) (op : Op) : Prop :=
  encode op = some (raw &&& ~~~ignored op)

variable {raw word : U32} {P : Op → Prop} {x y : Option Op}

theorem encodes_of_eq {op : Op} (hignored : ignored op = 0) (h : encode op = some raw) :
    Encodes raw op := by
  rw [Encodes, hignored, h]
  congr 1
  exact (BitVec.and_allOnes (x := raw)).symm

theorem signed_signExtend {n : Nat} (imm : BitVec n) (h : n ≤ 64) :
    signed n (imm.signExtend 64) = some imm := by
  rw [signed, setWidth_signExtend imm h, if_pos rfl]

theorem offset_signExtend {n : Nat} {imm : BitVec n} (hpos : 0 < n) (h : n ≤ 64)
    (heven : imm.getLsbD 0 = false) : offset n (imm.signExtend 64) = some imm := by
  rw [offset, getLsbD_signExtend_of_lt _ (by decide), if_pos hpos, heven, if_neg (by decide),
    signed_signExtend _ h]

theorem unsigned_place {n w : Nat} (imm : BitVec n) (h : n ≤ w) :
    unsigned n (place w 0 imm) = some imm := by
  have hnarrow : (place w 0 imm).setWidth n = imm := by
    rw [setWidth_place imm (.inr h), place_self]
  rw [unsigned, hnarrow, if_pos]
  exact (BitVec.shiftLeft_zero _).symm

theorem all_ite_of {c : Prop} [Decidable c] (hx : c → All P x)
    (hy : ¬ c → All P y) : All P (if c then x else y) := by
  split
  · exact hx ‹_›
  · exact hy ‹_›

theorem all_opcode (opcode : BitVec 7) (hx : raw.extractLsb' 0 7 = opcode → All P x) (hy : All P y)
    (hword : word = place 32 0 opcode := by decide) :
    All P (if raw &&& 0x7f = word then x else y) := by
  refine all_ite_of (fun h => hx ?_) fun _ => hy
  rw [opcode_eq, hword] at h
  exact (place_inj (by decide)).mp h

theorem all_map_of {α : Type} {o : Option α} {f : α → Op} (h : ∀ a, o = some a → P (f a)) :
    All P (o.map f) := by
  intro op hop
  obtain ⟨a, ha, rfl⟩ := Option.map_eq_some_iff.mp hop
  exact h a ha

theorem all_bind_of {α : Type} {o : Option α} {f : α → Option Op}
    (h : ∀ a, o = some a → All P (f a)) : All P (o.bind f) := by
  intro op hop
  obtain ⟨a, ha, hop⟩ := Option.bind_eq_some_iff.mp hop
  exact h a ha op hop

theorem extract_funct3 {c : BitVec 3} (hword : word = place 32 0 c) (h : funct3 raw = word) :
    raw.extractLsb' 12 3 = c := by
  rw [funct3_eq, hword] at h
  exact (place_inj (by decide)).mp h

theorem extract_funct7 {c : BitVec 7} (hword : word = place 32 0 c) (h : funct7 raw = word) :
    raw.extractLsb' 25 7 = c := by
  rw [funct7_eq, hword] at h
  exact (place_inj (by decide)).mp h

section

variable (raw : U32) {opcode : BitVec 7} {code : BitVec 3} {kind : AluOp}

/-- Words read in the immediate format. -/
theorem iType_fields (hcode : code = raw.extractLsb' 12 3)
    (hopcode : raw.extractLsb' 0 7 = opcode) :
    iType (iImm raw) (regBits (rs1 raw)) code (regBits (rd raw)) opcode = raw := by
  rw [rs1_eq, rd_eq, regBits_regOf, regBits_regOf, hcode, ← hopcode]
  exact iType_iImm raw

theorem sType_fields (hcode : code = raw.extractLsb' 12 3)
    (hopcode : raw.extractLsb' 0 7 = opcode) :
    sType (sImm raw) (regBits (rs2 raw)) (regBits (rs1 raw)) code opcode = raw := by
  rw [rs1_eq, rs2_eq, regBits_regOf, regBits_regOf, hcode, ← hopcode]
  exact sType_sImm raw

theorem rType_fields {code7 : BitVec 7} (hcode7 : code7 = raw.extractLsb' 25 7)
    (hcode : code = raw.extractLsb' 12 3) (hopcode : raw.extractLsb' 0 7 = opcode) :
    rType code7 (regBits (rs2 raw)) (regBits (rs1 raw)) code (regBits (rd raw)) opcode = raw := by
  rw [rs1_eq, rs2_eq, rd_eq, regBits_regOf, regBits_regOf, regBits_regOf, hcode7, hcode, ← hopcode]
  exact rType_extract raw

/-- An operation with a signed twelve-bit immediate in the immediate format. -/
theorem map_signed_immI (f : BitVec 12 → U32) :
    (signed 12 (immI raw)).map f = some (f (iImm raw)) := by
  rw [immI_eq, signed_signExtend _ (by decide), Option.map_some]

theorem map_signed_immS (f : BitVec 12 → U32) :
    (signed 12 (immS raw)).map f = some (f (sImm raw)) := by
  rw [immS_eq, signed_signExtend _ (by decide), Option.map_some]

theorem upper_signExtend (imm : BitVec 20) :
    upper ((place 32 12 imm).signExtend 64) = some imm := by
  have hupper : ((place 32 12 imm).signExtend 64).extractLsb' 12 20 = imm := by
    rw [extract_signExtend _ (by decide) (by decide), extract_place_self _ (by decide)]
  rw [upper, hupper, if_pos rfl]

/-! ### OP-IMM and OP-IMM-32 -/

/-- The immediate of a shift: six bits of code, six bits of amount. -/
theorem iImm_shift :
    iImm raw = place 12 6 (raw.extractLsb' 26 6) ||| place 12 0 (raw.extractLsb' 20 6) := by
  rw [place_or_place raw (by rfl) (by rfl)]
  exact (place_self _).symm

theorem shamt_eq : field raw 20 0x3f = place 32 0 (raw.extractLsb' 20 6) :=
  shift_and_place raw (by decide)

theorem shamt5_eq : field raw 20 0x1f = place 32 0 (raw.extractLsb' 20 5) :=
  shift_and_place raw (by decide)

theorem extract_funct6 {word : U32} {c : BitVec 6} (hword : word = place 32 0 c)
    (h : raw >>> 26 = word) : raw.extractLsb' 26 6 = c := by
  rw [shift_place (k := 6) raw (by decide), hword] at h
  exact (place_inj (by decide)).mp h

theorem encodes_shift64 (h : raw.extractLsb' 0 7 = OP_IMM)
    (hcode : raw.extractLsb' 12 3 = (aluFunct kind).2)
    (hcode6 : raw.extractLsb' 26 6 = (aluFunct kind).1.extractLsb' 1 6)
    (henc : ∀ imm, encodeOpImm kind (rd raw) (rs1 raw) imm =
      (unsigned 6 imm).map fun shamt => shift64 kind shamt (rs1 raw) (rd raw)) :
    Encodes raw (.opImm kind (rd raw) (rs1 raw) ((field raw 20 0x3f).setWidth 64)) := by
  refine encodes_of_eq rfl ?_
  rw [encode, henc, shamt_eq, setWidth_place _ (by decide), unsigned_place _ (by decide),
    Option.map_some, shift64, ← hcode6, ← iImm_shift, iType_fields raw hcode.symm h]

theorem encodes_shift32 (h : raw.extractLsb' 0 7 = OP_IMM_32)
    (hcode : raw.extractLsb' 12 3 = (aluFunct kind).2)
    (hcode7 : raw.extractLsb' 25 7 = (aluFunct kind).1)
    (henc : ∀ imm, encodeOpImm32 kind (rd raw) (rs1 raw) imm =
      (unsigned 5 imm).map fun shamt =>
        rType (aluFunct kind).1 shamt (regBits (rs1 raw)) (aluFunct kind).2 (regBits (rd raw))
          OP_IMM_32) :
    Encodes raw (.opImm32 kind (rd raw) (rs1 raw) ((field raw 20 0x1f).setWidth 64)) := by
  refine encodes_of_eq rfl ?_
  rw [encode, henc, shamt5_eq, setWidth_place _ (by decide), unsigned_place _ (by decide),
    Option.map_some, rs1_eq, rd_eq, regBits_regOf, regBits_regOf, ← hcode, ← hcode7, ← h,
    rType_extract]

theorem funct12_eq : raw >>> 20 = place 32 0 (iImm raw) :=
  shift_place raw (by decide)

theorem encodes_opImmBit (h : raw.extractLsb' 0 7 = OP_IMM) :
    All (Encodes raw) (decodeOpImmBit raw) := by
  refine all_ite_of (fun hks => all_ite_of (fun _ => all_none) fun hle => ?_) fun _ => ?_
  · -- `aes64ks1i`: the round number is the low four bits of the immediate.
    obtain ⟨hcode, hround⟩ := hks
    have hnum : raw >>> 20 &&& 0xf = place 32 0 (raw.extractLsb' 20 4) :=
      shift_and_place raw (by decide)
    have hhigh : raw.extractLsb' 24 8 = 0x31 := by
      have hshift : raw >>> 20 >>> 4 = place 32 0 (raw.extractLsb' 24 8) := by
        rw [← BitVec.shiftRight_add]
        exact shift_place raw (by decide)
      rw [hshift] at hround
      exact (place_inj (by decide)).mp (hround.trans (by decide : _ = place 32 0 (0x31 : BitVec 8)))
    have himm : iImm raw =
        place 12 4 (0x31 : BitVec 8) ||| place 12 0 ((raw >>> 20 &&& 0xf).setWidth 4) := by
      rw [hnum, setWidth_place _ (by decide), place_self, ← hhigh,
        place_or_place raw (by rfl) (by rfl)]
      exact (place_self _).symm
    refine all_some (encodes_of_eq rfl ?_)
    rw [encode, encodeBitImm, if_pos (BitVec.not_lt.mp hle), ← himm,
      iType_fields raw (extract_funct3 (by decide) hcode).symm h]
  · refine all_map_of fun kind hkind => encodes_of_eq rfl ?_
    rw [toNat_funct3, funct12_eq, toNat_place _ (by decide), opImmBitKind_eq_some] at hkind
    rw [encode, hkind, iType_fields raw rfl h]

/-- The operations of OP-IMM with a twelve-bit immediate. -/
theorem encodeOpImm_of_kind {f : BitVec 3} (h : opImmKind f.toNat = some kind) (d s : Reg)
    (imm : U64) :
    encodeOpImm kind d s imm =
      (signed 12 imm).map fun imm => iType imm (regBits s) f (regBits d) OP_IMM := by
  rw [← of_opImmKind h]
  unfold opImmKind at h
  split at h <;> cases h <;> rfl

theorem encodes_opImm (h : raw.extractLsb' 0 7 = OP_IMM) : All (Encodes raw) (decodeOpImm raw) := by
  refine all_ite_of (fun hcode => ?_) fun _ => all_ite_of (fun hcode => ?_) fun _ => ?_
  · have hcode := extract_funct3 (c := 1) (by decide) hcode
    refine all_ite_of (fun hcode6 => ?_) fun _ => encodes_opImmBit raw h
    exact all_some
      (encodes_shift64 raw h hcode (extract_funct6 raw (by decide) hcode6) fun _ => rfl)
  · have hcode := extract_funct3 (c := 5) (by decide) hcode
    refine all_ite_of (fun hcode6 => ?_) fun _ => ?_
    · exact all_some
        (encodes_shift64 raw h hcode (extract_funct6 raw (by decide) hcode6) fun _ => rfl)
    refine all_ite_of (fun hcode6 => ?_) fun _ => ?_
    · exact all_some
        (encodes_shift64 raw h hcode (extract_funct6 raw (by decide) hcode6) fun _ => rfl)
    refine all_ite_of (fun hcode6 => ?_) fun _ => encodes_opImmBit raw h
    have hcode6 := extract_funct6 raw (c := 0x18) (by decide) hcode6
    refine all_some (encodes_of_eq rfl ?_)
    rw [encode, encodeBitImm, shamt_eq, unsigned_place _ (by decide), Option.map_some, ← hcode6,
      ← iImm_shift, iType_fields raw hcode.symm h]
  · refine all_map_of fun kind hkind => encodes_of_eq rfl ?_
    rw [toNat_funct3] at hkind
    rw [encode, encodeOpImm_of_kind hkind, map_signed_immI, iType_fields raw rfl h]

theorem encodes_opImm32 (h : raw.extractLsb' 0 7 = OP_IMM_32) :
    All (Encodes raw) (decodeOpImm32 raw) := by
  refine all_ite_of (fun hcode => ?_) fun _ => all_ite_of (fun hcode => ?_) fun _ =>
    all_ite_of (fun hcode => ?_) fun _ => all_none
  · refine all_some (encodes_of_eq rfl ?_)
    rw [encode, encodeOpImm32, map_signed_immI,
      iType_fields raw (extract_funct3 (by decide) hcode).symm h]
  · have hcode := extract_funct3 (c := 1) (by decide) hcode
    refine all_ite_of (fun hcode7 => ?_) fun _ => all_ite_of (fun hcode7 => ?_) fun _ => all_none
    · exact all_some (encodes_shift32 raw h hcode (extract_funct7 (by decide) hcode7) fun _ => rfl)
    · -- `clzw`, `ctzw` and `cpopw`: the amount selects among them.
      have hcode7 := extract_funct7 (c := 0x30) (by decide) hcode7
      refine all_map_of fun kind hkind => encodes_of_eq rfl ?_
      have hfunct : bitUnaryFunct kind = (OP_IMM_32, iImm raw, 1) := by
        rw [shamt5_eq, toNat_place _ (by decide)] at hkind
        rw [iImm_eq, hcode7]
        exact of_countWKind hkind
      rw [encode, hfunct, iType_fields raw hcode.symm h]
  · have hcode := extract_funct3 (c := 5) (by decide) hcode
    refine all_ite_of (fun hcode7 => ?_) fun _ => all_ite_of (fun hcode7 => ?_) fun _ =>
      all_ite_of (fun hcode7 => ?_) fun _ => all_none
    · exact all_some (encodes_shift32 raw h hcode (extract_funct7 (by decide) hcode7) fun _ => rfl)
    · exact all_some (encodes_shift32 raw h hcode (extract_funct7 (by decide) hcode7) fun _ => rfl)
    · have hcode7 := extract_funct7 (c := 0x30) (by decide) hcode7
      refine all_some (encodes_of_eq rfl ?_)
      rw [encode, encodeBitImm, shamt5_eq, unsigned_place _ (by decide), Option.map_some, rs1_eq,
        rd_eq, regBits_regOf, regBits_regOf, ← hcode, ← hcode7, ← h, rType_extract]

/-! ### OP and OP-32 -/

theorem encodes_opBit {w : Bool} (h : raw.extractLsb' 0 7 = opcodeOf w) :
    All (Encodes raw) (decodeOpBit raw w) := by
  refine all_map_of fun kind hkind => encodes_of_eq rfl ?_
  rw [toNat_funct7, toNat_funct3, opBitKind_eq_some] at hkind
  rw [encode, hkind, rType_fields raw rfl rfl h]

theorem encodes_op (h : raw.extractLsb' 0 7 = OP) : All (Encodes raw) (decodeOp raw) := by
  unfold decodeOp
  split
  · rename_i kind hkind
    rw [toNat_funct7, toNat_funct3, opRegKind_eq_some] at hkind
    refine all_some (encodes_of_eq rfl ?_)
    rw [encode, hkind, rType_fields raw rfl rfl h]
  · exact encodes_opBit raw (w := false) h

theorem encodes_op32 (h : raw.extractLsb' 0 7 = OP_32) : All (Encodes raw) (decodeOp32 raw) := by
  unfold decodeOp32
  split
  · rename_i kind hkind
    rw [toNat_funct7, toNat_funct3, opReg32Kind_eq_some] at hkind
    refine all_some (encodes_of_eq rfl ?_)
    rw [encode, if_pos hkind.1, hkind.2, rType_fields raw rfl rfl h]
  · exact encodes_opBit raw (w := true) h

/-! ### SYSTEM and MISC-MEM -/

theorem encodes_system (h : raw.extractLsb' 0 7 = SYSTEM) :
    All (Encodes raw) (decodeSystem raw) := by
  refine all_ite_of (fun hcode => ?_) fun _ => ?_
  · have hcode := extract_funct3 (c := 0) (by decide) hcode
    have hfixed : ∀ {word : U32} {op : Op} {rest : Option Op}, ignored op = 0 →
        encode op = some word → All (Encodes raw) rest →
        All (Encodes raw) (if raw = word then some op else rest) := by
      intro word op rest hignored henc hrest
      refine all_ite_of (fun heq => all_some (encodes_of_eq hignored ?_)) fun _ => hrest
      rw [heq, henc]
    refine hfixed rfl (by decide) (hfixed rfl (by decide) (hfixed rfl (by decide)
      (hfixed rfl (by decide) (hfixed rfl (by decide)
        (all_ite_of (fun hfence => all_some ?_) fun _ => all_none)))))
    · refine encodes_of_eq rfl ?_
      have hcode7 := extract_funct7 (c := 0x09) (by decide) hfence.1
      have hrd : 0 = regBits (rd raw) := by
        rw [hfence.2]
        rfl
      rw [encode, hrd, rType_fields raw hcode7.symm hcode.symm h]
  · refine all_map_of fun kind hkind => encodes_of_eq rfl ?_
    rw [toNat_funct3, csrKind_eq_some] at hkind
    have hcsr : (raw >>> 20).setWidth 12 = iImm raw := by
      rw [funct12_eq, setWidth_place _ (by decide), place_self]
    rw [encode, hcsr, iType_fields raw hkind h]

/-- What is left of a fence when its operands are ignored. -/
theorem fence_masked :
    raw &&& ~~~0xffff8f80 =
      place 32 12 (raw.extractLsb' 12 3) ||| place 32 0 (raw.extractLsb' 0 7) := by
  have hmask : ~~~(0xffff8f80 : U32) = 0x7000 ||| 0x7f := by decide
  rw [hmask, BitVec.and_or_distrib_left, and_place (k := 3) raw (by decide : _ = place 32 12 _),
    and_place (k := 7) raw (by decide : _ = place 32 0 _)]

/-! ### Atomics -/

theorem funct5_eq : funct7 raw >>> 2 = place 32 0 (raw.extractLsb' 27 5) := by
  rw [funct7_eq, place_shiftRight (m := 5) _ (by decide) (by decide),
    extract_extract raw (by decide)]

/-- What is left of an atomic when its ordering bits are ignored. -/
theorem amo_masked :
    rType (place 7 2 (raw.extractLsb' 27 5)) (raw.extractLsb' 20 5) (raw.extractLsb' 15 5)
      (raw.extractLsb' 12 3) (raw.extractLsb' 7 5) (raw.extractLsb' 0 7) =
      raw &&& ~~~0x06000000 := by
  have hmask : ~~~(0x06000000 : U32) = 0xf8000000 ||| 0x01ffffff := by decide
  rw [hmask, BitVec.and_or_distrib_left, and_place (k := 5) raw (by decide : _ = place 32 27 _),
    and_place (k := 25) raw (by decide : _ = place 32 0 _)]
  have hrest : place 32 20 (raw.extractLsb' 20 5) ||| place 32 15 (raw.extractLsb' 15 5) |||
      place 32 12 (raw.extractLsb' 12 3) ||| place 32 7 (raw.extractLsb' 7 5) |||
      place 32 0 (raw.extractLsb' 0 7) = place 32 0 (raw.extractLsb' 0 25) := by
    rw [place_or_place raw (by rfl) (by rfl), place_or_place raw (by rfl) (by rfl),
      place_or_place raw (by rfl) (by rfl), place_or_place raw (by rfl) (by rfl)]
  unfold rType
  rw [place_place _ (by decide), ← hrest]
  simp only [BitVec.or_assoc]

theorem encodes_amo (h : raw.extractLsb' 0 7 = AMO) : All (Encodes raw) (decodeAmo raw) := by
  refine all_bind_of fun width hwidth => ?_
  rw [toNat_funct3, amoWidth_eq_some] at hwidth
  have hmasked : ∀ c : BitVec 5, c = raw.extractLsb' 27 5 →
      rType (place 7 2 c) (regBits (rs2 raw)) (regBits (rs1 raw)) (amoFunct3 width)
        (regBits (rd raw)) AMO = raw &&& ~~~0x06000000 := by
    rintro c rfl
    rw [rs1_eq, rs2_eq, rd_eq, regBits_regOf, regBits_regOf, regBits_regOf, hwidth, ← h, amo_masked]
  have hfunct5 : ∀ {word : U32} {c : BitVec 5}, word = place 32 0 c → funct7 raw >>> 2 = word →
      c = raw.extractLsb' 27 5 := by
    intro word c hword heq
    rw [funct5_eq, hword] at heq
    exact ((place_inj (by decide)).mp heq).symm
  refine all_ite_of (fun hcode => ?_) fun _ => all_ite_of (fun hcode => ?_) fun _ => ?_
  · refine all_ite_of (fun _ => all_none) fun hrs2 => all_some ?_
    have hzero : 0 = regBits (rs2 raw) := by
      rw [not_not.mp hrs2]
      rfl
    rw [Encodes, encode, ignored, hzero, hmasked _ (hfunct5 (by decide) hcode)]
  · refine all_some ?_
    rw [Encodes, encode, ignored, hmasked _ (hfunct5 (by decide) hcode)]
  · refine all_map_of fun kind hkind => ?_
    rw [funct5_eq, toNat_place _ (by decide), amoKind_eq_some] at hkind
    rw [Encodes, encode, ignored, hmasked _ hkind]

/-! ### Floating point -/

theorem rm_eq : (funct3 raw).setWidth 8 = place 8 0 (raw.extractLsb' 12 3) := by
  rw [funct3_eq, setWidth_place _ (by decide)]

/-- The function field of a floating-point word. -/
theorem fpFunct_eq {sz : FpSize} (hsz : fmtBits sz = raw.extractLsb' 25 2) :
    fpFunct (raw.extractLsb' 27 5) sz = raw.extractLsb' 25 7 := by
  rw [fpFunct, hsz, place_or_place raw (by rfl) (by rfl)]
  exact place_self _

theorem encodes_fused {op : FpOp} (hop : fusedOpcode op = some opcode)
    (hnone : ∀ sz, fpCode sz op = none) (h : raw.extractLsb' 0 7 = opcode) :
    All (Encodes raw) (decodeFused raw op) := by
  refine all_map_of fun sz hsz => encodes_of_eq rfl ?_
  rw [toNat_field raw 25 (by decide : 2 ≤ 32) (by decide), fpFmt_eq_some] at hsz
  rw [encode, encodeFp, rm_eq, unsigned_place _ (by decide), Option.bind_some, hnone]
  rw [hop, Option.map_some, rs3_eq, regBits_regOf, fpFunct_eq raw hsz, rType_fields raw rfl rfl h]

theorem toNat_fmt : (funct7 raw &&& 0x3).toNat = (raw.extractLsb' 25 2).toNat := by
  rw [funct7_eq, and_place (k := 2) _ (by decide : _ = place 32 0 _),
    extract_place _ (by decide) (by decide) (by decide), extract_extract raw (by decide),
    toNat_place _ (by decide)]

theorem encodes_opFp (h : raw.extractLsb' 0 7 = OP_FP) : All (Encodes raw) (decodeOpFp raw) := by
  refine all_bind_of fun sz hsz => ?_
  rw [toNat_fmt, fpFmt_eq_some] at hsz
  refine all_map_of fun kind hkind => encodes_of_eq rfl ?_
  have hrs2 : (rs2 raw).val = (raw.extractLsb' 20 5).toNat := by
    rw [rs2_eq]
    rfl
  rw [funct5_eq, toNat_place _ (by decide), toNat_funct3, hrs2, toNat_fmt, ← hsz,
    fpKind_eq_some] at hkind
  obtain ⟨code, hcode⟩ := hkind
  rw [encode, encodeFp, rm_eq, unsigned_place _ (by decide), Option.bind_some, hcode.code_eq]
  dsimp only
  have hfixed : (0 : Reg) = 0 ∧ code.rs2.getD (regBits (rs2 raw)) = regBits (rs2 raw) ∧
      code.rm.getD (raw.extractLsb' 12 3) = raw.extractLsb' 12 3 := by
    rw [rs2_eq, regBits_regOf]
    exact ⟨rfl, hcode.rs2_eq, hcode.rm_eq⟩
  rw [if_pos hfixed, hcode.funct5_eq, fpFunct_eq raw hsz, rType_fields raw rfl rfl h]

/-- Every operation the decoder answers stands for the word. -/
theorem encodes_decode32 : All (Encodes raw) (decode32 raw) := by
  have hupper : ∀ {opcode : BitVec 7}, raw.extractLsb' 0 7 = opcode →
      (upper (immU raw)).map (uType · (regBits (rd raw)) opcode) = some raw := by
    intro opcode h
    rw [immU_eq, upper_signExtend, Option.map_some, rd_eq, regBits_regOf, ← h, uType_uImm]
  refine all_opcode LUI (fun h => all_some (encodes_of_eq rfl ?_)) ?_
  · rw [encode, hupper h]
  refine all_opcode AUIPC (fun h => all_some (encodes_of_eq rfl ?_)) ?_
  · rw [encode, hupper h]
  refine all_opcode JAL (fun h => all_some (encodes_of_eq rfl ?_)) ?_
  · have heven : (jImm raw).getLsbD 0 = false := by
      simp only [jImm, BitVec.getLsbD_or, getLsbD_place]
      rfl
    rw [encode, immJ_eq, offset_signExtend (by decide) (by decide) heven, Option.map_some, rd_eq,
      regBits_regOf, ← h, jType_jImm]
  refine all_opcode JALR (fun h => all_ite_of
    (fun hcode => all_some (encodes_of_eq rfl ?_)) fun _ => all_none) ?_
  · rw [encode, map_signed_immI, iType_fields raw (extract_funct3 (by decide) hcode).symm h]
  refine all_opcode BRANCH (fun h => all_map_of fun cond hcond => encodes_of_eq rfl ?_) ?_
  · have heven : (bImm raw).getLsbD 0 = false := by
      simp only [bImm, BitVec.getLsbD_or, getLsbD_place]
      rfl
    rw [toNat_funct3, branchCond_eq_some] at hcond
    rw [encode, immB_eq, offset_signExtend (by decide) (by decide) heven, Option.map_some, rs1_eq,
      rs2_eq, regBits_regOf, regBits_regOf, hcond, ← h, bType_bImm]
  refine all_opcode LOAD (fun h => all_map_of fun kind hkind => encodes_of_eq rfl ?_) ?_
  · rw [toNat_funct3, loadKind_eq_some] at hkind
    rw [encode, map_signed_immI, iType_fields raw hkind h]
  refine all_opcode STORE (fun h => all_map_of fun kind hkind => encodes_of_eq rfl ?_) ?_
  · rw [toNat_funct3, storeKind_eq_some] at hkind
    rw [encode, map_signed_immS, sType_fields raw hkind h]
  refine all_opcode OP_IMM (encodes_opImm raw) ?_
  refine all_opcode OP_IMM_32 (encodes_opImm32 raw) ?_
  refine all_opcode OP (encodes_op raw) ?_
  refine all_opcode OP_32 (encodes_op32 raw) ?_
  refine all_opcode MISC_MEM (fun h => all_ite_of (fun hcode => all_some ?_) fun _ =>
    all_ite_of (fun hcode => all_some ?_) fun _ => all_none) ?_
  · rw [Encodes, encode, ignored, fence_masked, extract_funct3 (c := 0) (by decide) hcode, h]
    decide
  · rw [Encodes, encode, ignored, fence_masked, extract_funct3 (c := 1) (by decide) hcode, h]
    decide
  refine all_opcode SYSTEM (encodes_system raw) ?_
  refine all_opcode AMO (encodes_amo raw) ?_
  refine all_opcode LOAD_FP (fun h => all_map_of fun sz hsz => encodes_of_eq rfl ?_) ?_
  · rw [toNat_funct3, fpMemSize_eq_some] at hsz
    rw [encode, map_signed_immI, iType_fields raw hsz h]
  refine all_opcode STORE_FP (fun h => all_map_of fun sz hsz => encodes_of_eq rfl ?_) ?_
  · rw [toNat_funct3, fpMemSize_eq_some] at hsz
    rw [encode, map_signed_immS, sType_fields raw hsz h]
  refine all_opcode _ (encodes_fused raw rfl fun _ => rfl) ?_
  refine all_opcode _ (encodes_fused raw rfl fun _ => rfl) ?_
  refine all_opcode _ (encodes_fused raw rfl fun _ => rfl) ?_
  refine all_opcode _ (encodes_fused raw rfl fun _ => rfl) ?_
  exact all_opcode OP_FP (encodes_opFp raw) all_none

end

end Decode

end EmulateComputer

import EmulateComputer.Cpu.DecodeExact

/-!
# DecodeInverse — the decoder of 32-bit instructions inverts the encoder

The converse of `encodes_decode32`: the word of an operation is decoded to that operation, whatever
its ignored bits are.  Words of one format are taken together, so the proof again has one lemma for
each opcode, and the cases of an operation's kind only pick the entry of a table.
-/

namespace EmulateComputer

namespace Decode

open BitFields Encode

/-! ## Immediates -/

variable {imm : U64} {d s : Reg} {n : Nat} {b : BitVec n} {kind : AluOp} {op : FpOp}

theorem signed_eq_some (h : signed n imm = some b) : b.signExtend 64 = imm := by
  unfold signed at h
  split at h
  · cases h
    assumption
  · cases h

theorem unsigned_eq_some {w : Nat} {imm : BitVec w} (h : unsigned n imm = some b) :
    place w 0 b = imm := by
  unfold unsigned at h
  split at h
  · cases h
    rw [place, BitVec.shiftLeft_zero]
    assumption
  · cases h

theorem offset_eq_some (hn : 0 < n) (h : offset n imm = some b) :
    b.getLsbD 0 = false ∧ b.signExtend 64 = imm := by
  unfold offset at h
  split at h
  · cases h
  · rename_i heven
    have himm := signed_eq_some h
    refine ⟨?_, himm⟩
    rw [← himm, getLsbD_signExtend_of_lt b (by omega), if_pos hn] at heven
    simpa using heven

theorem upper_eq_some {b : BitVec 20} (h : upper imm = some b) :
    (place 32 12 b).signExtend 64 = imm := by
  unfold upper at h
  split at h
  · cases h
    assumption
  · cases h

variable {raw : U32} {opcode : BitVec 7} {sz : FpSize}

/-! ### OP-IMM and OP-IMM-32 -/

theorem decode32_of_encodeOpImm (h : encodeOpImm kind d s imm = some raw) :
    decode32 raw = some (.opImm kind d s imm) := by
  have harith : ∀ f : BitVec 3, opImmKind f.toNat = some kind → f ≠ 1 → f ≠ 5 →
      (signed 12 imm).map (fun imm => iType imm (regBits s) f (regBits d) OP_IMM) = some raw →
      decode32 raw = some (.opImm kind d s imm) := by
    intro f hkind h1 h5 henc
    obtain ⟨b, hb, rfl⟩ := Option.map_eq_some_iff.mp henc
    rw [decode32, opcode_eq, opcode_iType, decodeOpImm_iType, if_neg h1, if_neg h5, hkind,
      Option.map_some, signed_eq_some hb]
    rfl
  cases kind with
  | add => exact harith 0 rfl (by decide) (by decide) h
  | slt => exact harith 2 rfl (by decide) (by decide) h
  | sltu => exact harith 3 rfl (by decide) (by decide) h
  | xor => exact harith 4 rfl (by decide) (by decide) h
  | or => exact harith 6 rfl (by decide) (by decide) h
  | and => exact harith 7 rfl (by decide) (by decide) h
  | sll | srl | sra =>
    obtain ⟨shamt, hshamt, rfl⟩ := Option.map_eq_some_iff.mp h
    rw [shift64, decode32, opcode_eq, opcode_iType, decodeOpImm_iType,
      extract_upper _ _ (by decide) (by decide), extract_lower _ _ (by decide) (by decide),
      unsigned_eq_some hshamt]
    rfl
  | _ => cases h

theorem iType_of_rType (f7 : BitVec 7) (b2 b1 : BitVec 5) (f : BitVec 3) (d : BitVec 5)
    (o : BitVec 7) : rType f7 b2 b1 f d o = iType (place 12 5 f7 ||| place 12 0 b2) b1 f d o := by
  rw [iType, extract_upper _ _ (by decide) (by decide), extract_lower _ _ (by decide) (by decide)]

theorem decodeOpImm32_iType (imm : BitVec 12) (b1 : BitVec 5) (f : BitVec 3) (d : BitVec 5)
    (o : BitVec 7) :
    decodeOpImm32 (iType imm b1 f d o) =
      if f = 0 then some (.opImm32 .add (regOf d) (regOf b1) (imm.signExtend 64))
      else if f = 1 then
        if imm.extractLsb' 5 7 = 0 then
          some (.opImm32 .sll (regOf d) (regOf b1) (place 64 0 (imm.extractLsb' 0 5)))
        else if imm.extractLsb' 5 7 = 0x30 then
          (countWKind (imm.extractLsb' 0 5).toNat).map fun kind =>
            .bitUnary kind (regOf d) (regOf b1)
        else none
      else if f = 5 then
        if imm.extractLsb' 5 7 = 0 then
          some (.opImm32 .srl (regOf d) (regOf b1) (place 64 0 (imm.extractLsb' 0 5)))
        else if imm.extractLsb' 5 7 = 0x20 then
          some (.opImm32 .sra (regOf d) (regOf b1) (place 64 0 (imm.extractLsb' 0 5)))
        else if imm.extractLsb' 5 7 = 0x30 then
          some (.bitImm .roriw (regOf d) (regOf b1) (place 32 0 (imm.extractLsb' 0 5)))
        else none
      else none := by
  have hfunct7 : ∀ (word : U32) (c : BitVec 7), word = place 32 0 c →
      (funct7 (iType imm b1 f d o) = word ↔ imm.extractLsb' 5 7 = c) := by
    intro word c hword
    rw [funct7_eq, iType, Encode.funct7_rType, hword, place_inj (by decide)]
  have hshamt : field (iType imm b1 f d o) 20 0x1f = place 32 0 (imm.extractLsb' 0 5) := by
    rw [shamt5_eq, extract_imm imm b1 f d o (by decide : 0 + 5 ≤ 12)]
  unfold decodeOpImm32
  simp only [funct3_iType imm b1 f d o 0 0 (by decide), funct3_iType imm b1 f d o 1 1 (by decide),
    funct3_iType imm b1 f d o 5 5 (by decide), hfunct7 0 0 (by decide),
    hfunct7 0x20 0x20 (by decide), hfunct7 0x30 0x30 (by decide), hshamt,
    setWidth_place _ (.inl (by decide : 0 + 5 ≤ 32)), toNat_place _ (by decide : 5 ≤ 32), rd_iType,
    rs1_iType, immI_iType]

theorem decode32_of_encodeOpImm32 (h : encodeOpImm32 kind d s imm = some raw) :
    decode32 raw = some (.opImm32 kind d s imm) := by
  cases kind with
  | add =>
    obtain ⟨b, hb, rfl⟩ := Option.map_eq_some_iff.mp h
    rw [decode32, opcode_eq, opcode_iType, decodeOpImm32_iType, signed_eq_some hb]
    rfl
  | sll | srl | sra =>
    obtain ⟨shamt, hshamt, rfl⟩ := Option.map_eq_some_iff.mp h
    rw [iType_of_rType, decode32, opcode_eq, opcode_iType, decodeOpImm32_iType,
      extract_upper _ _ (by decide) (by decide), extract_lower _ _ (by decide) (by decide),
      unsigned_eq_some hshamt]
    rfl
  | _ => cases h

theorem decode32_of_encodeBitImm {kind : BitImmOp} {imm : U32}
    (h : encodeBitImm kind d s imm = some raw) : decode32 raw = some (.bitImm kind d s imm) := by
  cases kind with
  | rori =>
    obtain ⟨shamt, hshamt, rfl⟩ := Option.map_eq_some_iff.mp h
    rw [decode32, opcode_eq, opcode_iType, decodeOpImm_iType,
      extract_upper _ _ (by decide) (by decide), extract_lower _ _ (by decide) (by decide),
      unsigned_eq_some hshamt]
    rfl
  | roriw =>
    obtain ⟨shamt, hshamt, rfl⟩ := Option.map_eq_some_iff.mp h
    rw [iType_of_rType, decode32, opcode_eq, opcode_iType, decodeOpImm32_iType,
      extract_upper _ _ (by decide) (by decide), extract_lower _ _ (by decide) (by decide),
      unsigned_eq_some hshamt]
    rfl
  | aes64ks1i =>
    simp only [encodeBitImm] at h
    split at h
    · rename_i hle
      cases h
      have hround : place 32 0 (imm.setWidth 4) = imm := by
        rw [place, BitVec.shiftLeft_zero]
        bv_omega
      -- The upper six bits of the immediate belong to no shift.
      have hcode : (place 12 4 (0x31 : BitVec 8) ||| place 12 0 (imm.setWidth 4)).extractLsb' 6 6 =
          0x0c := by
        rw [BitVec.extractLsb'_or, extract_place _ (by decide) (by decide) (by decide),
          extract_place_of_disjoint _ (by decide)]
        decide
      rw [decode32, opcode_eq, opcode_iType, decodeOpImm_iType, hcode, decodeOpImmBit_iType,
        extract_upper _ _ (by decide) (by decide), extract_lower _ _ (by decide) (by decide),
        hround, if_neg (BitVec.not_lt.mpr hle)]
      rfl
    · cases h

theorem decode32_bitUnary (kind : BitUnaryOp) (d s : Reg) :
    decode32 (iType (bitUnaryFunct kind).2.1 (regBits s) (bitUnaryFunct kind).2.2 (regBits d)
      (bitUnaryFunct kind).1) = some (.bitUnary kind d s) := by
  cases kind with
  | clzw | ctzw | cpopw =>
    rw [decode32, opcode_eq, opcode_iType, decodeOpImm32_iType]
    rfl
  | _ =>
    rw [decode32, opcode_eq, opcode_iType, decodeOpImm_iType, decodeOpImmBit_iType]
    rfl

/-! ### OP and OP-32 -/

theorem decode32_opReg (kind : AluOp) (d s t : Reg) :
    decode32 (rType (aluFunct kind).1 (regBits t) (regBits s) (aluFunct kind).2 (regBits d) OP) =
      some (.opReg kind d s t) := by
  have hkind : opRegKind (aluFunct kind).1.toNat (aluFunct kind).2.toNat = some kind :=
    opRegKind_eq_some.mpr rfl
  rw [decode32, opcode_eq, opcode_rType, decodeOp, toNat_funct7_rType, toNat_funct3_rType, hkind,
    rd_rType, rs1_rType, rs2_rType]
  rfl

theorem decode32_opReg32 (hword : hasWordForm kind = true) (d s t : Reg) :
    decode32 (rType (aluFunct kind).1 (regBits t) (regBits s) (aluFunct kind).2 (regBits d) OP_32) =
      some (.opReg32 kind d s t) := by
  have hkind : opReg32Kind (aluFunct kind).1.toNat (aluFunct kind).2.toNat = some kind :=
    opReg32Kind_eq_some.mpr ⟨hword, rfl⟩
  rw [decode32, opcode_eq, opcode_rType, decodeOp32, toNat_funct7_rType, toNat_funct3_rType, hkind,
    rd_rType, rs1_rType, rs2_rType]
  rfl

/-- No bit manipulation shares its codes with an integer operation. -/
theorem opRegKind_bitFunct (kind : BitOp) :
    opRegKind (bitFunct kind).2.1.toNat (bitFunct kind).2.2.toNat = none := by
  cases kind <;> rfl

theorem opReg32Kind_bitFunct (kind : BitOp) :
    opReg32Kind (bitFunct kind).2.1.toNat (bitFunct kind).2.2.toNat = none := by
  cases kind <;> rfl

theorem decode32_bit (kind : BitOp) (d s t : Reg) :
    decode32 (rType (bitFunct kind).2.1 (regBits t) (regBits s) (bitFunct kind).2.2 (regBits d)
      (bitFunct kind).1) = some (.bit kind d s t) := by
  obtain ⟨w, hw⟩ : ∃ w, (bitFunct kind).1 = opcodeOf w := by
    cases kind <;> first | exact ⟨false, rfl⟩ | exact ⟨true, rfl⟩
  rw [hw]
  have hbit : decodeOpBit (rType (bitFunct kind).2.1 (regBits t) (regBits s) (bitFunct kind).2.2
      (regBits d) (opcodeOf w)) w = some (.bit kind d s t) := by
    rw [decodeOpBit, toNat_funct7_rType, toNat_funct3_rType,
      opBitKind_eq_some.mpr (Prod.ext hw rfl), rd_rType, rs1_rType, rs2_rType]
    rfl
  cases w with
  | false =>
    rw [decode32, opcode_eq, opcode_rType, decodeOp, toNat_funct7_rType,
      toNat_funct3_rType, opRegKind_bitFunct]
    exact hbit
  | true =>
    rw [decode32, opcode_eq, opcode_rType, decodeOp32, toNat_funct7_rType,
      toNat_funct3_rType, opReg32Kind_bitFunct]
    exact hbit

/-! ### SYSTEM -/

theorem decode32_csr (kind : CsrOp) (d s : Reg) (csr : CsrAddr) :
    decode32 (iType csr (regBits s) (csrFunct3 kind) (regBits d) SYSTEM) =
      some (.csr kind d s csr) := by
  have hcode : csrFunct3 kind ≠ 0 := by
    cases kind <;> decide
  rw [decode32, opcode_eq, opcode_iType]
  change decodeSystem _ = _
  rw [decodeSystem, if_neg (mt (funct3_iType csr _ _ _ _ 0 0 (by decide)).mp hcode),
    toNat_funct3_iType, csrKind_eq_some.mpr rfl, funct12_iType, setWidth_place _ (by decide),
    place_self, rd_iType, rs1_iType]
  rfl

theorem decode32_sfenceVma (s t : Reg) :
    decode32 (rType 0x09 (regBits t) (regBits s) 0 0 SYSTEM) = some (.sfenceVma s t) := by
  have hcode7 : (rType 0x09 (regBits t) (regBits s) 0 0 SYSTEM).extractLsb' 25 7 = 0x09 :=
    Encode.funct7_rType ..
  -- The fixed words of SYSTEM have other upper bits.
  have hne : ∀ word : U32, word.extractLsb' 25 7 ≠ 0x09 →
      rType 0x09 (regBits t) (regBits s) 0 0 SYSTEM ≠ word := by
    rintro word hword rfl
    exact hword hcode7
  have hfunct3 : funct3 (rType 0x09 (regBits t) (regBits s) 0 0 SYSTEM) = 0 := by
    rw [funct3_eq, Encode.funct3_rType]
    decide
  have hfunct7 : funct7 (rType 0x09 (regBits t) (regBits s) 0 0 SYSTEM) = 0x09 := by
    rw [funct7_eq, hcode7]
    decide
  rw [decode32, opcode_eq, opcode_rType]
  change decodeSystem _ = _
  rw [decodeSystem, if_pos hfunct3, if_neg (hne _ (by decide)), if_neg (hne _ (by decide)),
    if_neg (hne _ (by decide)), if_neg (hne _ (by decide)), if_neg (hne _ (by decide)), hfunct7,
    rd_rType, rs1_rType, rs2_rType]
  rfl

/-! ### Words with ignored bits -/

/-- A field outside the ignored bits is the one of the masked word. -/
theorem extract_of_masked {word mask : U32} {start len : Nat} (h : word = raw &&& ~~~mask)
    (hmask : (~~~mask).extractLsb' start len = BitVec.allOnes len) :
    raw.extractLsb' start len = word.extractLsb' start len := by
  rw [h, BitVec.extractLsb'_and, hmask, BitVec.and_allOnes]

theorem decode32_of_miscMem {c : BitVec 3} (h : iType 0 0 c 0 MISC_MEM = raw &&& ~~~0xffff8f80) :
    decode32 raw = if place 32 0 c = 0 then some .fence
      else if place 32 0 c = 1 then some .fenceI else none := by
  have hopcode : raw.extractLsb' 0 7 = MISC_MEM :=
    (extract_of_masked h (by decide)).trans (opcode_iType ..)
  have hcode : raw.extractLsb' 12 3 = c :=
    (extract_of_masked h (by decide)).trans (Encode.funct3_rType ..)
  rw [decode32, opcode_eq, hopcode, funct3_eq, hcode]
  rfl

section Halves

variable (c : BitVec 5) (low : BitVec 2) (b2 b1 : BitVec 5) (f : BitVec 3) (d : BitVec 5)
  (o : BitVec 7)

theorem funct5_rType :
    (rType (place 7 2 c ||| place 7 0 low) b2 b1 f d o).extractLsb' 27 5 = c := by
  refine (extract_extract _ (by decide : 2 + 5 ≤ 7)).symm.trans ?_
  rw [Encode.funct7_rType, extract_upper _ _ (by decide) (by decide)]

theorem fmt_rType : (rType (place 7 2 c ||| place 7 0 low) b2 b1 f d o).extractLsb' 25 2 = low := by
  refine (extract_extract _ (by decide : 0 + 2 ≤ 7)).symm.trans ?_
  rw [Encode.funct7_rType, extract_lower _ _ (by decide) (by decide)]

end Halves

/-- The decoder on an atomic, whatever its ordering bits. -/
theorem decode32_of_amo {c b2 b1 d : BitVec 5} {width : AmoWidth}
    (h : rType (place 7 2 c) b2 b1 (amoFunct3 width) d AMO = raw &&& ~~~0x06000000) :
    decode32 raw =
      if c = 2 then
        if regOf b2 ≠ 0 then none else some (.lr width (regOf d) (regOf b1))
      else if c = 3 then some (.sc width (regOf d) (regOf b1) (regOf b2))
      else (amoKind c.toNat).map fun op => .amo op width (regOf d) (regOf b1) (regOf b2) := by
  have hopcode : raw.extractLsb' 0 7 = AMO :=
    (extract_of_masked h (by decide)).trans (opcode_rType ..)
  have hd : rd raw = regOf d := by
    rw [rd_eq, extract_of_masked h (by decide), Encode.rd_rType]
  have hb1 : rs1 raw = regOf b1 := by
    rw [rs1_eq, extract_of_masked h (by decide), Encode.rs1_rType]
  have hb2 : rs2 raw = regOf b2 := by
    rw [rs2_eq, extract_of_masked h (by decide), Encode.rs2_rType]
  have hwidth : (funct3 raw).toNat = (amoFunct3 width).toNat := by
    rw [toNat_funct3, extract_of_masked h (by decide), Encode.funct3_rType]
  have hc : raw.extractLsb' 27 5 = c := by
    have hlow : place 7 2 c = place 7 2 c ||| place 7 0 (0#2) := by
      rw [place_zero, BitVec.or_zero]
    rw [extract_of_masked h (by decide), hlow, funct5_rType]
  have hfunct5 : ∀ (word : U32) (k : BitVec 5), word = place 32 0 k →
      (funct7 raw >>> 2 = word ↔ c = k) := by
    intro word k hword
    rw [funct5_eq, hc, hword, place_inj (by decide)]
  rw [decode32, opcode_eq, hopcode]
  change decodeAmo raw = _
  rw [decodeAmo, hwidth, amoWidth_eq_some.mpr rfl, Option.bind_some]
  simp only [hfunct5 2 2 (by decide), hfunct5 3 3 (by decide), hd, hb1, hb2]
  rw [funct5_eq, hc, toNat_place _ (by decide)]

/-! ### Floating point -/

theorem decode32_fused (hop : fusedOpcode op = some opcode)
    (h : raw.extractLsb' 0 7 = opcode) : decode32 raw = decodeFused raw op := by
  rw [decode32, opcode_eq, h]
  cases op <;> cases hop <;> rfl

theorem decode32_of_fused (hop : fusedOpcode op = some opcode) (sz : FpSize)
    (d s t u : Reg) (rm : BitVec 3) :
    decode32 (rType (fpFunct (regBits u) sz) (regBits t) (regBits s) rm (regBits d) opcode) =
      some (.fp op sz d s t u (place 8 0 rm)) := by
  have hsz : fpFmt (fmtBits sz).toNat = some sz := fpFmt_eq_some.mpr rfl
  rw [decode32_fused hop (opcode_rType ..), decodeFused,
    toNat_field _ 25 (by decide : 2 ≤ 32) (by decide), fpFunct, fmt_rType, hsz, Option.map_some,
    rm_eq, Encode.funct3_rType, rd_rType, rs1_rType, rs2_rType, rs3_eq, funct5_rType]
  rfl

theorem decode32_of_fp {code : FpCode} {rm : BitVec 3} {t : Reg}
    (hcode : FpMatches sz op code.funct5 (regBits t) rm code) (d s : Reg) :
    decode32 (rType (fpFunct code.funct5 sz) (regBits t) (regBits s) rm (regBits d) OP_FP) =
      some (.fp op sz d s t 0 (place 8 0 rm)) := by
  have hsz : fpFmt (fmtBits sz).toNat = some sz := fpFmt_eq_some.mpr rfl
  have hkind : fpKind code.funct5.toNat rm.toNat (regBits t).toNat (fmtBits sz).toNat = some op :=
    fpKind_eq_some.mpr ⟨code, hcode⟩
  rw [decode32, opcode_eq, opcode_rType, decodeOpFp, fpFunct, toNat_fmt, fmt_rType, hsz,
    Option.bind_some, funct5_eq, funct5_rType, toNat_place _ (by decide), toNat_funct3_rType, rm_eq,
    Encode.funct3_rType, rd_rType, rs1_rType, rs2_rType]
  change (fpKind code.funct5.toNat rm.toNat (regBits t).toNat (fmtBits sz).toNat).map _ = _
  rw [hkind]
  rfl

theorem decode32_of_encodeFp {t u : Reg} {rm : U8}
    (h : encodeFp op sz d s t u rm = some raw) : decode32 raw = some (.fp op sz d s t u rm) := by
  obtain ⟨narrow, hrm, hraw⟩ := Option.bind_eq_some_iff.mp h
  rw [← unsigned_eq_some hrm]
  cases hcode : fpCode sz op with
  | some code =>
    rw [hcode] at hraw
    dsimp only at hraw
    split at hraw
    · rename_i hfixed
      obtain ⟨rfl, hrs2, hmode⟩ := hfixed
      cases hraw
      exact decode32_of_fp ⟨hcode, rfl, hrs2, hmode⟩ d s
    · cases hraw
  | none =>
    rw [hcode] at hraw
    obtain ⟨opcode, hop, rfl⟩ := Option.map_eq_some_iff.mp hraw
    exact decode32_of_fused hop sz d s t u narrow

/-! ## Every operation -/

variable {op : Op}

/-- A word that stands for an operation without ignored bits is its encoding. -/
theorem encode_of_encodes (h : Encodes raw op) (hignored : ignored op = 0) :
    encode op = some raw := by
  rw [h, hignored]
  congr 1
  exact BitVec.and_allOnes

/-- The word of an operation is decoded to that operation. -/
theorem decode32_of_encodes (h : Encodes raw op) : decode32 raw = some op := by
  have henc := encode_of_encodes h
  cases op with
  | lui d imm | auipc d imm =>
    obtain ⟨b, hb, rfl⟩ := Option.map_eq_some_iff.mp (henc rfl)
    rw [decode32, immU_uType, upper_eq_some hb, uType, opcode_eq, opcode_rType, rd_rType]
    rfl
  | jal d imm =>
    obtain ⟨b, hb, rfl⟩ := Option.map_eq_some_iff.mp (henc rfl)
    obtain ⟨heven, himm⟩ := offset_eq_some (by decide) hb
    rw [decode32, immJ_jType _ _ heven, himm, jType, opcode_eq, opcode_rType, rd_rType]
    rfl
  | jalr d s imm =>
    obtain ⟨b, hb, rfl⟩ := Option.map_eq_some_iff.mp (henc rfl)
    rw [decode32, immI_iType, signed_eq_some hb, iType, opcode_eq, opcode_rType, funct3_eq,
      Encode.funct3_rType, rd_rType, rs1_rType]
    rfl
  | branch cond s t imm =>
    obtain ⟨b, hb, rfl⟩ := Option.map_eq_some_iff.mp (henc rfl)
    obtain ⟨heven, himm⟩ := offset_eq_some (by decide) hb
    have hcond : branchCond (branchFunct3 cond).toNat = some cond := branchCond_eq_some.mpr rfl
    rw [decode32, immB_bType _ _ _ _ heven, himm, bType, opcode_eq, opcode_rType,
      toNat_funct3_rType, hcond, rs1_rType, rs2_rType]
    rfl
  | load kind d s imm =>
    obtain ⟨b, hb, rfl⟩ := Option.map_eq_some_iff.mp (henc rfl)
    have hkind : loadKind (loadFunct3 kind).toNat = some kind := loadKind_eq_some.mpr rfl
    rw [decode32, immI_iType, signed_eq_some hb, iType, opcode_eq, opcode_rType,
      toNat_funct3_rType, hkind, rd_rType, rs1_rType]
    rfl
  | store kind s t imm =>
    obtain ⟨b, hb, rfl⟩ := Option.map_eq_some_iff.mp (henc rfl)
    have hkind : storeKind (storeFunct3 kind).toNat = some kind := storeKind_eq_some.mpr rfl
    rw [decode32, immS_sType, signed_eq_some hb, sType, opcode_eq, opcode_rType,
      toNat_funct3_rType, hkind, rs1_rType, rs2_rType]
    rfl
  | opImm kind d s imm => exact decode32_of_encodeOpImm (henc rfl)
  | opImm32 kind d s imm => exact decode32_of_encodeOpImm32 (henc rfl)
  | opReg kind d s t =>
    cases henc rfl
    exact decode32_opReg kind d s t
  | opReg32 kind d s t =>
    obtain ⟨hword, hraw⟩ := Option.ite_none_right_eq_some.mp (henc rfl)
    cases hraw
    exact decode32_opReg32 hword d s t
  | bit kind d s t =>
    cases henc rfl
    exact decode32_bit kind d s t
  | bitUnary kind d s =>
    cases henc rfl
    exact decode32_bitUnary kind d s
  | bitImm kind d s imm => exact decode32_of_encodeBitImm (henc rfl)
  | fence | fenceI => exact decode32_of_miscMem (Option.some.inj h)
  | ecall | ebreak | mret | sret | wfi =>
    cases henc rfl
    decide
  | csr kind d s csr =>
    cases henc rfl
    exact decode32_csr kind d s csr
  | sfenceVma s t =>
    cases henc rfl
    exact decode32_sfenceVma s t
  | lr width d s | sc width d s t =>
    rw [decode32_of_amo (Option.some.inj h)]
    rfl
  | amo op width d s t =>
    rw [decode32_of_amo (Option.some.inj h)]
    cases op <;> rfl
  | fpLoad sz d s imm =>
    obtain ⟨b, hb, rfl⟩ := Option.map_eq_some_iff.mp (henc rfl)
    have hsz : fpMemSize (fpWidth sz).toNat = some sz := fpMemSize_eq_some.mpr rfl
    rw [decode32, immI_iType, signed_eq_some hb, iType, opcode_eq, opcode_rType,
      toNat_funct3_rType, hsz, rd_rType, rs1_rType]
    rfl
  | fpStore sz s t imm =>
    obtain ⟨b, hb, rfl⟩ := Option.map_eq_some_iff.mp (henc rfl)
    have hsz : fpMemSize (fpWidth sz).toNat = some sz := fpMemSize_eq_some.mpr rfl
    rw [decode32, immS_sType, signed_eq_some hb, sType, opcode_eq, opcode_rType,
      toNat_funct3_rType, hsz, rs1_rType, rs2_rType]
    rfl
  | fp op sz d s t u rm => exact decode32_of_encodeFp (henc rfl)

theorem decode32_eq_some : decode32 raw = some op ↔ Encodes raw op :=
  ⟨encodes_decode32 raw op, decode32_of_encodes⟩

end Decode

/-! ## Ranges -/

open BitFields Encode

def AluOp.isShift : AluOp → Bool
  | .sll | .srl | .sra => true
  | _ => false

/-- Shift amounts, round numbers and rounding modes the executor has a case for; register numbers
are in range by their type. -/
def Op.InRange : Op → Prop
  | .opImm kind _ _ imm => kind.isShift → imm.toNat < 64
  | .opImm32 kind _ _ imm => hasWordForm kind ∧ (kind.isShift → imm.toNat < 32)
  | .opReg32 kind _ _ _ => hasWordForm kind
  | .bitImm .rori _ _ imm => imm.toNat < 64
  | .bitImm .roriw _ _ imm => imm.toNat < 32
  | .bitImm .aes64ks1i _ _ imm => imm.toNat ≤ 10
  | .fp _ _ _ _ _ _ rm => rm.toNat < 8
  | _ => True

namespace Decode

variable {raw : U32}

theorem lt_of_unsigned {n w : Nat} {imm : BitVec w} {b : BitVec n} (h : unsigned n imm = some b)
    (hn : n ≤ w) : imm.toNat < 2 ^ n := by
  rw [← unsigned_eq_some h, toNat_place b hn]
  exact b.isLt

theorem lt_of_map_unsigned {n w : Nat} {imm : BitVec w} {f : BitVec n → U32}
    (h : (unsigned n imm).map f = some raw) (hn : n ≤ w) : imm.toNat < 2 ^ n := by
  obtain ⟨b, hb, -⟩ := Option.map_eq_some_iff.mp h
  exact lt_of_unsigned hb hn

/-- Only operations in range have an encoding. -/
theorem inRange_of_encode {op : Op} (h : encode op = some raw) : op.InRange := by
  cases op with
  | opImm kind d s imm =>
    intro hshift
    cases kind <;> cases hshift <;> exact lt_of_map_unsigned h (by decide)
  | opImm32 kind d s imm =>
    have hword : hasWordForm kind = true := by
      cases kind <;> first | rfl | cases h
    refine ⟨hword, fun hshift => ?_⟩
    cases kind <;> cases hshift <;> exact lt_of_map_unsigned h (by decide)
  | opReg32 kind d s t => exact (Option.ite_none_right_eq_some.mp h).1
  | bitImm kind d s imm =>
    cases kind with
    | rori | roriw => exact lt_of_map_unsigned h (by decide)
    | aes64ks1i => exact BitVec.le_def.mp (Option.ite_none_right_eq_some.mp h).1
  | fp op sz d s t u rm =>
    obtain ⟨b, hb, -⟩ := Option.bind_eq_some_iff.mp h
    exact lt_of_unsigned hb (by decide)
  | _ => trivial

/-- The matches of the decoder on a function code have an arm for every code left to them. -/
structure ArmsCovered (raw : U32) : Prop where
  opImm : funct3 raw ≠ 1 → funct3 raw ≠ 5 → (opImmKind (funct3 raw).toNat).isSome
  csr : funct3 raw ≠ 0 → funct3 raw ≠ 4 → (csrKind (funct3 raw).toNat).isSome

theorem armsCovered (raw : U32) : ArmsCovered raw := by
  have hcodes : ∀ c : BitVec 3,
      (place 32 0 c ≠ 1 → place 32 0 c ≠ 5 → (opImmKind c.toNat).isSome) ∧
        (place 32 0 c ≠ 0 → place 32 0 c ≠ 4 → (csrKind c.toNat).isSome) := by
    decide
  have hcode := hcodes (raw.extractLsb' 12 3)
  rw [← toNat_funct3, ← funct3_eq] at hcode
  exact ⟨hcode.1, hcode.2⟩

/-- The rounding mode an instruction executes with is one of the five. -/
theorem toNat_le_of_resolveRm {cpu : Cpu} {rm eff : U8} (h : Fpu.resolveRm cpu raw rm = .ok eff) :
    eff.toNat ≤ 4 := by
  simp only [Fpu.resolveRm] at h
  generalize (if rm = 7 then (cpu.csr.loadRaw Csr.FRM).setWidth 8 else rm) = mode at h
  split at h
  · cases h
  · rename_i hvalid
    cases h
    exact BitVec.le_def.mp (BitVec.not_lt.mp fun hlt => hvalid (Or.inr (Or.inr hlt)))

theorem decode_of_low (h : raw &&& 3 = 3) {inst : DecodedInst} :
    decode raw = some inst ↔ inst.len = 4 ∧ Encodes raw inst.op := by
  rw [decode, if_pos h, Option.map_eq_some_iff]
  constructor
  · rintro ⟨op, hop, rfl⟩
    exact ⟨rfl, decode32_eq_some.mp hop⟩
  · rintro ⟨hlen, hop⟩
    refine ⟨inst.op, decode32_eq_some.mpr hop, ?_⟩
    rw [← hlen]

/-- A 32-bit word decodes exactly to the operation it encodes, which lies in the ranges the
executor and the bit-manipulation helpers rely on. -/
theorem decode_exact (raw : U32) (h : raw &&& 3 = 3) :
    (∀ inst, decode raw = some inst ↔
      inst.len = 4 ∧ encode inst.op = some (raw &&& ~~~ignored inst.op)) ∧
    (∀ inst, decode raw = some inst → inst.op.InRange) ∧
    (∀ inst d s rnum, decode raw = some inst → inst.op = .bitImm .aes64ks1i d s rnum → rnum ≠ 0xa →
      rnum.toNat < 10) ∧
    ArmsCovered raw ∧
    (∀ cpu rm eff, Fpu.resolveRm cpu raw rm = .ok eff → eff.toNat ≤ 4) := by
  have hrange : ∀ inst, decode raw = some inst → inst.op.InRange := by
    intro inst hinst
    exact inRange_of_encode ((decode_of_low h).mp hinst).2
  refine ⟨fun inst => decode_of_low h, hrange, ?_, armsCovered raw,
    fun cpu rm eff => toNat_le_of_resolveRm⟩
  intro inst d s rnum hinst hop hne
  have hle : rnum.toNat ≤ 10 := by
    have hin := hrange inst hinst
    rwa [hop] at hin
  have hnum : rnum.toNat ≠ 10 := fun heq => hne (BitVec.eq_of_toNat_eq heq)
  omega

/-- `aes64ks1i a0, a0, 10`. -/
theorem decode_exact_aes64ks1i : decode 0x31A51513 = some ⟨.bitImm .aes64ks1i 10 10 10, 4⟩ :=
  ((decode_exact 0x31A51513 (by decide)).1 ⟨.bitImm .aes64ks1i 10 10 10, 4⟩).mpr
    ⟨rfl, by decide⟩

end Decode

end EmulateComputer

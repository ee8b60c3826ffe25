import EmulateComputer.Cpu.InstructionFields

/-!
# DecodeTables — the tables of the decoder, and what it makes of each format

The opcode tables of the decoder and of the encoder are inverse to each other, table by table.  The
decoder dispatches on the opcode, so a word of a format with a known opcode is decoded by one entry
of the dispatch; the fields of the format say what that entry reads.
-/

namespace EmulateComputer

namespace Decode

open BitFields Encode

/-! ## Tables -/

theorem of_table {α : Type} {n : Nat} {decoded : Nat → Option α} {P : BitVec n → α → Bool}
    (h : ∀ f : BitVec n, (decoded f.toNat).all (P f) = true) {f : BitVec n} {a : α}
    (hf : decoded f.toNat = some a) : P f a = true := by
  have hall := h f
  rwa [hf] at hall

theorem eq_some_iff {α : Type} {n : Nat} {decoded : Nat → Option α} {code : α → BitVec n}
    (hleft : ∀ a, decoded (code a).toNat = some a)
    (hright : ∀ f : BitVec n, (decoded f.toNat).all (fun a => code a = f) = true) {f : BitVec n}
    {a : α} : decoded f.toNat = some a ↔ code a = f := by
  constructor
  · intro h
    simpa using of_table hright h
  · rintro rfl
    exact hleft a

variable {f g : BitVec 3} {sz : FpSize} {kind : AluOp}

theorem branchCond_eq_some {cond : BranchCond} :
    branchCond f.toNat = some cond ↔ branchFunct3 cond = f :=
  eq_some_iff (by intro cond; cases cond <;> rfl) (by decide)

theorem loadKind_eq_some {kind : LoadKind} : loadKind f.toNat = some kind ↔ loadFunct3 kind = f :=
  eq_some_iff (by intro kind; cases kind <;> rfl) (by decide)

theorem storeKind_eq_some {kind : StoreKind} :
    storeKind f.toNat = some kind ↔ storeFunct3 kind = f :=
  eq_some_iff (by intro kind; cases kind <;> rfl) (by decide)

theorem csrKind_eq_some {kind : CsrOp} : csrKind f.toNat = some kind ↔ csrFunct3 kind = f :=
  eq_some_iff (by intro kind; cases kind <;> rfl) (by decide)

theorem amoWidth_eq_some {width : AmoWidth} : amoWidth f.toNat = some width ↔ amoFunct3 width = f :=
  eq_some_iff (by intro width; cases width <;> rfl) (by decide)

theorem amoKind_eq_some {f : BitVec 5} {op : AmoOp} :
    amoKind f.toNat = some op ↔ amoFunct5 op = f :=
  eq_some_iff (by intro op; cases op <;> rfl) (by decide)

theorem fpMemSize_eq_some : fpMemSize f.toNat = some sz ↔ fpWidth sz = f :=
  eq_some_iff (by intro sz; cases sz <;> rfl) (by decide)

theorem fpFmt_eq_some {f : BitVec 2} : fpFmt f.toNat = some sz ↔ fmtBits sz = f :=
  eq_some_iff (by intro sz; cases sz <;> rfl) (by decide)

theorem of_countWKind {f : BitVec 5} {kind : BitUnaryOp} (h : countWKind f.toNat = some kind) :
    bitUnaryFunct kind = (OP_IMM_32, place 12 5 (0x30 : BitVec 7) ||| place 12 0 f, 1) := by
  simpa using of_table (P := fun f kind =>
    bitUnaryFunct kind = (OP_IMM_32, place 12 5 (0x30 : BitVec 7) ||| place 12 0 f, 1))
      (by decide) h

theorem of_opImmKind (h : opImmKind f.toNat = some kind) : (aluFunct kind).2 = f := by
  simpa using of_table (P := fun f kind => (aluFunct kind).2 = f) (by decide) h

variable {f : BitVec 7}

theorem opRegKind_eq_some : opRegKind f.toNat g.toNat = some kind ↔ aluFunct kind = (f, g) := by
  constructor
  · intro h
    unfold opRegKind at h
    split at h <;> cases h
    all_goals
      rename_i hf hg
      exact Prod.ext (BitVec.eq_of_toNat_eq hf.symm) (BitVec.eq_of_toNat_eq hg.symm)
  · intro h
    cases kind <;> cases h <;> rfl

theorem opReg32Kind_eq_some :
    opReg32Kind f.toNat g.toNat = some kind ↔ hasWordForm kind = true ∧ aluFunct kind = (f, g) := by
  constructor
  · intro h
    unfold opReg32Kind at h
    split at h <;> cases h
    all_goals
      rename_i hf hg
      exact ⟨rfl, Prod.ext (BitVec.eq_of_toNat_eq hf.symm) (BitVec.eq_of_toNat_eq hg.symm)⟩
  · rintro ⟨hword, h⟩
    cases kind <;> cases hword <;> cases h <;> rfl

def opcodeOf (w : Bool) : BitVec 7 :=
  if w then OP_32 else OP

theorem opBitKind_eq_some {w : Bool} {kind : BitOp} :
    opBitKind f.toNat g.toNat w = some kind ↔ bitFunct kind = (opcodeOf w, f, g) := by
  constructor
  · intro h
    unfold opBitKind at h
    split at h <;> cases h
    all_goals
      rename_i hf hg
      exact Prod.ext rfl
        (Prod.ext (BitVec.eq_of_toNat_eq hf.symm) (BitVec.eq_of_toNat_eq hg.symm))
  · intro h
    cases w <;> cases kind <;> cases h <;> rfl

theorem opImmBitKind_eq_some {f : BitVec 12} {kind : BitUnaryOp} :
    opImmBitKind g.toNat f.toNat = some kind ↔ bitUnaryFunct kind = (OP_IMM, f, g) := by
  constructor
  · intro h
    unfold opImmBitKind at h
    split at h <;> cases h
    all_goals
      rename_i hg hf
      exact Prod.ext rfl
        (Prod.ext (BitVec.eq_of_toNat_eq hf.symm) (BitVec.eq_of_toNat_eq hg.symm))
  · intro h
    cases kind <;> cases h <;> rfl

/-- The fixed fields of a floating-point operation are the ones the word has. -/
structure FpMatches (sz : FpSize) (op : FpOp) (sel rs2 : BitVec 5) (rm : BitVec 3)
    (code : FpCode) : Prop where
  code_eq : fpCode sz op = some code
  funct5_eq : code.funct5 = sel
  rs2_eq : code.rs2.getD rs2 = rs2
  rm_eq : code.rm.getD rm = rm

theorem fpKind_eq_some {sel rs2 : BitVec 5} {rm : BitVec 3} {op : FpOp} :
    fpKind sel.toNat rm.toNat rs2.toNat (fmtBits sz).toNat = some op ↔
      ∃ code, FpMatches sz op sel rs2 rm code := by
  constructor
  · intro h
    -- One case per selector, then per fixed field; the fields are read off the comparisons.
    cases sz <;> dsimp only [fpKind, fmtBits] at h <;> split at h <;> (try split at h) <;>
      (try split at h) <;> cases h
    all_goals
      refine ⟨_, rfl, ?_, ?_, ?_⟩ <;> dsimp only [Option.getD_some, Option.getD_none] <;>
        first | rfl | bv_omega
  · rintro ⟨code, hcode, rfl, hrs2, hrm⟩
    cases sz <;> cases op <;> cases hcode <;>
      dsimp only [Option.getD_some, Option.getD_none] at hrs2 hrm <;>
      cases hrs2 <;> cases hrm <;> rfl

/-! ## Fields of the formats -/

section

variable (imm : BitVec 12) (b2 b1 : BitVec 5) (f : BitVec 3) (d : BitVec 5) (o : BitVec 7)

@[simp] theorem opcode_iType : (iType imm b1 f d o).extractLsb' 0 7 = o :=
  opcode_rType ..

@[simp] theorem toNat_funct3_iType : (funct3 (iType imm b1 f d o)).toNat = f.toNat := by
  rw [toNat_funct3, iType, funct3_rType]

@[simp] theorem rd_iType : rd (iType imm b1 f d o) = regOf d := by
  rw [rd_eq, iType, Encode.rd_rType]

@[simp] theorem rs1_iType : rs1 (iType imm b1 f d o) = regOf b1 := by
  rw [rs1_eq, iType, Encode.rs1_rType]

@[simp] theorem immI_iType : immI (iType imm b1 f d o) = imm.signExtend 64 := by
  rw [immI_eq, iImm_iType]

@[simp] theorem immS_sType : immS (sType imm b2 b1 f o) = imm.signExtend 64 := by
  rw [immS_eq, sImm_sType]

end

section

variable (f7 : BitVec 7) (b2 b1 : BitVec 5) (f : BitVec 3) (d : BitVec 5) (o : BitVec 7)

@[simp] theorem toNat_funct3_rType : (funct3 (rType f7 b2 b1 f d o)).toNat = f.toNat := by
  rw [toNat_funct3, Encode.funct3_rType]

@[simp] theorem toNat_funct7_rType : (funct7 (rType f7 b2 b1 f d o)).toNat = f7.toNat := by
  rw [toNat_funct7, Encode.funct7_rType]

@[simp] theorem rd_rType : rd (rType f7 b2 b1 f d o) = regOf d := by
  rw [rd_eq, Encode.rd_rType]

@[simp] theorem rs1_rType : rs1 (rType f7 b2 b1 f d o) = regOf b1 := by
  rw [rs1_eq, Encode.rs1_rType]

@[simp] theorem rs2_rType : rs2 (rType f7 b2 b1 f d o) = regOf b2 := by
  rw [rs2_eq, Encode.rs2_rType]

end

section

variable (b2 b1 : BitVec 5) (f : BitVec 3) (d : BitVec 5) (o : BitVec 7)

theorem immB_bType {imm : BitVec 13} (heven : imm.getLsbD 0 = false) :
    immB (bType imm b2 b1 f o) = imm.signExtend 64 := by
  rw [immB_eq, bImm_bType _ _ _ _ imm heven]

@[simp] theorem immU_uType (imm : BitVec 20) :
    immU (uType imm d o) = (place 32 12 imm).signExtend 64 := by
  rw [immU_eq, uImm_uType]

theorem immJ_jType {imm : BitVec 21} (heven : imm.getLsbD 0 = false) :
    immJ (jType imm d o) = imm.signExtend 64 := by
  rw [immJ_eq, jImm_jType _ _ imm heven]

end

/-! ## OP-IMM on words of its format -/

section

variable (imm : BitVec 12) (b1 : BitVec 5) (f : BitVec 3) (d : BitVec 5) (o : BitVec 7)

theorem funct3_iType (word : U32) (c : BitVec 3) (hword : word = place 32 0 c) :
    funct3 (iType imm b1 f d o) = word ↔ f = c := by
  rw [funct3_eq, iType, Encode.funct3_rType, hword, place_inj (by decide)]

theorem extract_imm {start len : Nat} (h : start + len ≤ 12) :
    (iType imm b1 f d o).extractLsb' (20 + start) len = imm.extractLsb' start len := by
  rw [← extract_extract (iType imm b1 f d o) h]
  congr 1
  exact iImm_iType b1 f d o imm

theorem funct6_iType (word : U32) (c : BitVec 6) (hword : word = place 32 0 c) :
    iType imm b1 f d o >>> 26 = word ↔ imm.extractLsb' 6 6 = c := by
  rw [shift_place (k := 6) _ (by decide), extract_imm imm b1 f d o (by decide : 6 + 6 ≤ 12), hword,
    place_inj (by decide)]

theorem shamt_iType : field (iType imm b1 f d o) 20 0x3f = place 32 0 (imm.extractLsb' 0 6) := by
  rw [field, shift_and_place (k := 6) _ (by decide),
    extract_imm imm b1 f d o (by decide : 0 + 6 ≤ 12)]

theorem funct12_iType : iType imm b1 f d o >>> 20 = place 32 0 imm := by
  rw [shift_place (k := 12) _ (by decide), extract_imm imm b1 f d o (by decide : 0 + 12 ≤ 12),
    BitVec.extractLsb'_eq_self]

theorem decodeOpImmBit_iType :
    decodeOpImmBit (iType imm b1 f d o) =
      if f = 1 ∧ imm.extractLsb' 4 8 = 0x31 then
        if (0xa : U32) < place 32 0 (imm.extractLsb' 0 4) then none
        else some (.bitImm .aes64ks1i (regOf d) (regOf b1) (place 32 0 (imm.extractLsb' 0 4)))
      else (opImmBitKind f.toNat imm.toNat).map fun kind =>
        .bitUnary kind (regOf d) (regOf b1) := by
  have hhigh : place 32 0 imm >>> 4 = 0x31 ↔ imm.extractLsb' 4 8 = 0x31 := by
    rw [place_shiftRight (m := 8) imm (by decide) (by decide),
      (by decide : (0x31 : U32) = place 32 0 (0x31 : BitVec 8)), place_inj (by decide)]
  have hlow : place 32 0 imm &&& 0xf = place 32 0 (imm.extractLsb' 0 4) := by
    rw [and_place (k := 4) _ (by decide : _ = place 32 0 _),
      extract_place imm (by decide) (by decide) (by decide)]
  unfold decodeOpImmBit
  simp only [funct12_iType, funct3_iType imm b1 f d o 1 1 (by decide), hhigh, hlow, rd_iType,
    rs1_iType, toNat_funct3_iType, toNat_place imm (by decide : 12 ≤ 32)]

theorem decodeOpImm_iType :
    decodeOpImm (iType imm b1 f d o) =
      if f = 1 then
        if imm.extractLsb' 6 6 = 0 then
          some (.opImm .sll (regOf d) (regOf b1) (place 64 0 (imm.extractLsb' 0 6)))
        else decodeOpImmBit (iType imm b1 f d o)
      else if f = 5 then
        if imm.extractLsb' 6 6 = 0 then
          some (.opImm .srl (regOf d) (regOf b1) (place 64 0 (imm.extractLsb' 0 6)))
        else if imm.extractLsb' 6 6 = 0x10 then
          some (.opImm .sra (regOf d) (regOf b1) (place 64 0 (imm.extractLsb' 0 6)))
        else if imm.extractLsb' 6 6 = 0x18 then
          some (.bitImm .rori (regOf d) (regOf b1) (place 32 0 (imm.extractLsb' 0 6)))
        else decodeOpImmBit (iType imm b1 f d o)
      else
        (opImmKind f.toNat).map fun kind =>
          .opImm kind (regOf d) (regOf b1) (imm.signExtend 64) := by
  unfold decodeOpImm
  simp only [funct3_iType imm b1 f d o 1 1 (by decide),
    funct3_iType imm b1 f d o 5 5 (by decide), funct6_iType imm b1 f d o 0 0 (by decide),
    funct6_iType imm b1 f d o 0x10 0x10 (by decide),
    funct6_iType imm b1 f d o 0x18 0x18 (by decide), shamt_iType,
    setWidth_place _ (.inl (by decide : 0 + 6 ≤ 32)), rd_iType, rs1_iType, toNat_funct3_iType,
    immI_iType]

end

end Decode

end EmulateComputer

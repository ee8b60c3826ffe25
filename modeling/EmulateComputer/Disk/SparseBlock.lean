import EmulateComputer.Devices.VirtioBlk
import EmulateComputer.Lib.Table

/-!
# SparseBlock — an in-memory disk that stores no zero blocks

`SparseMemBackend` keeps the 4 KiB blocks that hold a non-zero byte; every other block reads as
zero.  That no stored block is all zero is a field of the type.

Byte offsets inside the disk are `usize` values, and the program is built for targets whose `usize`
differs, so its width is a parameter.  An offset is cut to that width when it is computed, as the
casts and the release build's arithmetic do.
-/

namespace EmulateComputer

def SPARSE_BLOCK_SIZE : Nat := 4096

abbrev Block := { bytes : List U8 // bytes.length = SPARSE_BLOCK_SIZE }

/-- `bytes.iter().all(|byte| *byte == 0)`. -/
def isZero (bytes : List U8) : Bool :=
  bytes.all (· == 0)

theorem isZero_iff {bytes : List U8} : isZero bytes = true ↔ ∀ b ∈ bytes, b = 0 := by
  unfold isZero
  rw [List.all_eq_true]
  simp only [beq_iff_eq]

/-- The disk's layout over a `usize` of `w` bits. -/
structure SparseMemBackend (w : Nat) where
  logicalBytes : U64
  blocks : Table U32 Block
  nonzero : ∀ {index block}, blocks.lookup index = some block → isZero block.1 = false

namespace SparseMemBackend

variable {w : Nat}

/-- The disk sizes `new` accepts. -/
def Usable (logicalBytes : U64) : Prop :=
  ¬ (logicalBytes.toNat = 0 ∨ logicalBytes.toNat % SPARSE_BLOCK_SIZE ≠ 0 ∨
    2 ^ 32 - 1 < logicalBytes.toNat / SPARSE_BLOCK_SIZE)

instance (logicalBytes : U64) : Decidable (Usable logicalBytes) :=
  inferInstanceAs (Decidable (¬ _))

def new (logicalBytes : U64) : Option (SparseMemBackend w) :=
  if Usable logicalBytes then
    some { logicalBytes, blocks := ∅, nonzero := nofun }
  else
    none

def store (b : SparseMemBackend w) (index : U32) (block : Block) : SparseMemBackend w :=
  if h : isZero block.1 then
    { b with
      blocks := b.blocks.erase index
      nonzero := by
        intro index' block' hlookup
        rw [Table.lookup_erase] at hlookup
        split at hlookup
        · cases hlookup
        · exact b.nonzero hlookup }
  else
    { b with
      blocks := b.blocks.insert index block
      nonzero := by
        intro index' block' hlookup
        rw [Table.lookup_insert] at hlookup
        split at hlookup
        · cases hlookup
          exact Bool.eq_false_iff.2 h
        · exact b.nonzero hlookup }

variable (b : SparseMemBackend w)

@[simp] theorem logicalBytes_store (index : U32) (block : Block) :
    (b.store index block).logicalBytes = b.logicalBytes := by
  unfold store
  split <;> rfl

theorem lookup_store (index : U32) (block : Block) (index' : U32) :
    (b.store index block).blocks.lookup index' =
      if index' = index then (if isZero block.1 then none else some block)
      else b.blocks.lookup index' := by
  unfold store
  split
  · exact Table.lookup_erase _ _ _
  · exact Table.lookup_insert _ _ _ _

def insertBlock (index : U32) (block : Block) (b : SparseMemBackend w) :
    Bool × SparseMemBackend w :=
  if b.logicalBytes.toNat / SPARSE_BLOCK_SIZE ≤ index.toNat then (false, b)
  else (true, b.store index block)

/-- The start of a transfer, as a `usize`. -/
def checkedByteRange (b : SparseMemBackend w) (sector : U64) (len : Nat) : Option Nat :=
  (MemBackend.checkedRange sector len b.logicalBytes.toNat).map (· % 2 ^ w)

/-! ## Reading -/

def piece (b : SparseMemBackend w) (byteOffset copyLen : Nat) : List U8 :=
  match b.blocks.lookup (BitVec.ofNat 32 (byteOffset / SPARSE_BLOCK_SIZE)) with
  | some block => (block.1.drop (byteOffset % SPARSE_BLOCK_SIZE)).take copyLen
  | none => List.replicate copyLen 0

/-- The rest of a block from an offset on, within what is left of the buffer. -/
def copyLen (byteOffset left : Nat) : Nat :=
  min left (SPARSE_BLOCK_SIZE - byteOffset % SPARSE_BLOCK_SIZE)

/-- The loop of `read_at`: `left` bytes from `start + consumed` on. -/
def readLoop (b : SparseMemBackend w) (start : Nat) : Nat → Nat → Nat → List U8
  | 0, _, _ => []
  | fuel + 1, consumed, left =>
    if left = 0 then []
    else
      let byteOffset := (start + consumed) % 2 ^ w
      let count := copyLen byteOffset left
      b.piece byteOffset count ++ b.readLoop start fuel (consumed + count) (left - count)

theorem copyLen_le_left (byteOffset left : Nat) : copyLen byteOffset left ≤ left :=
  min_le_left _ _

theorem copyLen_le_block (byteOffset left : Nat) :
    byteOffset % SPARSE_BLOCK_SIZE + copyLen byteOffset left ≤ SPARSE_BLOCK_SIZE := by
  have hmod : byteOffset % SPARSE_BLOCK_SIZE < SPARSE_BLOCK_SIZE := Nat.mod_lt _ (by decide)
  unfold copyLen
  omega

/-- Every turn of a transfer moves something. -/
theorem copyLen_pos (byteOffset : Nat) {left : Nat} (h : left ≠ 0) :
    0 < copyLen byteOffset left := by
  have hmod : byteOffset % SPARSE_BLOCK_SIZE < SPARSE_BLOCK_SIZE := Nat.mod_lt _ (by decide)
  unfold copyLen
  omega

theorem length_piece (byteOffset left : Nat) :
    (b.piece byteOffset (copyLen byteOffset left)).length = copyLen byteOffset left := by
  have hblock := copyLen_le_block byteOffset left
  unfold piece
  split
  · next block _ =>
    rw [List.length_take, List.length_drop, block.2]
    omega
  · exact List.length_replicate

theorem length_readLoop (start fuel consumed left : Nat)
    (hfuel : left ≤ fuel) : (b.readLoop start fuel consumed left).length = left := by
  induction fuel generalizing consumed left with
  | zero =>
    rw [Nat.le_zero.1 hfuel]
    rfl
  | succ fuel ih =>
    unfold readLoop
    split
    · next h => rw [h, List.length_nil]
    · next h =>
      have hpos := copyLen_pos ((start + consumed) % 2 ^ w) h
      have hle := copyLen_le_left ((start + consumed) % 2 ^ w) left
      rw [List.length_append, length_piece, ih _ _ (by omega)]
      omega

def readAt (sector : U64) (n : Nat) :
    EStateM BlockError (SparseMemBackend w) { buf : List U8 // buf.length = n } := fun b =>
  match b.checkedByteRange sector n with
  | none => .error .outOfRange b
  | some start => .ok ⟨b.readLoop start n 0 n, length_readLoop b start n 0 n le_rfl⟩ b

/-! ## Writing -/

/-- A block with some of its bytes replaced. -/
def patch (block : Block) (offset : Nat) (bytes : List U8)
    (h : offset + bytes.length ≤ SPARSE_BLOCK_SIZE) : Block :=
  ⟨block.1.take offset ++ bytes ++ block.1.drop (offset + bytes.length), by
    have := block.2
    simp only [List.length_append, List.length_take, List.length_drop]
    omega⟩

def zeroBlock : Block :=
  ⟨List.replicate SPARSE_BLOCK_SIZE 0, List.length_replicate⟩

/-- The loop of `write_at`: the bytes of `rest` go to `start + consumed` on. -/
def writeLoop (start : Nat) : Nat → Nat → List U8 → SparseMemBackend w → SparseMemBackend w
  | 0, _, _, b => b
  | fuel + 1, consumed, rest, b =>
    if rest = [] then b
    else
      let byteOffset := (start + consumed) % 2 ^ w
      let index : U32 := BitVec.ofNat 32 (byteOffset / SPARSE_BLOCK_SIZE)
      let count := copyLen byteOffset rest.length
      let block := (b.blocks.lookup index).getD zeroBlock
      let patched := patch block (byteOffset % SPARSE_BLOCK_SIZE) (rest.take count) (by
        have := copyLen_le_block byteOffset rest.length
        rw [List.length_take]
        omega)
      writeLoop start fuel (consumed + count) (rest.drop count) (b.store index patched)

def writeAt (sector : U64) (buf : List U8) : EStateM BlockError (SparseMemBackend w) Unit :=
  fun b =>
    match b.checkedByteRange sector buf.length with
    | none => .error .outOfRange b
    | some start => .ok () (writeLoop start buf.length 0 buf b)

instance : BlockBackend (SparseMemBackend w) where
  capacitySectors b := b.logicalBytes / 512
  readAt := readAt
  writeAt := writeAt
  flush := pure ()

/-! ## What a read returns -/

def byteAt (b : SparseMemBackend w) (i : Nat) : U8 :=
  match b.blocks.lookup (BitVec.ofNat 32 (i / SPARSE_BLOCK_SIZE)) with
  | some block => block.1[i % SPARSE_BLOCK_SIZE]?.getD 0
  | none => 0

/-- A piece lies in one block, so its bytes stand at consecutive offsets. -/
theorem piece_eq_slice (byteOffset left : Nat) :
    b.piece byteOffset (copyLen byteOffset left) =
      Bytes.slice b.byteAt byteOffset (copyLen byteOffset left) := by
  have hblock := copyLen_le_block byteOffset left
  apply List.ext_getElem?
  intro i
  by_cases hi : i < copyLen byteOffset left
  · have hdiv : (byteOffset + i) / SPARSE_BLOCK_SIZE = byteOffset / SPARSE_BLOCK_SIZE := by
      unfold SPARSE_BLOCK_SIZE at hblock ⊢
      omega
    have hmod : (byteOffset + i) % SPARSE_BLOCK_SIZE = byteOffset % SPARSE_BLOCK_SIZE + i := by
      unfold SPARSE_BLOCK_SIZE at hblock ⊢
      omega
    rw [Bytes.getElem?_slice _ _ _ _ hi]
    unfold byteAt piece
    rw [hdiv, hmod]
    split
    · next block _ =>
      have hin : byteOffset % SPARSE_BLOCK_SIZE + i < block.1.length := by
        omega
      rw [List.getElem?_take_of_lt hi, List.getElem?_drop, List.getElem?_eq_getElem hin,
        Option.getD_some]
    · exact List.getElem?_replicate_of_lt hi
  · rw [List.getElem?_eq_none (by rw [length_piece]; omega),
      List.getElem?_eq_none (by rw [Bytes.length_slice]; omega)]

/-- Adding less than the rest of its block to an offset does not leave the range. -/
theorem add_lt_of_block {size k x i : Nat} (hx : x < size * k) (hi : x % size + i < size) :
    x + i < size * k := by
  have hdiv := Nat.div_add_mod x size
  have hquot : x / size + 1 ≤ k := Nat.div_lt_of_lt_mul hx
  have hmul : size * (x / size) + size ≤ size * k := Nat.mul_le_mul_left size hquot
  omega

/-- A transfer reads consecutive offsets, each cut to `usize`. -/
theorem readLoop_eq_slice (hw : 12 ≤ w) (start fuel consumed left : Nat) (hfuel : left ≤ fuel) :
    b.readLoop start fuel consumed left =
      Bytes.slice (fun i => b.byteAt (i % 2 ^ w)) (start + consumed) left := by
  -- Blocks divide the range of `usize`, so a piece never runs over its end.
  obtain ⟨k, hk⟩ : SPARSE_BLOCK_SIZE ∣ 2 ^ w := Nat.pow_dvd_pow 2 hw
  induction fuel generalizing consumed left with
  | zero =>
    rw [Nat.le_zero.1 hfuel]
    rfl
  | succ fuel ih =>
    unfold readLoop
    split
    · next h =>
      rw [h]
      rfl
    · next h =>
      dsimp only
      have hpos := copyLen_pos ((start + consumed) % 2 ^ w) h
      have hle := copyLen_le_left ((start + consumed) % 2 ^ w) left
      have hblock := copyLen_le_block ((start + consumed) % 2 ^ w) left
      rw [ih _ _ (by omega), piece_eq_slice]
      generalize copyLen ((start + consumed) % 2 ^ w) left = count at *
      have hhead : Bytes.slice b.byteAt ((start + consumed) % 2 ^ w) count =
          Bytes.slice (fun i => b.byteAt (i % 2 ^ w)) (start + consumed) count := by
        refine Bytes.slice_ext fun i hi => ?_
        have hlt : (start + consumed) % 2 ^ w < 2 ^ w := Nat.mod_lt _ (Nat.two_pow_pos w)
        have hroom : (start + consumed) % 2 ^ w + i < 2 ^ w := by
          rw [hk] at hlt hblock ⊢
          exact add_lt_of_block hlt (by omega)
        rw [← Nat.mod_add_mod (start + consumed) (2 ^ w) i, Nat.mod_eq_of_lt hroom]
      rw [hhead, ← Nat.add_assoc, ← Bytes.slice_add, Nat.add_sub_cancel' hle]

/-- A read inside the disk returns its bytes, at offsets cut to `usize`. -/
theorem readAt_eq (hw : 12 ≤ w) (sector : U64) (n : Nat)
    (h : sector.toNat * 512 + n ≤ b.logicalBytes.toNat) :
    ∃ buf, readAt sector n b = .ok buf b ∧
      buf.1 = Bytes.slice (fun i => b.byteAt (i % 2 ^ w)) (sector.toNat * 512) n := by
  have hrange : b.checkedByteRange sector n = some (sector.toNat * 512 % 2 ^ w) := by
    unfold checkedByteRange MemBackend.checkedRange
    rw [if_neg (by omega)]
    rfl
  refine ⟨⟨_, length_readLoop b (sector.toNat * 512 % 2 ^ w) n 0 n le_rfl⟩, ?_, ?_⟩
  · unfold readAt
    simp only [hrange]
  · dsimp only
    rw [readLoop_eq_slice b hw _ _ _ _ le_rfl, Nat.add_zero]
    refine Bytes.slice_ext fun i _ => ?_
    rw [Nat.mod_add_mod]

/-! ## What a stored block changes -/

/-- A block as it stands in the disk, absent or not. -/
theorem block_eq_slice (index : U32) :
    ((b.blocks.lookup index).getD zeroBlock).1 =
      Bytes.slice b.byteAt (index.toNat * SPARSE_BLOCK_SIZE) SPARSE_BLOCK_SIZE := by
  have hmod : index.toNat * SPARSE_BLOCK_SIZE % SPARSE_BLOCK_SIZE = 0 := Nat.mul_mod_left _ _
  have hlen : copyLen (index.toNat * SPARSE_BLOCK_SIZE) SPARSE_BLOCK_SIZE = SPARSE_BLOCK_SIZE := by
    simp [copyLen, hmod]
  have hpiece := b.piece_eq_slice (index.toNat * SPARSE_BLOCK_SIZE) SPARSE_BLOCK_SIZE
  rw [hlen] at hpiece
  rw [← hpiece]
  unfold piece
  rw [Nat.mul_div_cancel _ (by decide), BitVec.ofNat_toNat, BitVec.setWidth_eq, hmod]
  cases b.blocks.lookup index with
  | none => rfl
  | some block => exact (List.take_of_length_le block.2.le).symm

/-- A stored block shows at its offsets, as far as block numbers reach. -/
theorem byteAt_store (index : U32) (block : Block) {i : Nat}
    (hi : i < 2 ^ 44) : (b.store index block).byteAt i =
      Bytes.splice b.byteAt (index.toNat * SPARSE_BLOCK_SIZE) block.1 i := by
  have hsame : BitVec.ofNat 32 (i / SPARSE_BLOCK_SIZE) = index ↔
      i / SPARSE_BLOCK_SIZE = index.toNat := by
    rw [← BitVec.toNat_inj, BitVec.toNat_ofNat, Nat.mod_eq_of_lt]
    unfold SPARSE_BLOCK_SIZE
    omega
  have hlength := block.2
  have hmod : i % SPARSE_BLOCK_SIZE < block.1.length := by
    rw [hlength]
    exact Nat.mod_lt _ (by decide)
  by_cases hblock : i / SPARSE_BLOCK_SIZE = index.toNat
  · -- The offset lies in the new block.
    have hsplice : Bytes.splice b.byteAt (index.toNat * SPARSE_BLOCK_SIZE) block.1 i =
        block.1[i % SPARSE_BLOCK_SIZE] := by
      conv_lhs => rw [← Nat.div_add_mod' i SPARSE_BLOCK_SIZE, hblock]
      exact Bytes.splice_add hmod
    rw [hsplice]
    unfold byteAt
    rw [lookup_store, if_pos (hsame.2 hblock)]
    split
    · next stored hstored =>
      split at hstored
      · cases hstored
      · cases hstored
        simp [hmod]
    · next hnone =>
      split at hnone
      · next hzero => exact (isZero_iff.1 hzero _ (List.getElem_mem hmod)).symm
      · cases hnone
  · have hout : i < index.toNat * SPARSE_BLOCK_SIZE ∨
        index.toNat * SPARSE_BLOCK_SIZE + block.1.length ≤ i := by
      unfold SPARSE_BLOCK_SIZE at *
      omega
    have hsplice : Bytes.splice b.byteAt (index.toNat * SPARSE_BLOCK_SIZE) block.1 i = b.byteAt i :=
      hout.elim Bytes.splice_of_lt Bytes.splice_of_ge
    rw [hsplice]
    unfold byteAt
    rw [lookup_store, if_neg fun heq => hblock (hsame.1 heq)]

end SparseMemBackend

end EmulateComputer

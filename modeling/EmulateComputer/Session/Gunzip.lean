import Mathlib.Data.List.TakeDrop
import EmulateComputer.Trap

/-!
# Gunzip — sniffing a stream for gzip

Images are fetched as byte streams that may or may not be compressed.  `gunzipIfNeeded` holds back
the first chunks until two bytes are known and returns a stream `raw` that replays them, goes on
with the source and cuts what goes to the decompressor into small pieces.

A source is the list of chunks that its reads are still to give.  The platform's decompressor and
the cancellation of a stream are outside the model.
-/

namespace EmulateComputer

def GZIP_INPUT_CHUNK_BYTES : Nat := 16 * 1024

/-- The variables that the stream `raw` of `gunzipIfNeeded` works on. -/
structure RawStream where
  source : List (List U8)
  head : List (List U8)
  ended : Bool
  compressed : Bool
  pending : Option (List U8) := none
  offset : Nat := 0

namespace RawStream

/-- The sniffing loop: the chunks held back, whether the source has ended, and what is left. -/
def sniff (head : List (List U8)) (peeked : Nat) (source : List (List U8)) :
    List (List U8) × Bool × List (List U8) :=
  if peeked < 2 then
    match source with
    | [] => (head, true, [])
    | value :: source =>
      if value.length > 0 then sniff (head ++ [value]) (peeked + value.length) source
      else sniff head peeked source
  else (head, false, source)

/-- The test on the chunks held back; the second byte may open the second of them. -/
def isCompressed : List (List U8) → Bool
  | [] => false
  | first :: others =>
    first[0]? = some 0x1f ∧ first[1]?.or (others.head?.bind (·[0]?)) = some 0x8b

def gunzipIfNeeded (body : List (List U8)) : RawStream :=
  let (head, ended, source) := sniff [] 0 body
  { source, head, ended, compressed := isCompressed head }

/-- The turns of the loop in `pull` that read the source: empty chunks are passed over, and at the
end `pending` stays unset. -/
def readSource (s : RawStream) : List (List U8) → RawStream
  | [] => { s with source := [], ended := true, offset := 0 }
  | value :: source =>
    if value.length > 0 then { s with source, pending := value, offset := 0 }
    else readSource s source

/-- The loop in `pull` that looks for a chunk, first among those held back. -/
def fill (s : RawStream) : RawStream :=
  match s.pending, s.head with
  | some _, _ => s
  | none, pending :: head => { s with head, pending, offset := 0 }
  | none, [] => if s.ended then s else s.readSource s.source

def pieceEnd (s : RawStream) (pending : List U8) : Nat :=
  if s.compressed then min (s.offset + GZIP_INPUT_CHUNK_BYTES) pending.length else pending.length

/-- One call of `pull`: the chunk it enqueues, or `none` if it closes the stream. -/
def pull (s : RawStream) : Option (List U8) × RawStream :=
  let s := s.fill
  match s.pending with
  | none => (none, s)
  | some pending =>
    let stop := s.pieceEnd pending
    (some ((pending.take stop).drop s.offset),
      { s with offset := stop, pending := if stop = pending.length then none else pending })

/-- The chunks that pulling until the close enqueues. -/
inductive Emits : RawStream → List (List U8) → Prop
  | close {s s' : RawStream} (hpull : s.pull = (none, s')) : s.Emits []
  | enqueue {s s' : RawStream} {chunk : List U8} {chunks : List (List U8)}
      (hpull : s.pull = (some chunk, s')) (h : s'.Emits chunks) : s.Emits (chunk :: chunks)

def rest (s : RawStream) : List U8 :=
  (s.pending.elim [] (·.drop s.offset)) ++ (s.head.flatten ++ s.source.flatten)

/-- What holds between two calls of `pull`. -/
structure Ready (s : RawStream) : Prop where
  pending : ∀ chunk ∈ s.pending, s.offset < chunk.length
  head : ∀ chunk ∈ s.head, 0 < chunk.length
  ended : s.ended = true → s.source = []

/-- The sniffing loop loses no byte, and stops with two bytes or with the whole stream. -/
theorem sniff_spec {head : List (List U8)} {peeked : Nat} {source : List (List U8)}
    (hpeeked : peeked = head.flatten.length) (hhead : ∀ chunk ∈ head, 0 < chunk.length) :
    let (held, ended, left) := sniff head peeked source
    held.flatten ++ left.flatten = head.flatten ++ source.flatten ∧
      (∀ chunk ∈ held, 0 < chunk.length) ∧ (ended = true → left = []) ∧
      (2 ≤ held.flatten.length ∨ left = []) := by
  fun_induction sniff head peeked source with
  | case1 head peeked h => exact ⟨rfl, hhead, fun _ => rfl, .inr rfl⟩
  | case2 head peeked h value source hvalue ih =>
    have := ih (by simp [hpeeked]) (by simpa [or_imp, forall_and] using ⟨hhead, hvalue⟩)
    simpa using this
  | case3 head peeked h value source hvalue ih =>
    have hnil : value = [] := by simpa using hvalue
    simpa [hnil] using ih hpeeked hhead
  | case4 head peeked source h =>
    exact ⟨rfl, hhead, nofun, .inl (by omega)⟩

theorem isCompressed_iff {head : List (List U8)} (hhead : ∀ chunk ∈ head, 0 < chunk.length) :
    isCompressed head = true ↔ head.flatten.take 2 = [0x1f, 0x8b] := by
  match head with
  | [] => simp [isCompressed]
  | [] :: _ => simp at hhead
  | [a] :: [] => simp [isCompressed]
  | [a] :: [] :: _ => simp at hhead
  | [a] :: (b :: _) :: _ => simp [isCompressed]
  | (a :: b :: _) :: _ => simp [isCompressed]

/-- What a refill has to do: no byte is lost, and `pending` stays unset only if none is left. -/
structure Refill (s s' : RawStream) : Prop extends Ready s' where
  rest : s'.rest = s.rest
  compressed : s'.compressed = s.compressed
  close : s'.pending = none → s.rest = []

variable {s : RawStream}

theorem refill_readSource (h : s.Ready) (hp : s.pending = none) (hh : s.head = [])
    (he : s.ended = false) : Refill s (s.readSource s.source) := by
  suffices ∀ source, source.flatten = s.source.flatten → Refill s (s.readSource source) from
    this _ rfl
  intro source hsource
  induction source with
  | nil =>
    refine ⟨⟨?_, h.head, fun _ => rfl⟩, ?_, rfl, fun _ => ?_⟩ <;>
      simp [readSource, RawStream.rest, hp, hh, ← hsource]
  | cons value source ih =>
    unfold readSource
    split
    next hvalue =>
      refine ⟨⟨by simpa using hvalue, h.head, by simp [he]⟩, ?_, rfl, nofun⟩
      simp [RawStream.rest, hp, hh, ← hsource]
    next hvalue =>
      have hnil : value = [] := by simpa using hvalue
      exact ih (by simpa [hnil] using hsource)

theorem refill_fill (h : s.Ready) : Refill s s.fill := by
  unfold fill
  split
  next chunk hp => exact ⟨h, rfl, rfl, by simp [hp]⟩
  next chunk head hp hh =>
    refine ⟨⟨?_, ?_, h.ended⟩, ?_, rfl, nofun⟩
    · simpa using h.head chunk (by simp [hh])
    · exact fun held hheld => h.head held (by simp [hh, hheld])
    · simp [RawStream.rest, hp, hh]
  next hp hh =>
    split
    next he => exact ⟨h, rfl, rfl, fun _ => by simp [RawStream.rest, hp, hh, h.ended he]⟩
    next he => exact refill_readSource h hp hh (by simpa using he)

theorem pieceEnd_spec {pending : List U8} (h : s.offset < pending.length) :
    s.offset < s.pieceEnd pending ∧ s.pieceEnd pending ≤ pending.length ∧
      (s.compressed = true → s.pieceEnd pending ≤ s.offset + GZIP_INPUT_CHUNK_BYTES) := by
  unfold pieceEnd GZIP_INPUT_CHUNK_BYTES
  split
  next hc => exact ⟨by omega, by omega, fun _ => by omega⟩
  next hc => exact ⟨h, Nat.le_refl _, fun h => absurd h hc⟩

/-- A pull closes the stream when no byte is left, and else moves a piece out of the bytes left. -/
theorem pull_spec (h : s.Ready) :
    (s.rest = [] ∧ s.pull = (none, s.fill)) ∨
    ∃ chunk s', s.pull = (some chunk, s') ∧ s'.Ready ∧ s.rest = chunk ++ s'.rest ∧
      s'.compressed = s.compressed ∧ 0 < chunk.length ∧
      (s.compressed = true → chunk.length ≤ GZIP_INPUT_CHUNK_BYTES) := by
  obtain ⟨hready, hrest, hcompressed, hclosed⟩ := refill_fill h
  cases hp : s.fill.pending with
  | none => exact .inl ⟨hclosed hp, by simp [pull, hp]⟩
  | some pending =>
    obtain ⟨hlt, hle, hcut⟩ := pieceEnd_spec (hready.pending pending hp)
    have hlength : ((pending.take (s.fill.pieceEnd pending)).drop s.fill.offset).length =
        s.fill.pieceEnd pending - s.fill.offset := by simp [hle]
    right
    simp only [pull, hp]
    refine ⟨_, _, rfl, ⟨?_, hready.head, hready.ended⟩, ?_, hcompressed, by omega, fun hc => ?_⟩
    · intro chunk hchunk
      obtain ⟨hne, ⟨⟩⟩ := Option.ite_none_left_eq_some.1 hchunk
      exact Nat.lt_of_le_of_ne hle hne
    · have hleft : (if s.fill.pieceEnd pending = pending.length then none else some pending).elim []
          (·.drop (s.fill.pieceEnd pending)) = pending.drop (s.fill.pieceEnd pending) := by
        split <;> simp_all
      have hsplit : pending.drop s.fill.offset =
          (pending.take (s.fill.pieceEnd pending)).drop s.fill.offset ++
            pending.drop (s.fill.pieceEnd pending) := by
        rw [← List.drop_append_of_le_length (by simp; omega), List.take_append_drop]
      rw [← hrest, rest, rest, hleft, hp, Option.elim_some, hsplit, List.append_assoc]
    · have := hcut (hcompressed.trans hc)
      omega

/-- Pulling emits the bytes left and then closes; the induction is on their number. -/
theorem emits_rest (h : s.Ready) :
    ∃ chunks, s.Emits chunks ∧ chunks.flatten = s.rest ∧ ∀ chunk ∈ chunks, chunk ≠ [] ∧
      (s.compressed = true → chunk.length ≤ GZIP_INPUT_CHUNK_BYTES) := by
  obtain ⟨n, hn⟩ : ∃ n, s.rest.length = n := ⟨_, rfl⟩
  induction n using Nat.strongRecOn generalizing s with
  | _ n ih =>
    obtain ⟨hrest, hpull⟩ | ⟨chunk, s', hpull, hready, hrest, hc, hpos, hcut⟩ := pull_spec h
    · exact ⟨[], .close hpull, hrest.symm, nofun⟩
    · rw [hrest, List.length_append] at hn
      obtain ⟨chunks, hemits, hflat, hchunks⟩ := ih s'.rest.length (by omega) hready rfl
      refine ⟨chunk :: chunks, .enqueue hpull hemits, by rw [hrest, List.flatten_cons, hflat], ?_⟩
      rw [List.forall_mem_cons, ← hc]
      exact ⟨⟨List.length_pos_iff.1 hpos, hc ▸ hcut⟩, hchunks⟩

end RawStream

open RawStream in
/-- Whatever the chunks of the stream, it is decompressed exactly if it starts with the gzip magic,
and `raw` passes on its bytes in order and then closes: no chunk is empty, and none that goes to
the decompressor is longer than its bound. -/
theorem gunzipIfNeeded_emits (body : List (List U8)) :
    ((gunzipIfNeeded body).compressed = true ↔ body.flatten.take 2 = [0x1f, 0x8b]) ∧
    ∃ chunks, (gunzipIfNeeded body).Emits chunks ∧ chunks.flatten = body.flatten ∧
      ∀ chunk ∈ chunks, chunk ≠ [] ∧
        ((gunzipIfNeeded body).compressed = true → chunk.length ≤ GZIP_INPUT_CHUNK_BYTES) := by
  obtain ⟨hbytes, hheld, hended, hseen⟩ := @sniff_spec [] 0 body rfl nofun
  refine ⟨(isCompressed_iff hheld).trans ?_, ?_⟩
  · have hbytes : _ ++ _ = body.flatten := hbytes
    rw [← hbytes]
    obtain hseen | hseen := hseen
    · rw [List.take_append_of_le_length hseen]
    · rw [hseen, List.flatten_nil, List.append_nil]
  · have hready : (gunzipIfNeeded body).Ready := ⟨nofun, hheld, hended⟩
    obtain ⟨chunks, hemits, hflat, hchunks⟩ := emits_rest hready
    exact ⟨chunks, hemits, hflat.trans hbytes, hchunks⟩

end EmulateComputer

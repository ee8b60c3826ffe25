import EmulateComputer.Devices.Scatter

/-!
# Framing — network frames and how a driver divides them

A chain is one buffer: where its descriptors are cut makes no difference to the frame taken from
it or put into it.
-/

namespace EmulateComputer

open Effect Virtqueue

namespace VirtioNet

variable {ram : Ram} {chain : List Descriptor}

/-- A chain in RAM is read as one buffer. -/
theorem readSegments_eq (h : ChainInRam ram chain) :
    readSegments ram chain = some (Spans.gather ram.data (spans chain)) := by
  induction chain with
  | nil => rfl
  | cons desc rest ih =>
    have hdesc := h desc List.mem_cons_self
    rw [readSegments, ramOffset_eq hdesc, ih (h.tail rfl)]
    simp only [Option.bind_eq_bind, Option.bind_some]
    rw [Ram.readSlice_eq, if_pos (show (desc.addr - DRAM_BASE).toNat + _ ≤ _ from hdesc.2)]
    rfl

theorem segmentsInRam_eq {needed : Nat} (h : ChainInRam ram chain)
    (hlen : needed ≤ totalLen chain) : segmentsInRam ram chain needed = true := by
  induction chain generalizing needed with
  | nil =>
    obtain rfl : needed = 0 := Nat.le_zero.mp hlen
    rfl
  | cons desc rest ih =>
    have hdesc := h desc List.mem_cons_self
    have hpart : InRam ram desc.addr (min needed desc.len.toNat) := by
      refine ⟨hdesc.1, ?_⟩
      have := hdesc.2
      omega
    simp only [totalLen, List.map_cons, List.sum_cons] at hlen
    rw [segmentsInRam]
    dsimp only
    rw [ramOffset_eq hpart]
    split
    · rfl
    · exact ih (h.tail rfl) (by simp only [totalLen]; omega)

/-- The part of a chain that a device may write. -/
def room (chain : List Descriptor) : List Descriptor :=
  chain.filter fun desc => desc.flags &&& DESC_F_WRITE ≠ 0

theorem apart_room (h : Spans.Apart (spans chain)) : Spans.Apart (spans (room chain)) :=
  h.sublist (List.filter_sublist.map _)

variable {layout : QueueLayout} {head : U16} {s : VirtioNet × Ram} {frame : List U8}

/-- The frame behind the header of a readable chain is queued for the host. -/
theorem transmitChain_eq (hchain : collectChain s.2 layout head = some chain)
    (hin : ChainInRam s.2 chain) (hreadable : ∀ desc ∈ chain, desc.flags &&& DESC_F_WRITE = 0)
    (hframe : 1 ≤ frame.length ∧ frame.length ≤ MAX_FRAME_BYTES) {hdr : List U8}
    (hhdr : hdr.length = HDR_LEN) (hbytes : Spans.gather s.2.data (spans chain) = hdr ++ frame) :
    transmitChain layout head s = .ok (.used 0) (s.1.pushOutbox frame, s.2) := by
  have hnone : (chain.any fun desc => desc.flags &&& DESC_F_WRITE ≠ 0) = false := by
    simpa using hreadable
  have htotal : totalLen chain = HDR_LEN + frame.length := by
    rw [← total_spans, ← Spans.length_gather s.2.data, hbytes, List.length_append, hhdr]
  have hsize : HDR_LEN ≤ totalLen chain ∧ totalLen chain ≤ MAX_CHAIN_BYTES := by
    have := hframe.2
    unfold MAX_FRAME_BYTES at this
    unfold MAX_CHAIN_BYTES HDR_LEN at *
    omega
  have hdrop : (hdr ++ frame).drop HDR_LEN = frame := by
    rw [← hhdr, List.drop_left]
  have hlegal : ¬ frame.isEmpty ∧ frame.length ≤ MAX_FRAME_BYTES :=
    ⟨by rw [List.isEmpty_iff_length_eq_zero]; omega, hframe.2⟩
  unfold transmitChain
  simp only [run_bind, run_get, hchain, hnone, hsize, readSegments_eq hin, hbytes, hdrop, hlegal]
  rfl

/-- A frame can be placed behind its header into the writable part of a chain. -/
def Fits (ram : Ram) (chain : List Descriptor) (frame : List U8) : Prop :=
  ChainInRam ram (room chain) ∧ 12 + frame.length ≤ totalLen (room chain)

/-- A call of the receive handler used the chain for the frame: placed behind the twelve bytes of
its header, or dropped because it does not fit. -/
def Takes (ram : Ram) (chain : List Descriptor) (frame : List U8) (o : ChainOutcome) (ram' : Ram) :
    Prop :=
  (12 + frame.length ≤ totalLen (room chain) ∧ o = .used (BitVec.ofNat 32 (12 + frame.length)) ∧
      Spread (room chain) ([0, 0, 0, 0, 0, 0, 0, 0, 0, 0, 1, 0] ++ frame) ram ram') ∨
    ¬ Fits ram chain frame ∧ o = .used 0 ∧ (totalLen (room chain) < 12 + frame.length → ram' = ram)

/-- The oldest frame leaves the inbox, for the chain. -/
theorem post_deliver (hchain : collectChain s.2 layout head = some chain)
    (hframe : s.1.inbox.head? = some frame) :
    Post (deliverHandler layout head) s
      (fun o t => t.1.inbox = s.1.inbox.tail ∧ t.1.outbox = s.1.outbox ∧
        Takes s.2 chain frame o t.2)
      fun _ _ => False := by
  have hinbox : ¬ s.1.inbox.isEmpty = true := by
    intro hempty
    rw [List.isEmpty_iff.mp hempty] at hframe
    cases hframe
  refine post_get (post_ite (fun h => absurd h hinbox) fun _ => post_get ?_)
  rw [hchain]
  simp only [hframe, Option.getD_some]
  have hlen : (header ++ frame).length = 12 + frame.length := List.length_append
  refine post_modify (post_ite (fun hbad => ⟨rfl, rfl, .inr ⟨fun hfits => ?_, rfl, fun _ => rfl⟩⟩)
    fun hgood => ?_)
  · rcases hbad with hless | hout
    · exact absurd hless (Nat.not_lt.2 hfits.2)
    · exact hout (segmentsInRam_eq hfits.1 hfits.2)
  · have hlong : 12 + frame.length ≤ totalLen (room chain) :=
      Nat.le_of_not_lt fun hless => hgood (.inl hless)
    refine post_attempt ((post_writeSegments _ _ _).mono (fun _ t ht => post_modify ?_)
      fun _ t ht => ?_)
    · have hdevice : t.1 = s.1.popInbox := ht.1
      exact ⟨by rw [hdevice]; rfl, by rw [hdevice]; rfl, .inl ⟨hlong, by rw [hlen], ht.2⟩⟩
    · have hdevice : t.1 = s.1.popInbox := ht.1
      refine ⟨by rw [hdevice]; rfl, by rw [hdevice]; rfl,
        .inr ⟨fun hfits => ht.2 ⟨hfits.1, ?_⟩, rfl, fun hless => absurd hless (Nat.not_lt.2 hlong)⟩⟩
      rw [hlen]
      exact hfits.2

/-- Only the concatenated bytes of a chain matter, in either direction. -/
theorem framing_of_any_split (hchain : collectChain s.2 layout head = some chain)
    (hin : ChainInRam s.2 chain) (hapart : Spans.Apart (spans chain))
    (hframe : 1 ≤ frame.length ∧ frame.length ≤ MAX_FRAME_BYTES) :
    (∀ hdr, (∀ desc ∈ chain, desc.flags &&& DESC_F_WRITE = 0) → hdr.length = HDR_LEN →
        Spans.gather s.2.data (spans chain) = hdr ++ frame →
      (callOf transmitChain layout head s).outcome = .used 0 ∧
        (callOf transmitChain layout head s).after.1.outbox =
          (if s.1.outbox.length = 64 then s.1.outbox.tail else s.1.outbox) ++ [frame] ∧
        (callOf transmitChain layout head s).after.2 = s.2) ∧
    (s.1.inbox.head? = some frame →
      (12 + frame.length ≤ totalLen (room chain) →
        (callOf deliverHandler layout head s).outcome =
            .used (BitVec.ofNat 32 (12 + frame.length)) ∧
          Spans.gather (callOf deliverHandler layout head s).after.2.data (spans (room chain)) =
            [0, 0, 0, 0, 0, 0, 0, 0, 0, 0, 1, 0] ++ frame ++
              (Spans.gather s.2.data (spans (room chain))).drop (12 + frame.length) ∧
          ∀ i, (∀ span ∈ spans (room chain), ¬ Spans.Covers span i) →
            (callOf deliverHandler layout head s).after.2.data i = s.2.data i) ∧
      (totalLen (room chain) < 12 + frame.length →
        (callOf deliverHandler layout head s).outcome = .used 0 ∧
          (callOf deliverHandler layout head s).after.2 = s.2)) := by
  refine ⟨fun hdr hreadable hhdr hbytes => ?_, fun hinbox => ?_⟩
  · unfold callOf
    rw [transmitChain_eq hchain hin hreadable hframe hhdr hbytes]
    exact ⟨rfl, rfl, rfl⟩
  · have htakes := ((callOf_post (post_deliver hchain hinbox)).resolve_right id).2.2
    have hroom : ChainInRam s.2 (room chain) :=
      fun desc hdesc => hin desc (List.mem_of_mem_filter hdesc)
    refine ⟨fun hfits => ?_, fun hless => ?_⟩
    · obtain ⟨-, hused, hspread⟩ := htakes.resolve_right fun h => h.1 ⟨hroom, hfits⟩
      have hlen : ([0, 0, 0, 0, 0, 0, 0, 0, 0, 0, 1, 0] ++ frame).length = 12 + frame.length :=
        List.length_append
      refine ⟨hused, ?_, fun i hi => ?_⟩
      · rw [hspread.data_eq, Spans.gather_scatter (apart_room hapart)
          (by rw [hlen, total_spans]; exact hfits), hlen]
      · rw [hspread.data_eq, Spans.scatter_of_not_covers hi]
    · obtain ⟨-, hused, hsame⟩ := htakes.resolve_left fun h => absurd h.1 (Nat.not_le.2 hless)
      exact ⟨hused, hsame hless⟩

/-- Fourteen bytes in two descriptors. -/
def splitChain (writable : Bool) : List Descriptor :=
  let flags : U16 := if writable then DESC_F_WRITE else 0
  [{ addr := DRAM_BASE + 32, len := 5, flags := flags ||| DESC_F_NEXT, next := 1 },
    { addr := DRAM_BASE + 37, len := 9, flags := flags, next := 0 }]

def splitRam (writable : Bool) : Ram :=
  .ofBytes ((splitChain writable).flatMap VirtioBlock.descriptorBytes ++ List.replicate 12 0 ++
      [7, 9])
    (by cases writable <;> decide)

def splitLayout : QueueLayout :=
  { desc := DRAM_BASE, num := 2 }

theorem collectChain_splitRam (writable : Bool) :
    collectChain (splitRam writable) splitLayout 0 = some (splitChain writable) := by
  cases writable <;> decide +kernel

theorem chainInRam_splitRam (writable : Bool) :
    ChainInRam (splitRam writable) (splitChain writable) := by
  unfold ChainInRam InRam
  cases writable <;> decide +kernel

theorem apart_splitChain (writable : Bool) : Spans.Apart (spans (splitChain writable)) := by
  have hspans : spans (splitChain writable) = [(32, 5), (37, 9)] := by
    cases writable <;> decide +kernel
  rw [hspans]
  exact List.pairwise_pair.mpr fun i hfirst hsecond => absurd hfirst.2 (Nat.not_lt.2 hsecond.1)

/-- A frame of two bytes goes through the split chain either way. -/
theorem framing_of_any_split_two :
    (callOf transmitChain splitLayout 0 (new, splitRam false)).after.1.outbox = [[7, 9]] ∧
      Spans.gather (callOf deliverHandler splitLayout 0
        (new.receiveFrame [7, 9], splitRam true)).after.2.data [(32, 5), (37, 9)] =
        [0, 0, 0, 0, 0, 0, 0, 0, 0, 0, 1, 0, 7, 9] := by
  have hlegal : 1 ≤ ([7, 9] : List U8).length ∧ ([7, 9] : List U8).length ≤ MAX_FRAME_BYTES := by
    decide
  have hsent := (framing_of_any_split (s := (new, splitRam false)) (collectChain_splitRam false)
    (chainInRam_splitRam false) (apart_splitChain false) hlegal).1 (List.replicate 12 0)
    (by decide) rfl (by decide +kernel)
  have hreceived := (framing_of_any_split (s := (new.receiveFrame [7, 9], splitRam true))
    (collectChain_splitRam true) (chainInRam_splitRam true) (apart_splitChain true) hlegal).2 rfl
  exact ⟨hsent.2.1, (hreceived.1 (by decide)).2.1⟩

end VirtioNet

end EmulateComputer

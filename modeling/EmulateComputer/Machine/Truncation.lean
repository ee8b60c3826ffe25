import EmulateComputer.Machine.Snapshot

/-!
# Truncation — a container that was cut short is never restored

The reader of a container takes its sections one after the other, each by its own length field, and
it takes a section whole before it looks into the body.  So whatever a section is read for, and
whether or not its contents are accepted, the reader has either failed or passed exactly the bytes
that were written for it (`Cursor.Frames`).  Nothing depends on what the bodies say.
-/

namespace EmulateComputer

open Cursor (Frames frames_pure frames_throw)

/-- An answer of which nothing is said. -/
abbrev Anything {α : Type} : α → Prop := fun _ => True

theorem frames_word {w n : Nat} (v : BitVec w) (h : w ≤ 8 * n) :
    Frames (Reader.word w n) (Bytes.toLE n v) (· = v) := by
  refine (Cursor.frames_take (Bytes.length_toLE n v)).bind_nil fun b hb => frames_pure ?_
  rw [hb, Bytes.ofLE_toLE n v h]

variable {bs : List U8}

/-- A section is passed as a whole, and its answer is that of its body. -/
theorem frames_sectionOf {α : Type} (name : String) (expected version : U16) {body : Read α}
    {P : α → Prop} (hlen : bs.length < 2 ^ 32) (h : ∀ a c, body (Cursor.new bs) = .ok a c → P a) :
    Frames (Reader.readSection name expected body) (Writer.sectionOf version bs) P := by
  refine (frames_word version (by decide)).bind fun v _ => ?_
  split
  · exact frames_throw _ _ _
  refine (frames_word (BitVec.ofNat 32 bs.length) (by decide)).bind fun len hlen' => ?_
  have hlength : bs.length = len.toNat := by rw [hlen', BitVec.toNat_ofNat, Nat.mod_eq_of_lt hlen]
  refine (Cursor.frames_take hlength).bind_nil fun taken htaken => ?_
  rw [htaken]
  split
  · exact frames_throw _ _ _
  · next hbody =>
    split
    · exact frames_throw _ _ _
    · exact frames_pure (h _ _ hbody)

/-- A section is passed as a whole, whatever is made of its body. -/
theorem frames_section {α : Type} (name : String) (expected version : U16) (body : Read α)
    (h : bs.length < 2 ^ 32) :
    Frames (Reader.readSection name expected body) (Writer.sectionOf version bs) Anything :=
  frames_sectionOf name expected version h fun _ _ _ => trivial

/-- The length field counts modulo 2^32, so of a longer body only a part is in the section. -/
theorem sectionOf_eq_append (version : U16) (bs : List U8) :
    ∃ part rest, bs = part ++ rest ∧ part.length < 2 ^ 32 ∧
      Writer.sectionOf version bs = Writer.sectionOf version part ++ rest := by
  refine ⟨bs.take (bs.length % 2 ^ 32), bs.drop (bs.length % 2 ^ 32),
    (List.take_append_drop _ _).symm, ?_, ?_⟩
  · rw [List.length_take_of_le (Nat.mod_le _ _)]
    exact Nat.mod_lt _ (by decide)
  · have hfield : BitVec.ofNat 32 (bs.take (bs.length % 2 ^ 32)).length =
        BitVec.ofNat 32 bs.length := by
      rw [List.length_take_of_le (Nat.mod_le _ _)]
      exact BitVec.eq_of_toNat_eq (by simp)
    simp only [Writer.sectionOf, hfield, List.append_assoc, List.take_append_drop]

namespace Machine

variable {β ν : Type}

/-- The bodies of the sections of a container, in their order. -/
def sectionBodies (m : Machine β ν) (identity : Snapshot.SnapshotIdentity)
    (overlay : Snapshot.DiskOverlay) : List (List U8) :=
  let bus := m.bus
  [(m.header identity overlay).body, m.cpu.snapshotBody, m.cpu.csr.snapshotBody,
    bus.clint.snapshotBody, bus.plic.snapshotBody, bus.uart.snapshotBody, bus.rtc.snapshotBody,
    bus.virtioBlk.snapshotBody, bus.virtioBlk.transport.snapshotBody,
    bus.virtioConsole.snapshotBody, bus.virtioConsole.transport.snapshotBody,
    Writer.bytes bus.virtioRng.entropy, bus.virtioRng.transport.snapshotBody,
    bus.virtioNet.snapshotBody, bus.virtioNet.transport.snapshotBody,
    bus.virtioKbd.snapshotBody, bus.virtioKbd.transport.snapshotBody,
    bus.virtioTablet.snapshotBody, bus.virtioTablet.transport.snapshotBody,
    Writer.u32 bus.simpleIrq.pending, bus.framebufferBlitter.snapshotBody, m.machineBody,
    bus.ram.snapshotBody, overlay.body]

/-- Every section body has a length its `u32` field can hold. -/
def SectionsFit (m : Machine β ν) (identity : Snapshot.SnapshotIdentity)
    (overlay : Snapshot.DiskOverlay) : Prop :=
  ∀ body ∈ m.sectionBodies identity overlay, body.length < 2 ^ 32

/-- A device behind a virtqueue: its own section, then that of its transport. -/
theorem frames_transported {α δ : Type} {name : String} {expected version : U16} {body : Read α}
    {n n' : Nat} {max max' : U16} {t : Transport n' max'} {build : α → Transport n max → δ}
    (h : bs.length < 2 ^ 32) (ht : t.snapshotBody.length < 2 ^ 32) :
    Frames
      (do
        let a ← Reader.readSection name expected body
        let transport ← Transport.restore n max
        pure (build a transport))
      (Writer.sectionOf version bs ++ t.snapshot) Anything :=
  (frames_section _ _ _ _ h).bind fun _ _ =>
    (frames_section _ _ _ _ ht).bind_nil fun _ _ => frames_pure trivial

variable {β' ν' : Type} {identity : Snapshot.SnapshotIdentity} {overlay : Snapshot.DiskOverlay}

/-- The checks of the header read nothing. -/
theorem frames_checkHeader (m : Machine β ν) (check : Snapshot.RestoreCheck)
    (header : Snapshot.SnapshotHeader) : Frames (m.checkHeader check header) [] Anything := by
  unfold checkHeader
  -- Every branch ends in a refusal or in `pure`.
  repeat' split
  all_goals first
    | exact frames_throw _ _ _
    | exact frames_pure trivial

theorem frames_restoreDevices (m : Machine β ν) (target : Machine β' ν')
    (hfit : m.SectionsFit identity overlay) :
    Frames target.restoreDevices m.snapshotDevices Anything := by
  simp only [SectionsFit, sectionBodies, List.forall_mem_cons] at hfit
  obtain ⟨-, -, -, hclint, hplic, huart, hrtc, hblk, hblkT, hconsole, hconsoleT, hrng, hrngT, hnet,
    hnetT, hkbd, hkbdT, htablet, htabletT, hirq, hblitter, hmachine, -⟩ := hfit
  refine (frames_section _ _ _ _ hclint).bind fun _ _ => ?_
  refine Frames.bind (P := Anything) ?_ fun _ _ => ?_
  · exact (frames_section _ _ _ _ hplic).bind_nil fun _ _ => frames_pure trivial
  refine (frames_section _ _ _ _ huart).bind fun _ _ => ?_
  refine (frames_section _ _ _ _ hrtc).bind fun _ _ => ?_
  refine (frames_transported hblk hblkT).bind fun _ _ => ?_
  refine (frames_transported hconsole hconsoleT).bind fun _ _ => ?_
  refine (frames_transported hrng hrngT).bind fun _ _ => ?_
  refine (frames_transported hnet hnetT).bind fun _ _ => ?_
  refine (frames_transported hkbd hkbdT).bind fun _ _ => ?_
  refine (frames_transported htablet htabletT).bind fun _ _ => ?_
  refine (frames_section _ _ _ _ hirq).bind fun _ _ => ?_
  refine (frames_section _ _ _ _ hblitter).bind fun _ _ => ?_
  exact frames_section _ _ _ _ hmachine

/-- The reader of a container passes what was written, on any machine and with any check. -/
theorem frames_readContainer (m : Machine β ν) (target : Machine β' ν')
    (check : Snapshot.RestoreCheck) (hfit : m.SectionsFit identity overlay) :
    Frames (target.readContainer check) (m.snapshot identity overlay) Anything := by
  have hbodies := hfit
  simp only [SectionsFit, sectionBodies, List.forall_mem_cons] at hbodies
  obtain ⟨hheader, hcpu, hcsr, -, -, -, -, -, -, -, -, -, -, -, -, -, -, -, -, -, -, -, hram,
    hoverlay, -⟩ := hbodies
  refine (Cursor.frames_take rfl).bind fun magic _ => ?_
  split
  · exact frames_throw _ _ _
  refine (frames_word Snapshot.FORMAT_VERSION (by decide)).bind fun version _ => ?_
  split
  · exact frames_throw _ _ _
  refine (frames_section _ _ _ _ hheader).bind fun header _ => ?_
  refine (frames_checkHeader target check header).nil_bind fun _ _ => ?_
  refine Frames.bind (P := Anything) ?_ fun cpu _ => ?_
  · exact (frames_section _ _ _ _ hcpu).bind fun _ _ =>
      (frames_section _ _ _ _ hcsr).bind_nil fun _ _ => frames_pure trivial
  refine (frames_restoreDevices m _ hfit).bind fun restored _ => ?_
  refine Frames.bind (P := Anything) ?_ fun ram _ => ?_
  · exact (frames_section _ _ _ _ hram).bind_nil fun _ _ => frames_pure trivial
  exact (frames_section _ _ _ _ hoverlay).bind_nil fun _ _ => frames_pure trivial

/-- Restoring a container that was cut short fails, on any machine and with any check. -/
theorem restore_truncated [BlockBackend β'] (m : Machine β ν) (target : Machine β' ν')
    (identity : Snapshot.SnapshotIdentity) (overlay : Snapshot.DiskOverlay)
    (check : Snapshot.RestoreCheck) (data : List U8) (hfit : m.SectionsFit identity overlay)
    (hcut : data <+: m.snapshot identity overlay) (hne : data ≠ m.snapshot identity overlay) :
    ∃ why target', restore data check target = .error why target' := by
  obtain ⟨why, c, hread⟩ := (frames_readContainer m target check hfit).fails_of_cut hcut hne
  refine ⟨why, target, ?_⟩
  rw [restore, hread]

def fresh : Machine MemBackend Unit :=
  new 0 Ram.no_bytes

def freshIdentity : Snapshot.SnapshotIdentity :=
  ⟨⟨List.replicate 32 0, rfl⟩, "disk"⟩

theorem sectionsFit_fresh : fresh.SectionsFit freshIdentity ⟨[]⟩ := by
  unfold SectionsFit
  decide +kernel

/-- A fresh machine's container, cut in the header. -/
theorem restore_truncated_header :
    ∃ why m', restore ((fresh.snapshot freshIdentity ⟨[]⟩).take 40) ⟨none, none⟩ fresh =
      .error why m' := by
  have hne : (fresh.snapshot freshIdentity ⟨[]⟩).take 40 ≠ fresh.snapshot freshIdentity ⟨[]⟩ := by
    decide +kernel
  exact restore_truncated fresh fresh freshIdentity ⟨[]⟩ ⟨none, none⟩ _ sectionsFit_fresh
    (List.take_prefix ..) hne

end Machine

end EmulateComputer

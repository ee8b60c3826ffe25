import EmulateComputer.Relay.Multiplex
import EmulateComputer.Hostnet.Tungstenite

/-!
# CreditFrames — the credit carried by the frames of a link

Data uses up credit, `WINDOW` and `ACK` give it back.  How much of either a frame carries for a
channel is read off with the decoder of the end that receives it: data with `decodeData`, which the
native client's `splitData` agrees with; credit for the relay with `decodeControl`; acknowledgements
for the client with `splitControl`.
-/

namespace EmulateComputer

open Mux

namespace Frame

def dataBytes (id : Nat) : Frame → Nat
  | .binary bytes =>
    match decodeData bytes with
    | .ok (id', data) => if id' = id then data.length else 0
    | .error _ => 0
  | .text _ => 0

def creditBytes (id : Nat) : Frame → Nat
  | .text line =>
    match decodeControl line.toList with
    | .ok (id', command) =>
      match credit command "WINDOW" with
      | .ok (some bytes) => if id' = id then bytes else 0
      | _ => 0
    | .error _ => 0
  | .binary _ => 0

def ackBytes (id : Nat) : Frame → Nat
  | .text line =>
    match TungsteniteTransport.splitControl line.toList with
    | some (id', command) =>
      match Text.stripPrefix "ACK " command with
      | some value =>
        if id' = id then (TungsteniteTransport.positive value MUX_WINDOW).getD 0 else 0
      | none => 0
    | none => 0
  | .binary _ => 0

/-- A grant that the relay would call invalid. -/
def BadCredit (f : Frame) : Prop :=
  ∃ line id command error, f = .text line ∧ decodeControl line.toList = .ok (id, command) ∧
    credit command "WINDOW" = .error error

/-- An acknowledgement that the client cannot read. -/
def BadAck (f : Frame) : Prop :=
  ∃ line id command value, f = .text line ∧
    TungsteniteTransport.splitControl line.toList = some (id, command) ∧
    Text.stripPrefix "ACK " command = some value ∧
    TungsteniteTransport.positive value MUX_WINDOW = none

/-- The channel that the relay takes a frame for. -/
def channel : Frame → Option Nat
  | .binary bytes => (decodeData bytes).toOption.map (·.1)
  | .text line => (decodeControl line.toList).toOption.map (·.1)

end Frame

/-! ## Totals over a link -/

def dataIn (frames : List Frame) (id : Nat) : Nat :=
  (frames.map (Frame.dataBytes id)).sum

def creditIn (frames : List Frame) (id : Nat) : Nat :=
  (frames.map (Frame.creditBytes id)).sum

def acksIn (frames : List Frame) (id : Nat) : Nat :=
  (frames.map (Frame.ackBytes id)).sum

section Totals

variable (f : Frame) (frames : List Frame) (id : Nat)

@[simp]
theorem dataIn_cons : dataIn (f :: frames) id = f.dataBytes id + dataIn frames id := by
  simp [dataIn]

@[simp]
theorem creditIn_cons : creditIn (f :: frames) id = f.creditBytes id + creditIn frames id := by
  simp [creditIn]

@[simp]
theorem acksIn_cons : acksIn (f :: frames) id = f.ackBytes id + acksIn frames id := by
  simp [acksIn]

@[simp]
theorem dataIn_append : dataIn (frames ++ [f]) id = dataIn frames id + f.dataBytes id := by
  simp [dataIn]

@[simp]
theorem creditIn_append : creditIn (frames ++ [f]) id = creditIn frames id + f.creditBytes id := by
  simp [creditIn]

@[simp]
theorem acksIn_append : acksIn (frames ++ [f]) id = acksIn frames id + f.ackBytes id := by
  simp [acksIn]

end Totals

/-! ## What each written frame carries -/

namespace Frame

@[simp] theorem dataBytes_text (id : Nat) (line : String) : (Frame.text line).dataBytes id = 0 :=
  rfl

theorem not_badAck_binary (bytes : List U8) : ¬ BadAck (.binary bytes) := by
  rintro ⟨line, id, command, value, h, -⟩
  cases h

theorem not_badCredit_binary (bytes : List U8) : ¬ BadCredit (.binary bytes) := by
  rintro ⟨line, id, command, error, h, -⟩
  cases h

variable {id id' bytes : Nat} {command line : String}

theorem dataBytes_of_decode {bytes data : List U8} (h : decodeData bytes = .ok (id, data))
    (id' : Nat) : (Frame.binary bytes).dataBytes id' = if id = id' then data.length else 0 := by
  simp only [dataBytes, h]

theorem creditBytes_of_decode {command : List Char}
    (h : decodeControl line.toList = .ok (id, command))
    (hcredit : credit command "WINDOW" = .ok (some bytes)) (id' : Nat) :
    (Frame.text line).creditBytes id' = if id = id' then bytes else 0 := by
  simp only [creditBytes, h, hcredit]

theorem dataBytes_encodeData (hid : id < 2 ^ 32) (id' : Nat) (data : List U8) :
    (Frame.binary (encodeData id data)).dataBytes id' ≤ if id = id' then data.length else 0 := by
  unfold dataBytes
  dsimp only
  split
  · next h =>
    obtain ⟨rfl, rfl⟩ := eq_of_decodeData_encodeData hid h
    exact Nat.le_refl _
  · exact Nat.zero_le _

theorem dataBytes_eq_zero {f : Frame} (h : f.channel ≠ some id) : f.dataBytes id = 0 := by
  cases f with
  | text line => rfl
  | binary bytes =>
    unfold dataBytes
    dsimp only
    split
    · next hdecode =>
      refine if_neg fun heq => h ?_
      simp only [channel, hdecode, ← heq]
      rfl
    · rfl

theorem channel_encodeData {data : List U8} (hid : id < 2 ^ 32)
    (h : (Frame.binary (encodeData id data)).channel = some id') : id' = id := by
  simp only [channel] at h
  cases hdecode : decodeData (encodeData id data) with
  | error e => rw [hdecode] at h; cases h
  | ok r =>
    rw [hdecode] at h
    cases h
    exact (eq_of_decodeData_encodeData hid hdecode).1

theorem channel_address (h : (Frame.text (address id command)).channel = some id') : id' = id := by
  simp only [channel] at h
  cases hdecode : decodeControl (address id command).toList with
  | error e => rw [hdecode] at h; cases h
  | ok r =>
    rw [hdecode] at h
    cases h
    exact (eq_of_decodeControl_address hdecode).1

theorem not_badCredit_address {found : Option Nat}
    (hcredit : credit command.toList "WINDOW" = .ok found) :
    ¬ BadCredit (.text (address id command)) := by
  rintro ⟨line, id', command', error, heq, hdecode, herror⟩
  cases heq
  obtain ⟨-, rfl⟩ := eq_of_decodeControl_address hdecode
  rw [hcredit] at herror
  cases herror

/-- A command that is no grant carries no credit, and no bad one. -/
theorem creditBytes_address_of_other (h : Text.stripPrefix "WINDOW " command.toList = none)
    (id id' : Nat) :
    (Frame.text (address id command)).creditBytes id' = 0 ∧
      ¬ BadCredit (.text (address id command)) := by
  have hcredit : credit command.toList "WINDOW" = .ok none := by
    unfold credit
    rw [show "WINDOW" ++ " " = "WINDOW " from rfl, h]
  refine ⟨?_, not_badCredit_address hcredit⟩
  unfold creditBytes
  dsimp only
  split
  · next hdecode =>
    obtain ⟨-, rfl⟩ := eq_of_decodeControl_address hdecode
    rw [hcredit]
  · rfl

theorem toList_counted (start : String) (n : Nat) :
    (start ++ toString n).toList = start.toList ++ Nat.toDigits 10 n := by
  simp [toString, Nat.repr]

/-- A grant within the window is read as it was meant. -/
theorem credit_grant {n : Nat} (hpos : 0 < n) (hn : n ≤ MUX_WINDOW) :
    credit (s!"WINDOW {n}").toList "WINDOW" = .ok (some n) := by
  have hstrip : Text.stripPrefix ("WINDOW" ++ " ") (s!"WINDOW {n}").toList =
      some (Nat.toDigits 10 n) :=
    Text.stripPrefix_eq_some_iff.2 (toList_counted "WINDOW " n)
  unfold credit
  rw [hstrip]
  dsimp only
  rw [Decimal.positive_toDigits, if_neg (Nat.ne_of_gt hpos)]
  exact if_neg (Nat.not_lt.2 hn)

theorem creditBytes_grant {n : Nat} (hpos : 0 < n) (hn : n ≤ MUX_WINDOW) (id id' : Nat) :
    (Frame.text (address id s!"WINDOW {n}")).creditBytes id' ≤ (if id = id' then n else 0) ∧
      ¬ BadCredit (.text (address id s!"WINDOW {n}")) := by
  have hcredit := credit_grant hpos hn
  refine ⟨?_, not_badCredit_address hcredit⟩
  unfold creditBytes
  dsimp only
  split
  · next hdecode =>
    obtain ⟨rfl, rfl⟩ := eq_of_decodeControl_address hdecode
    rw [hcredit]
  · exact Nat.zero_le _

/-! ## The client's reading -/

section Client

open TungsteniteTransport

theorem eq_of_positive_toDigits {n m max : Nat} (h : positive (Nat.toDigits 10 n) max = some m) :
    m = n := by
  unfold positive at h
  rw [Decimal.positive_toDigits] at h
  by_cases hzero : n = 0
  · rw [if_pos hzero] at h
    cases h
  · simp only [if_neg hzero] at h
    split_ifs at h
    exact (Option.some.inj h).symm

theorem eq_of_splitControl_address {command' : List Char}
    (h : splitControl (address id command).toList = some (id', command')) :
    id' = id ∧ command' = command.toList := by
  have hsplit : Text.splitOnce ' ' (address id command).toList =
      some (Nat.toDigits 10 id, command.toList) := by
    have hdigit : ∀ c : Char, c.isDigit → decide (c ≠ ' ') = true := by
      intro c hc
      refine decide_eq_true fun heq => ?_
      rw [heq] at hc
      cases hc
    unfold Text.splitOnce
    rw [toList_address, Decimal.takeWhile_toDigits hdigit (by decide),
      Decimal.dropWhile_toDigits hdigit (by decide)]
  unfold splitControl at h
  simp only [hsplit, Option.map_eq_some_iff, Prod.mk.injEq] at h
  obtain ⟨n, hn, rfl, rfl⟩ := h
  exact ⟨eq_of_positive_toDigits hn, rfl⟩

/-- A command that is no acknowledgement acknowledges nothing, also not badly. -/
theorem ackBytes_address_of_other (h : Text.stripPrefix "ACK " command.toList = none)
    (id id' : Nat) :
    (Frame.text (address id command)).ackBytes id' = 0 ∧
      ¬ BadAck (.text (address id command)) := by
  constructor
  · unfold ackBytes
    dsimp only
    split
    · next hsplit =>
      obtain ⟨-, rfl⟩ := eq_of_splitControl_address hsplit
      rw [h]
    · rfl
  · rintro ⟨line, id'', command', value, heq, hsplit, hstrip, -⟩
    cases heq
    obtain ⟨-, rfl⟩ := eq_of_splitControl_address hsplit
    rw [h] at hstrip
    cases hstrip

theorem ackBytes_ack {n : Nat} (hpos : 0 < n) (hn : n ≤ MUX_WINDOW) (id id' : Nat) :
    (Frame.text (address id s!"ACK {n}")).ackBytes id' ≤ (if id = id' then n else 0) ∧
      ¬ BadAck (.text (address id s!"ACK {n}")) := by
  have hstrip : Text.stripPrefix "ACK " (s!"ACK {n}").toList = some (Nat.toDigits 10 n) :=
    Text.stripPrefix_eq_some_iff.2 (toList_counted "ACK " n)
  have hread : positive (Nat.toDigits 10 n) MUX_WINDOW = some n := by
    have hmax : MUX_WINDOW ≤ U32_MAX := by decide
    unfold positive
    rw [Decimal.positive_toDigits, if_neg (Nat.ne_of_gt hpos)]
    exact if_pos ⟨hn.trans hmax, hn⟩
  constructor
  · unfold ackBytes
    dsimp only
    split
    · next hsplit =>
      obtain ⟨rfl, rfl⟩ := eq_of_splitControl_address hsplit
      rw [hstrip]
      dsimp only
      rw [hread, Option.getD_some]
    · exact Nat.zero_le _
  · rintro ⟨line, id'', command', value, heq, hsplit, hstrip', hbad⟩
    cases heq
    obtain ⟨-, rfl⟩ := eq_of_splitControl_address hsplit
    rw [hstrip] at hstrip'
    cases hstrip'
    rw [hread] at hbad
    cases hbad

theorem ackBytes_of_split {command value : List Char}
    (hsplit : splitControl line.toList = some (id, command))
    (hstrip : Text.stripPrefix "ACK " command = some value)
    (hread : positive value MUX_WINDOW = some bytes) (id' : Nat) :
    (Frame.text line).ackBytes id' = if id = id' then bytes else 0 := by
  simp only [ackBytes, hsplit, hstrip, hread, Option.getD_some]

/-- The client cuts a data frame as the relay does. -/
theorem decodeData_of_splitData {data bytes : List U8}
    (h : splitData data = some (id, bytes)) : decodeData data = .ok (id, bytes) := by
  unfold splitData at h
  unfold decodeData
  rw [show FRAME = MUX_FRAME from rfl] at h
  split at h
  · cases h
  · next hlen =>
    rw [if_neg hlen]
    dsimp only at h ⊢
    split at h
    · cases h
    · next hid =>
      rw [if_neg hid, Option.some.inj h]

end Client

end Frame

end EmulateComputer

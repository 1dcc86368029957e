import PersistShell.Ipc.Frame
import PersistShell.Ipc.Public
import PersistShell.Program.Framing

/-! The two protocols as framings of a byte stream. Both write the length of a frame into a
header of a fixed size. -/

namespace PersistShell

theorem drop_take_take {bytes : Bytes} {skip width n : Nat} (h : skip + width ≤ n) :
    ((bytes.take n).drop skip).take width = (bytes.drop skip).take width := by
  rw [List.drop_take, List.take_take, Nat.min_eq_left (by omega)]

section reader

variable {α β : Type}

theorem Reader.bind_eq_ok {m : Reader α} {f : α → Reader β} {bytes : Bytes} {r : β × Bytes} :
    (m >>= f) bytes = .ok r ↔ ∃ a rest, m bytes = .ok (a, rest) ∧ f a rest = .ok r := by
  change (m bytes).bind (fun p => f p.1 p.2) = .ok r ↔ _
  cases m bytes with
  | error e => exact ⟨nofun, fun ⟨_, _, h, _⟩ => (nomatch h)⟩
  | ok p => exact ⟨fun h => ⟨p.1, p.2, rfl, h⟩, fun ⟨_, _, hp, h⟩ => by cases hp; exact h⟩

theorem Reader.take_eq_ok {len : Nat} {bytes rest field : Bytes}
    (h : Reader.take len bytes = .ok (field, rest)) : rest = bytes.drop len := by
  unfold Reader.take at h
  split at h
  · cases h
  · cases h
    rfl

theorem Reader.unsigned_eq_ok {width value : Nat} {bytes rest : Bytes}
    (h : Reader.unsigned width bytes = .ok (value, rest)) : rest = bytes.drop width := by
  obtain ⟨field, rest', htake, hvalue⟩ := Reader.bind_eq_ok.mp h
  cases hvalue
  exact Reader.take_eq_ok htake

theorem Reader.rejectIf_eq_ok {c : Prop} [Decidable c] {e : HolderProtocolError} {u : Unit}
    {bytes rest : Bytes} (h : (rejectIf c e : Reader Unit) bytes = .ok (u, rest)) :
    ¬ c ∧ rest = bytes := by
  unfold rejectIf at h
  split at h
  · cases h
  · cases h
    exact ⟨‹_›, rfl⟩

/-- What a reader makes of a payload when it has read the first `n` bytes: `P` of the bytes
after them and of the value. -/
def Reader.Ends (n : Nat) (P : Bytes → α → Prop) (m : Reader α) : Prop :=
  ∀ bytes a rest, m bytes = .ok (a, rest) → P (bytes.drop n) a

variable {P : Bytes → α → Prop}

theorem Reader.Ends.fixed {len : Nat} (n : Nat) {f : Bytes → Reader α} (h : ∀ field, Reader.Ends n P (f field)) :
    Reader.Ends (len + n) P (Reader.fixed len >>= f) := by
  intro bytes a rest hrun
  obtain ⟨field, rest', hfield, hlater⟩ := Reader.bind_eq_ok.mp hrun
  have hend := h field rest' a rest hlater
  rw [Reader.take_eq_ok hfield, List.drop_drop] at hend
  exact hend

theorem Reader.Ends.field {width : Nat} (n : Nat) {f : Nat → Reader α} (h : ∀ value, Reader.Ends n P (f value)) :
    Reader.Ends (width + n) P (Reader.unsigned width >>= f) := by
  intro bytes a rest hrun
  obtain ⟨value, rest', hvalue, hlater⟩ := Reader.bind_eq_ok.mp hrun
  have hend := h value rest' a rest hlater
  rw [Reader.unsigned_eq_ok hvalue, List.drop_drop] at hend
  exact hend

theorem Reader.Ends.check {n : Nat} {c : Prop} [Decidable c] {e : HolderProtocolError}
    {f : Unit → Reader α} (h : ¬ c → Reader.Ends n P (f ())) :
    Reader.Ends n P ((rejectIf c e : Reader Unit) >>= f) := by
  intro bytes a rest hrun
  obtain ⟨_, rest', hcheck, hlater⟩ := Reader.bind_eq_ok.mp hrun
  obtain ⟨hc, rfl⟩ := Reader.rejectIf_eq_ok hcheck
  exact h hc _ a rest hlater

end reader

/-- The payload of a decoded frame is what follows the header. -/
theorem payload_of_decode {bytes : Bytes} {minor : Nat} {frame : HolderFrame}
    (h : decodeFrameWithMinor bytes minor = .ok frame) :
    frame.payload = bytes.drop holderHeaderSize ∧
      frame.payload.length ≤ frame.messageType.maxPayload := by
  obtain ⟨-, -, h⟩ := PersistShell.bind_eq_ok.mp h
  obtain ⟨-, -, h⟩ := PersistShell.bind_eq_ok.mp h
  unfold Reader.decode at h
  cases hread : readFrame minor bytes with
  | error e =>
    rw [hread] at h
    cases h
  | ok p =>
    rw [hread] at h
    cases h
    have hframe : Reader.Ends 32 (fun payload frame => frame.payload = payload ∧
        frame.payload.length ≤ frame.messageType.maxPayload) (readFrame minor) := by
      refine Reader.Ends.fixed 28 fun magic => Reader.Ends.check fun _ => ?_
      refine Reader.Ends.field 26 fun major => Reader.Ends.check fun _ => ?_
      refine Reader.Ends.field 24 fun actual => Reader.Ends.check fun _ => ?_
      refine Reader.Ends.field 20 fun payloadLen => Reader.Ends.field 18 fun rawType => ?_
      cases hkind : HolderMessageType.fromU16 rawType with
      | none =>
        intro bytes frame rest h
        cases h
      | some messageType =>
        refine Reader.Ends.field 16 fun flags => Reader.Ends.field 12 fun requestId => ?_
        refine Reader.Ends.field 4 fun generation => Reader.Ends.check fun _ => ?_
        refine Reader.Ends.field 0 fun reserved => Reader.Ends.check fun _ => Reader.Ends.check fun hlimit => ?_
        intro bytes frame rest h
        obtain ⟨payload, rest', hget, h⟩ := Reader.bind_eq_ok.mp h
        cases hget
        obtain ⟨_, _, hcheck, h⟩ := Reader.bind_eq_ok.mp h
        have hshort := (Reader.rejectIf_eq_ok hcheck).1
        obtain ⟨_, _, hcheck, h⟩ := Reader.bind_eq_ok.mp h
        have hlong := (Reader.rejectIf_eq_ok hcheck).1
        cases h
        refine ⟨rfl, ?_⟩
        dsimp only
        omega
    exact hframe bytes p.1 p.2 hread

section publicStream

theorem Frame.size_pos (frame : Frame) : 0 < headerSize + frame.payload.length :=
  Nat.add_pos_left (by decide) _

/-- The payload is what the header says, when all of it is there. -/
theorem Frame.size_front {bytes : Bytes}
    (htotal : headerSize + fromBeBytes (bytes.take 4) = bytes.length) :
    headerSize + ((bytes.drop headerSize).take (FrameAccumulator.payloadLen ⟨bytes⟩)).length =
      bytes.length := by
  simp only [FrameAccumulator.payloadLen, List.length_take, List.length_drop]
  omega

/-- A public frame: its header says how long it is. -/
def publicFormat : HeaderFormat PersistError Frame where
  header := headerSize
  length header := .ok (FrameAccumulator.total ⟨header⟩)
  header_le := by
    intro bytes n h
    cases h
    exact Nat.le_add_right _ _
  decode bytes := FrameAccumulator.front ⟨bytes⟩
  size frame := headerSize + frame.payload.length
  size_pos := Frame.size_pos
  size_decode := by
    intro bytes frame hlength hdecode
    have htotal : headerSize + fromBeBytes (bytes.take 4) = bytes.length := by
      have := Except.ok.inj hlength
      rw [FrameAccumulator.total, FrameAccumulator.payloadLen] at this
      dsimp only at this
      rw [List.take_take] at this
      exact this
    unfold FrameAccumulator.front at hdecode
    cases hkind : MessageType.fromU16 (FrameAccumulator.rawType ⟨bytes⟩) with
    | none =>
      rw [hkind] at hdecode
      cases hdecode
    | some msgType =>
      rw [hkind] at hdecode
      obtain ⟨_, -, hframe⟩ := PersistShell.bind_eq_ok.mp hdecode
      cases hframe
      exact Frame.size_front htotal

def publicFraming : Framing PersistError Frame := publicFormat.framing

/-- The accumulator reads the frames of the stream. -/
theorem FrameAccumulator.tryRead_eq (a : FrameAccumulator) :
    a.tryRead = (publicFraming.tryRead a.buf).map (Option.map fun p => (p.1, ⟨p.2⟩)) := by
  obtain ⟨bytes⟩ := a
  have htotal : FrameAccumulator.total ⟨bytes.take headerSize⟩ = FrameAccumulator.total ⟨bytes⟩ := by
    simp only [FrameAccumulator.total, FrameAccumulator.payloadLen, headerSize, List.take_take]
    rfl
  have hlength : publicFormat.length (bytes.take publicFormat.header) =
      .ok (FrameAccumulator.total ⟨bytes⟩) := congrArg Except.ok htotal
  change _ = (publicFormat.tryRead bytes).map _
  unfold FrameAccumulator.tryRead
  dsimp only
  by_cases hheader : bytes.length < headerSize
  · rw [if_pos hheader, HeaderFormat.tryRead_short hheader]
    rfl
  rw [if_neg hheader]
  by_cases hall : bytes.length < FrameAccumulator.total ⟨bytes⟩
  · rw [if_pos hall, HeaderFormat.tryRead_partial hheader hlength hall]
    rfl
  have hle : headerSize ≤ FrameAccumulator.total ⟨bytes⟩ := Nat.le_add_right _ _
  rw [headerSize] at hle
  -- the fields of the frame lie within its own bytes
  have hfront : publicFormat.decode (bytes.take (FrameAccumulator.total ⟨bytes⟩)) =
      FrameAccumulator.front ⟨bytes⟩ := by
    have hpayload : FrameAccumulator.payloadLen ⟨bytes.take (FrameAccumulator.total ⟨bytes⟩)⟩ =
        FrameAccumulator.payloadLen ⟨bytes⟩ :=
      congrArg fromBeBytes (@drop_take_take bytes 0 _ _ (by omega))
    have htype : FrameAccumulator.rawType ⟨bytes.take (FrameAccumulator.total ⟨bytes⟩)⟩ =
        FrameAccumulator.rawType ⟨bytes⟩ := congrArg fromBeBytes (drop_take_take (by omega))
    have hflags : FrameAccumulator.flags ⟨bytes.take (FrameAccumulator.total ⟨bytes⟩)⟩ =
        FrameAccumulator.flags ⟨bytes⟩ := congrArg fromBeBytes (drop_take_take (by omega))
    have hrequest : FrameAccumulator.requestId ⟨bytes.take (FrameAccumulator.total ⟨bytes⟩)⟩ =
        FrameAccumulator.requestId ⟨bytes⟩ := congrArg fromBeBytes (drop_take_take (by omega))
    have hbytes : ((bytes.take (FrameAccumulator.total ⟨bytes⟩)).drop headerSize).take
        (FrameAccumulator.payloadLen ⟨bytes⟩) =
        (bytes.drop headerSize).take (FrameAccumulator.payloadLen ⟨bytes⟩) :=
      drop_take_take (Nat.le_refl _)
    change FrameAccumulator.front ⟨_⟩ = _
    unfold FrameAccumulator.front
    rw [hpayload, htype, hflags, hrequest]
    dsimp only
    rw [hbytes]
  rw [if_neg hall, HeaderFormat.tryRead_whole hheader hlength hall, hfront]
  cases FrameAccumulator.front ⟨bytes⟩ with
  | error e => rfl
  | ok frame => rfl

end publicStream

section holderStream

/-- `try_read_with_minor`. -/
def HolderFrameAccumulator.tryReadWithMinor (a : HolderFrameAccumulator) (minor : Nat) :
    Except HolderProtocolError (Option (HolderFrame × HolderFrameAccumulator)) := do
  match ← a.tryReadSupported with
  | none => return none
  | some ((actual, frame), a) => if actual = minor then return some (frame, a) else throw .versionMismatch

theorem HolderFrameAccumulator.header_le {header : Bytes} {n : Nat}
    (h : (if HolderFrameAccumulator.payloadLen ⟨header⟩ > maxHolderControlFrame then
        .error .payloadTooLarge
      else .ok (holderHeaderSize + HolderFrameAccumulator.payloadLen ⟨header⟩) :
      Except HolderProtocolError Nat) = .ok n) : holderHeaderSize ≤ n := by
  split at h
  · cases h
  · cases h
    exact Nat.le_add_right _ _

def holderFormat (minor : Nat) : HeaderFormat HolderProtocolError HolderFrame where
  header := holderHeaderSize
  length header :=
    if HolderFrameAccumulator.payloadLen ⟨header⟩ > maxHolderControlFrame then .error .payloadTooLarge
    else .ok (holderHeaderSize + HolderFrameAccumulator.payloadLen ⟨header⟩)
  header_le := @HolderFrameAccumulator.header_le
  decode bytes := do
    let frame ← decodeFrameWithMinor bytes (HolderFrameAccumulator.minor ⟨bytes⟩)
    if HolderFrameAccumulator.minor ⟨bytes⟩ = minor then return frame else throw .versionMismatch
  size frame := holderHeaderSize + frame.payload.length
  size_pos := by
    intro frame
    rw [holderHeaderSize]
    omega
  size_decode := by
    intro bytes frame hlength hdecode
    obtain ⟨frame', hframe, hminor⟩ := PersistShell.bind_eq_ok.mp hdecode
    split at hminor
    · cases hminor
      have hpayload := (payload_of_decode hframe).1
      have hheader : holderHeaderSize ≤ bytes.length := by
        split at hlength
        · cases hlength
        · have := Except.ok.inj hlength
          omega
      rw [hpayload, List.length_drop]
      omega
    · cases hminor

def holderFraming (minor : Nat) : Framing HolderProtocolError HolderFrame :=
  (holderFormat minor).framing

/-- A frame that is read off the stream keeps to the limit of its type. -/
theorem payload_le_of_read {minor : Nat} {bytes rest : Bytes} {frame : HolderFrame}
    (h : (holderFraming minor).tryRead bytes = .ok (some (frame, rest))) :
    frame.payload.length ≤ frame.messageType.maxPayload := by
  obtain ⟨-, n, -, -, hdecode, -⟩ := HeaderFormat.tryRead_item.mp h
  obtain ⟨frame', hframe, hminor⟩ := PersistShell.bind_eq_ok.mp hdecode
  split at hminor
  · cases hminor
    exact (payload_of_decode hframe).2
  · cases hminor

theorem HolderFrameAccumulator.tryReadWithMinor_eq (a : HolderFrameAccumulator) (minor : Nat) :
    a.tryReadWithMinor minor =
      ((holderFraming minor).tryRead a.buffer).map (Option.map fun p => (p.1, ⟨p.2⟩)) := by
  obtain ⟨bytes⟩ := a
  have hlen : HolderFrameAccumulator.payloadLen ⟨bytes.take holderHeaderSize⟩ =
      HolderFrameAccumulator.payloadLen ⟨bytes⟩ :=
    congrArg fromBeBytes (drop_take_take (by rw [holderHeaderSize]; omega))
  change _ = ((holderFormat minor).tryRead bytes).map _
  unfold tryReadWithMinor tryReadSupported
  dsimp only
  by_cases hheader : bytes.length < holderHeaderSize
  · rw [if_pos hheader, HeaderFormat.tryRead_short hheader]
    rfl
  rw [if_neg hheader]
  by_cases hlimit : HolderFrameAccumulator.payloadLen ⟨bytes⟩ > maxHolderControlFrame
  · have hlength : (holderFormat minor).length (bytes.take (holderFormat minor).header) =
        .error .payloadTooLarge := if_pos (hlen ▸ hlimit)
    rw [rejectIf, if_pos hlimit, HeaderFormat.tryRead_fault hheader hlength]
    rfl
  have hlength : (holderFormat minor).length (bytes.take (holderFormat minor).header) =
      .ok (holderHeaderSize + HolderFrameAccumulator.payloadLen ⟨bytes⟩) := by
    change (if _ then _ else _ : Except _ _) = _
    rw [if_neg (hlen ▸ hlimit)]
    exact congrArg (fun n => Except.ok (holderHeaderSize + n)) hlen
  rw [rejectIf, if_neg hlimit, pure_bind]
  by_cases hall : bytes.length < holderHeaderSize + HolderFrameAccumulator.payloadLen ⟨bytes⟩
  · rw [if_pos hall, HeaderFormat.tryRead_partial hheader hlength hall]
    rfl
  have hminor : HolderFrameAccumulator.minor
      ⟨bytes.take (holderHeaderSize + HolderFrameAccumulator.payloadLen ⟨bytes⟩)⟩ =
      HolderFrameAccumulator.minor ⟨bytes⟩ :=
    congrArg fromBeBytes (drop_take_take (by rw [holderHeaderSize]; omega))
  rw [if_neg hall, HeaderFormat.tryRead_whole hheader hlength hall]
  dsimp only [holderFormat]
  rw [hminor]
  cases decodeFrameWithMinor
      (bytes.take (holderHeaderSize + HolderFrameAccumulator.payloadLen ⟨bytes⟩))
      (HolderFrameAccumulator.minor ⟨bytes⟩) with
  | error e => rfl
  | ok frame =>
    change (if _ then _ else _ : Except _ _) = Except.map _ (Except.map _ (if _ then _ else _))
    split
    · rfl
    · rfl

end holderStream

end PersistShell

import PersistShell.Ipc.Streams

/-! The two readers of the public protocol: `read_frame`, which waits on the socket for the
bytes of a frame, and the accumulator, which is fed with what happens to have arrived. The
accumulator looks at the header of a frame only when the whole frame is there. -/

namespace PersistShell

/-- `read_n` on a socket that gives the bytes of `stream` and then is closed. -/
def readN (n : Nat) (stream : Bytes) : Except Errno (Bytes × Bytes) :=
  if stream.length < n then .error .unexpectedEof else .ok (stream.take n, stream.drop n)

/-- `u32::from_be_bytes(header[0..4])` and so on are the fields of the header. -/
def Frame.readFrame (stream : Bytes) : Except PersistError (Frame × Bytes) := do
  let (header, stream) ← (readN headerSize stream).mapError (PersistError.io "read frame header")
  let payloadLen := FrameAccumulator.payloadLen ⟨header⟩
  let rawType := FrameAccumulator.rawType ⟨header⟩
  let flags := FrameAccumulator.flags ⟨header⟩
  let requestId := FrameAccumulator.requestId ⟨header⟩
  rejectIf (payloadLen > maxControlFrame)
    (PersistError.invalidArgument ("frame payload too large: " ++ toString payloadLen ++ " > " ++
      toString maxControlFrame))
  let some msgType := MessageType.fromU16 rawType
    | throw (.invalidArgument ("unknown message type: 0x" ++ upperHex4 rawType))
  if payloadLen > 0 then
    let (payload, stream) ← (readN payloadLen stream).mapError
      (PersistError.io "read frame payload")
    return ({ msgType, flags, requestId, payload }, stream)
  else
    return ({ msgType, flags, requestId, payload := [] }, stream)

/-- The error that a reader gets when the stream ends. -/
def PersistError.isEndOfStream : PersistError → Bool
  | .io _ .unexpectedEof => true
  | _ => false

/-- `read_frame` again and again: the frames, and the error that refuses one, if any. -/
def Frame.readLoop : Nat → Bytes → Cut PersistError Frame
  | 0, stream => ⟨[], stream, none⟩
  | fuel + 1, stream =>
    match Frame.readFrame stream with
    | .error e => ⟨[], stream, if e.isEndOfStream then none else some e⟩
    | .ok (frame, stream) => (Frame.readLoop fuel stream).cons frame

/-- A frame has a header, so that there are no more frames than bytes. -/
def Frame.readFrames (stream : Bytes) : Cut PersistError Frame :=
  Frame.readLoop (stream.length + 1) stream

namespace FrameAccumulator

def drainLoop : Nat → FrameAccumulator → Cut PersistError Frame
  | 0, a => ⟨[], a.buf, none⟩
  | fuel + 1, a =>
    match a.tryRead with
    | .error e => ⟨[], a.buf, some e⟩
    | .ok none => ⟨[], a.buf, none⟩
    | .ok (some (frame, a)) => (drainLoop fuel a).cons frame

/-- `try_read` until it gives no frame. -/
def drain (a : FrameAccumulator) : Cut PersistError Frame := drainLoop (a.buf.length + 1) a

end FrameAccumulator

/-- What was read from the chunks of a stream so far. -/
structure ChunkReading where
  frames : List Frame := []
  errors : List PersistError := []
  accumulator : FrameAccumulator := {}

def ChunkReading.feed (r : ChunkReading) (chunk : Bytes) : ChunkReading :=
  let cut := (r.accumulator.feed chunk).drain
  { frames := r.frames ++ cut.items
    errors := r.errors ++ cut.stopped.toList
    accumulator := ⟨cut.rest⟩ }

/-- The chunks are fed in turn, also after an error, and the accumulator is drained after each. -/
def readChunks (chunks : List Bytes) : ChunkReading := chunks.foldl ChunkReading.feed {}

section headers

/-- The header at the front is of an unknown type, or its length is over the limit of its type. -/
def FrameAccumulator.unacceptable (a : FrameAccumulator) : Bool :=
  match MessageType.fromU16 a.rawType with
  | none => true
  | some msgType => msgType.limit < a.payloadLen

/-- The stream cut into frames by a reader that looks at a header as soon as it is complete.
It stops at the first header that is unacceptable; `rest` then begins with that header. -/
def headerFormat : HeaderFormat Unit Frame where
  header := headerSize
  length header :=
    if FrameAccumulator.unacceptable ⟨header⟩ then .error ()
    else .ok (FrameAccumulator.total ⟨header⟩)
  header_le := by
    intro bytes n h
    split at h
    · cases h
    · cases h
      exact Nat.le_add_right _ _
  decode bytes := (FrameAccumulator.front ⟨bytes⟩).mapError fun _ => ()
  size frame := headerSize + frame.payload.length
  size_pos := Frame.size_pos
  size_decode := by
    intro bytes frame hlength hdecode
    apply publicFormat.size_decode
    · split at hlength
      · cases hlength
      · exact congrArg Except.ok (Except.ok.inj hlength)
    · cases hfront : FrameAccumulator.front ⟨bytes⟩ with
      | error e =>
        rw [hfront] at hdecode
        cases hdecode
      | ok frame' =>
        rw [hfront] at hdecode
        exact hfront.trans (congrArg Except.ok (Except.ok.inj hdecode))

def byHeaders (stream : Bytes) : Cut Unit Frame := headerFormat.framing.cut stream

/-- The stream as `read_frame` cuts it. -/
def readFormat : HeaderFormat PersistError Frame where
  header := headerSize
  length header :=
    if FrameAccumulator.payloadLen ⟨header⟩ > maxControlFrame then
      .error (.invalidArgument ("frame payload too large: " ++
        toString (FrameAccumulator.payloadLen ⟨header⟩) ++ " > " ++ toString maxControlFrame))
    else match MessageType.fromU16 (FrameAccumulator.rawType ⟨header⟩) with
      | none => .error (.invalidArgument
          ("unknown message type: 0x" ++ upperHex4 (FrameAccumulator.rawType ⟨header⟩)))
      | some _ => .ok (FrameAccumulator.total ⟨header⟩)
  header_le := by
    intro bytes n h
    split at h
    · cases h
    · split at h
      · cases h
      · cases h
        exact Nat.le_add_right _ _
  decode bytes :=
    match MessageType.fromU16 (FrameAccumulator.rawType ⟨bytes⟩) with
    | none => .error (.invalidArgument
        ("unknown message type: 0x" ++ upperHex4 (FrameAccumulator.rawType ⟨bytes⟩)))
    | some msgType => .ok
        { msgType
          flags := FrameAccumulator.flags ⟨bytes⟩
          requestId := FrameAccumulator.requestId ⟨bytes⟩
          payload := (bytes.drop headerSize).take (FrameAccumulator.payloadLen ⟨bytes⟩) }
  size frame := headerSize + frame.payload.length
  size_pos := Frame.size_pos
  size_decode := by
    intro bytes frame hlength hdecode
    have htotal : headerSize + fromBeBytes (bytes.take 4) = bytes.length := by
      split at hlength
      · cases hlength
      · split at hlength
        · cases hlength
        · have := Except.ok.inj hlength
          rw [FrameAccumulator.total, FrameAccumulator.payloadLen, List.take_take] at this
          exact this
    split at hdecode
    · cases hdecode
    · cases hdecode
      exact Frame.size_front htotal

end headers

section fields

variable {bytes : Bytes} {n : Nat}

theorem payloadLen_take (h : headerSize ≤ n) :
    FrameAccumulator.payloadLen ⟨bytes.take n⟩ = FrameAccumulator.payloadLen ⟨bytes⟩ := by
  rw [headerSize] at h
  exact congrArg fromBeBytes (@drop_take_take bytes 0 _ _ (by omega))

theorem rawType_take (h : headerSize ≤ n) :
    FrameAccumulator.rawType ⟨bytes.take n⟩ = FrameAccumulator.rawType ⟨bytes⟩ := by
  rw [headerSize] at h
  exact congrArg fromBeBytes (drop_take_take (by omega))

theorem flags_take (h : headerSize ≤ n) :
    FrameAccumulator.flags ⟨bytes.take n⟩ = FrameAccumulator.flags ⟨bytes⟩ := by
  rw [headerSize] at h
  exact congrArg fromBeBytes (drop_take_take (by omega))

theorem requestId_take (h : headerSize ≤ n) :
    FrameAccumulator.requestId ⟨bytes.take n⟩ = FrameAccumulator.requestId ⟨bytes⟩ := by
  rw [headerSize] at h
  exact congrArg fromBeBytes (drop_take_take (by omega))

theorem unacceptable_take (h : headerSize ≤ n) :
    FrameAccumulator.unacceptable ⟨bytes.take n⟩ = FrameAccumulator.unacceptable ⟨bytes⟩ := by
  unfold FrameAccumulator.unacceptable
  rw [rawType_take h, payloadLen_take h]

theorem total_take (h : headerSize ≤ n) :
    FrameAccumulator.total ⟨bytes.take n⟩ = FrameAccumulator.total ⟨bytes⟩ := by
  rw [FrameAccumulator.total, payloadLen_take h, FrameAccumulator.total]

theorem front_take :
    FrameAccumulator.front ⟨bytes.take (FrameAccumulator.total ⟨bytes⟩)⟩ =
      FrameAccumulator.front ⟨bytes⟩ := by
  have hle : headerSize ≤ FrameAccumulator.total ⟨bytes⟩ := Nat.le_add_right _ _
  have hpayload : ((bytes.take (FrameAccumulator.total ⟨bytes⟩)).drop headerSize).take
      (FrameAccumulator.payloadLen ⟨bytes⟩) =
      (bytes.drop headerSize).take (FrameAccumulator.payloadLen ⟨bytes⟩) :=
    drop_take_take (Nat.le_refl _)
  unfold FrameAccumulator.front
  rw [rawType_take hle, payloadLen_take hle, flags_take hle, requestId_take hle]
  dsimp only
  rw [hpayload]

theorem length_of_headers : headerFormat.length (bytes.take headerSize) =
    if FrameAccumulator.unacceptable ⟨bytes⟩ then .error ()
    else .ok (FrameAccumulator.total ⟨bytes⟩) := by
  change (if FrameAccumulator.unacceptable ⟨bytes.take headerSize⟩ then _ else
    Except.ok (FrameAccumulator.total ⟨bytes.take headerSize⟩)) = _
  rw [unacceptable_take (Nat.le_refl _), total_take (Nat.le_refl _)]

theorem length_of_public : publicFormat.length (bytes.take headerSize) =
    .ok (FrameAccumulator.total ⟨bytes⟩) := congrArg Except.ok (total_take (Nat.le_refl _))

end fields

section frames

open FrameAccumulator (unacceptable)

variable {bytes rest : Bytes} {frame : Frame}

theorem MessageType.limit_le (kind : MessageType) : kind.limit ≤ maxControlFrame := by
  unfold MessageType.limit
  split
  · decide
  · exact Nat.le_refl _

/-- An acceptable header names a type, and its length is within the limit of that. -/
theorem type_of_acceptable {a : FrameAccumulator} (h : a.unacceptable = false) :
    ∃ msgType, MessageType.fromU16 a.rawType = some msgType ∧ a.payloadLen ≤ msgType.limit := by
  unfold unacceptable at h
  cases hkind : MessageType.fromU16 a.rawType with
  | none =>
    rw [hkind] at h
    cases h
  | some msgType =>
    rw [hkind] at h
    exact ⟨msgType, rfl, Nat.le_of_not_lt (of_decide_eq_false h)⟩

theorem front_of_type {a : FrameAccumulator} {msgType : MessageType}
    (hkind : MessageType.fromU16 a.rawType = some msgType) (hlimit : a.payloadLen ≤ msgType.limit) :
    a.front = .ok
      { msgType
        flags := a.flags
        requestId := a.requestId
        payload := (a.buf.drop headerSize).take a.payloadLen } := by
  unfold FrameAccumulator.front
  rw [hkind]
  dsimp only
  rw [rejectIf, if_neg (Nat.not_lt.mpr hlimit)]
  rfl

theorem front_of_unacceptable {a : FrameAccumulator} (h : a.unacceptable = true) :
    ∃ e, a.front = .error e := by
  unfold FrameAccumulator.front
  unfold unacceptable at h
  cases hkind : MessageType.fromU16 a.rawType with
  | none => exact ⟨_, rfl⟩
  | some msgType =>
    rw [hkind] at h
    have hlimit : a.payloadLen > msgType.limit := of_decide_eq_true h
    dsimp only
    rw [rejectIf, if_pos hlimit]
    exact ⟨_, rfl⟩

theorem mapError_eq_ok {ε ε' α : Type} {x : Except ε α} {f : ε → ε'} {a : α} :
    x.mapError f = .ok a ↔ x = .ok a := by
  cases x with
  | error e => exact ⟨nofun, nofun⟩
  | ok b => exact ⟨fun h => congrArg Except.ok (Except.ok.inj h), fun h => h ▸ rfl⟩

/-- A frame with an acceptable header is a frame for both readers. -/
theorem item_of_headers (h : headerFormat.framing.tryRead bytes = .ok (some (frame, rest))) :
    publicFraming.tryRead bytes = .ok (some (frame, rest)) ∧
      readFormat.framing.tryRead bytes = .ok (some (frame, rest)) := by
  obtain ⟨hheader, n, hlength, hn, hdecode, hrest⟩ := HeaderFormat.tryRead_item.mp h
  rw [show headerFormat.header = headerSize from rfl, length_of_headers] at hlength
  split at hlength
  · cases hlength
  rename_i hacceptable
  cases hlength
  rw [Bool.not_eq_true] at hacceptable
  obtain ⟨msgType, hkind, hlimit⟩ := type_of_acceptable hacceptable
  have hframe := (mapError_eq_ok (x := FrameAccumulator.front _)).mp hdecode
  have hle : headerSize ≤ FrameAccumulator.total ⟨bytes⟩ := Nat.le_add_right _ _
  have hread : readFormat.length (bytes.take headerSize) = .ok (FrameAccumulator.total ⟨bytes⟩) := by
    have hmax := Nat.not_lt.mpr (Nat.le_trans hlimit msgType.limit_le)
    simp only [readFormat, payloadLen_take (Nat.le_refl _), rawType_take (Nat.le_refl _),
      total_take (Nat.le_refl _), gt_iff_lt, if_neg hmax, hkind]
  have hfields : readFormat.decode (bytes.take (FrameAccumulator.total ⟨bytes⟩)) = .ok frame := by
    rw [← hframe, front_of_type ((congrArg _ (rawType_take hle)).trans hkind)
      (Nat.le_trans (Nat.le_of_eq (payloadLen_take hle)) hlimit)]
    simp only [readFormat, rawType_take hle, hkind]
  exact ⟨HeaderFormat.tryRead_item.mpr ⟨hheader, _, length_of_public, hn, hframe, hrest⟩,
    HeaderFormat.tryRead_item.mpr ⟨hheader, _, hread, hn, hfields, hrest⟩⟩

/-- What stops the reading of the headers is a complete header that is unacceptable. -/
theorem bad_of_headers {e : Unit} (h : headerFormat.framing.tryRead bytes = .error e) :
    headerSize ≤ bytes.length ∧ unacceptable ⟨bytes⟩ = true := by
  obtain ⟨hheader, hfault⟩ := HeaderFormat.tryRead_error.mp h
  refine ⟨hheader, ?_⟩
  by_contra hacceptable
  rw [show headerFormat.header = headerSize from rfl, length_of_headers, if_neg hacceptable]
    at hfault
  rw [Bool.not_eq_true] at hacceptable
  obtain ⟨msgType, hkind, hlimit⟩ := type_of_acceptable hacceptable
  rcases hfault with hlength | ⟨n, hlength, -, hdecode⟩
  · cases hlength
  · cases hlength
    change Except.mapError _ (FrameAccumulator.front _) = _ at hdecode
    rw [front_take, front_of_type hkind hlimit] at hdecode
    cases hdecode

section bad

variable (hheader : headerSize ≤ bytes.length) (hbad : unacceptable ⟨bytes⟩ = true)
include hheader

theorem public_of_short (h : bytes.length < FrameAccumulator.total ⟨bytes⟩) :
    publicFraming.tryRead bytes = .ok none :=
  HeaderFormat.tryRead_partial (Nat.not_lt.mpr hheader) length_of_public h

include hbad

theorem public_of_bad (h : FrameAccumulator.total ⟨bytes⟩ ≤ bytes.length) :
    ∃ e, publicFraming.tryRead bytes = .error e := by
  obtain ⟨e, hfront⟩ := front_of_unacceptable hbad
  rw [← front_take] at hfront
  exact ⟨e, HeaderFormat.tryRead_error.mpr ⟨hheader, .inr ⟨_, length_of_public, h, hfront⟩⟩⟩

end bad

/-- `read_frame` refuses a header when the type is unknown or the length is over the limit of
all frames. -/
def FrameAccumulator.refused (a : FrameAccumulator) : Prop :=
  MessageType.fromU16 a.rawType = none ∨ maxControlFrame < a.payloadLen

theorem read_of_refused (hheader : headerSize ≤ bytes.length)
    (h : FrameAccumulator.refused ⟨bytes⟩) : ∃ e, readFormat.framing.tryRead bytes = .error e := by
  have hlength : ∃ e, readFormat.length (bytes.take headerSize) = .error e := by
    simp only [readFormat, payloadLen_take (Nat.le_refl _), rawType_take (Nat.le_refl _)]
    rcases h with hkind | hlimit
    · rw [hkind]
      split
      · exact ⟨_, rfl⟩
      · exact ⟨_, rfl⟩
    · rw [if_pos hlimit]
      exact ⟨_, rfl⟩
  obtain ⟨e, he⟩ := hlength
  exact ⟨e, HeaderFormat.tryRead_error.mpr ⟨hheader, .inl he⟩⟩

theorem read_of_not_refused (hheader : headerSize ≤ bytes.length)
    (h : ¬ FrameAccumulator.refused ⟨bytes⟩)
    (hwhole : FrameAccumulator.total ⟨bytes⟩ ≤ bytes.length) :
    ∃ found, readFormat.framing.tryRead bytes = .ok (some found) := by
  obtain ⟨hkind, hlimit⟩ := not_or.mp h
  obtain ⟨msgType, hkind⟩ := Option.ne_none_iff_exists'.mp hkind
  have hle : headerSize ≤ FrameAccumulator.total ⟨bytes⟩ := Nat.le_add_right _ _
  have hlength : readFormat.length (bytes.take headerSize) =
      .ok (FrameAccumulator.total ⟨bytes⟩) := by
    simp only [readFormat, payloadLen_take (Nat.le_refl _), rawType_take (Nat.le_refl _),
      total_take (Nat.le_refl _), gt_iff_lt, if_neg hlimit, hkind]
  have hdecode : ∃ frame, readFormat.decode (bytes.take (FrameAccumulator.total ⟨bytes⟩)) =
      .ok frame := by
    simp only [readFormat, rawType_take hle, hkind]
    exact ⟨_, rfl⟩
  obtain ⟨frame, hframe⟩ := hdecode
  exact ⟨_, HeaderFormat.tryRead_item.mpr ⟨hheader, _, hlength, hwhole, hframe, rfl⟩⟩

end frames

section readers

/-- `read_frame` finds what the framing says, and an error where the stream ends. -/
theorem Frame.readFrame_eq (stream : Bytes) :
    Frame.readFrame stream =
      match readFormat.framing.tryRead stream with
      | .error e => .error e
      | .ok none => .error (.io (if stream.length < headerSize then "read frame header"
          else "read frame payload") .unexpectedEof)
      | .ok (some found) => .ok found := by
  change _ = match readFormat.tryRead stream with
    | .error e => _
    | .ok none => _
    | .ok (some found) => _
  unfold Frame.readFrame
  by_cases hheader : stream.length < headerSize
  · rw [HeaderFormat.tryRead_short hheader, readN, if_pos hheader, if_pos hheader]
    rfl
  rw [readN, if_neg hheader]
  dsimp only [Except.mapError, bind, Except.bind]
  rw [payloadLen_take (Nat.le_refl _), rawType_take (Nat.le_refl _), flags_take (Nat.le_refl _),
    requestId_take (Nat.le_refl _)]
  by_cases hlimit : FrameAccumulator.payloadLen ⟨stream⟩ > maxControlFrame
  · have hlength : readFormat.length (stream.take headerSize) = .error (.invalidArgument
        ("frame payload too large: " ++ toString (FrameAccumulator.payloadLen ⟨stream⟩) ++ " > " ++
          toString maxControlFrame)) := by
      simp only [readFormat, payloadLen_take (Nat.le_refl _), if_pos hlimit]
    rw [rejectIf, if_pos hlimit, HeaderFormat.tryRead_fault hheader hlength]
    rfl
  rw [rejectIf, if_neg hlimit]
  cases hkind : MessageType.fromU16 (FrameAccumulator.rawType ⟨stream⟩) with
  | none =>
    have hlength : readFormat.length (stream.take headerSize) = .error (.invalidArgument
        ("unknown message type: 0x" ++ upperHex4 (FrameAccumulator.rawType ⟨stream⟩))) := by
      simp only [readFormat, payloadLen_take (Nat.le_refl _), rawType_take (Nat.le_refl _),
        if_neg hlimit, hkind]
    rw [HeaderFormat.tryRead_fault hheader hlength]
    rfl
  | some msgType =>
    have hle : headerSize ≤ FrameAccumulator.total ⟨stream⟩ := Nat.le_add_right _ _
    have hlength : readFormat.length (stream.take headerSize) =
        .ok (FrameAccumulator.total ⟨stream⟩) := by
      simp only [readFormat, payloadLen_take (Nat.le_refl _), rawType_take (Nat.le_refl _),
        total_take (Nat.le_refl _), if_neg hlimit, hkind]
    have hdecode : readFormat.decode (stream.take (FrameAccumulator.total ⟨stream⟩)) = .ok
        { msgType
          flags := FrameAccumulator.flags ⟨stream⟩
          requestId := FrameAccumulator.requestId ⟨stream⟩
          payload := (stream.drop headerSize).take (FrameAccumulator.payloadLen ⟨stream⟩) } := by
      simp only [readFormat, rawType_take hle, payloadLen_take hle, flags_take hle,
        requestId_take hle, hkind]
      have hpayload : ((stream.take (FrameAccumulator.total ⟨stream⟩)).drop headerSize).take
          (FrameAccumulator.payloadLen ⟨stream⟩) =
          (stream.drop headerSize).take (FrameAccumulator.payloadLen ⟨stream⟩) :=
        drop_take_take (Nat.le_refl _)
      rw [hpayload]
    have htotal : FrameAccumulator.total ⟨stream⟩ =
        headerSize + FrameAccumulator.payloadLen ⟨stream⟩ := rfl
    by_cases hshort : stream.length < FrameAccumulator.total ⟨stream⟩
    · have hpos : FrameAccumulator.payloadLen ⟨stream⟩ > 0 := by omega
      have hrest : (stream.drop headerSize).length < FrameAccumulator.payloadLen ⟨stream⟩ := by
        rw [List.length_drop]
        omega
      rw [HeaderFormat.tryRead_partial hheader hlength hshort]
      dsimp only [pure, Except.pure]
      rw [if_pos hpos, if_neg hheader, readN, if_pos hrest]
    · rw [HeaderFormat.tryRead_whole hheader hlength hshort, hdecode]
      dsimp only [pure, Except.pure, Except.map]
      by_cases hpos : FrameAccumulator.payloadLen ⟨stream⟩ > 0
      · have hrest : ¬ (stream.drop headerSize).length < FrameAccumulator.payloadLen ⟨stream⟩ := by
          rw [List.length_drop]
          omega
        rw [if_pos hpos, readN, if_neg hrest, htotal, ← List.drop_drop]
      · have hzero : FrameAccumulator.payloadLen ⟨stream⟩ = 0 := by omega
        rw [if_neg hpos, htotal, hzero]
        rfl

theorem isEndOfStream_of_refused {bytes : Bytes} {e : PersistError}
    (h : readFormat.framing.tryRead bytes = .error e) : e.isEndOfStream = false := by
  obtain ⟨-, hlength | ⟨n, -, -, hdecode⟩⟩ := HeaderFormat.tryRead_error.mp h
  · simp only [readFormat] at hlength
    split at hlength
    · cases hlength
      rfl
    · split at hlength
      · cases hlength
        rfl
      · cases hlength
  · simp only [readFormat] at hdecode
    split at hdecode
    · cases hdecode
      rfl
    · cases hdecode

theorem Frame.readFrames_eq (stream : Bytes) :
    Frame.readFrames stream = readFormat.framing.cut stream := by
  have key : ∀ fuel stream, Frame.readLoop fuel stream = readFormat.framing.cutLoop fuel stream := by
    intro fuel
    induction fuel with
    | zero => exact fun _ => rfl
    | succ fuel ih =>
      intro stream
      rw [Frame.readLoop, Framing.cutLoop, Frame.readFrame_eq]
      cases hread : readFormat.framing.tryRead stream with
      | error e =>
        dsimp only
        rw [isEndOfStream_of_refused hread]
        rfl
      | ok found =>
        cases found with
        | none => rfl
        | some found => exact congrArg (Cut.cons found.1) (ih found.2)
  exact key _ _

theorem FrameAccumulator.drain_eq (a : FrameAccumulator) :
    a.drain = publicFraming.cut a.buf := by
  have key : ∀ fuel (a : FrameAccumulator), drainLoop fuel a = publicFraming.cutLoop fuel a.buf := by
    intro fuel
    induction fuel with
    | zero => exact fun _ => rfl
    | succ fuel ih =>
      intro a
      rw [drainLoop, Framing.cutLoop, a.tryRead_eq]
      cases publicFraming.tryRead a.buf with
      | error e => rfl
      | ok found =>
        cases found with
        | none => rfl
        | some found => exact congrArg (Cut.cons found.1) (ih ⟨found.2⟩)
  exact key _ _

theorem readChunks_concat (chunks : List Bytes) (chunk : Bytes) :
    readChunks (chunks ++ [chunk]) = (readChunks chunks).feed chunk := by
  rw [readChunks, List.foldl_append]
  rfl

/-- What the accumulator reads depends on the stream alone. -/
theorem readChunks_eq (chunks : List Bytes) :
    (readChunks chunks).frames = (publicFraming.cut chunks.flatten).items ∧
      (readChunks chunks).accumulator = ⟨(publicFraming.cut chunks.flatten).rest⟩ ∧
      ((readChunks chunks).errors = [] ↔ (publicFraming.cut chunks.flatten).stopped = none) := by
  induction chunks using List.reverseRecOn with
  | nil => exact ⟨rfl, rfl, fun _ => rfl, fun _ => rfl⟩
  | append_singleton chunks chunk ih =>
    obtain ⟨hframes, haccumulator, herrors⟩ := ih
    have hcut : ((readChunks chunks).accumulator.feed chunk).drain =
        publicFraming.cut ((publicFraming.cut chunks.flatten).rest ++ chunk) := by
      rw [FrameAccumulator.drain_eq, haccumulator]
      rfl
    rw [readChunks_concat, List.flatten_append, List.flatten_singleton, Framing.cut_append_rest]
    refine ⟨?_, ?_, ?_⟩
    · change _ ++ Cut.items _ = _ ++ _
      rw [hcut, hframes]
    · change FrameAccumulator.mk (Cut.rest _) = _
      rw [hcut]
      rfl
    · change _ ++ (Cut.stopped _).toList = [] ↔ _
      rw [hcut, List.append_eq_nil_iff, herrors, Option.toList_eq_nil_iff]
      refine ⟨And.right, fun hlast => ⟨?_, hlast⟩⟩
      by_contra hstopped
      obtain ⟨e, he⟩ := Option.ne_none_iff_exists'.mp hstopped
      have hagain := publicFraming.error_append (Framing.tryRead_rest_stopped he) chunk
      rw [Framing.cut_error hagain] at hlast
      cases hlast

end readers

/-- What the accumulator is for, when it is fed with the chunks of a stream. -/
structure AccumulatorFaithful (chunks : List Bytes) : Prop where
  /-- The frames are those that `read_frame` finds in the stream. -/
  frames : (readChunks chunks).frames = (Frame.readFrames chunks.flatten).items
  /-- An error is reported when `read_frame` refuses a frame, and only then. -/
  errors : (readChunks chunks).errors = [] ↔ (Frame.readFrames chunks.flatten).stopped = none
  /-- An unacceptable header is reported once it is complete. -/
  prompt : ∀ before, before <+: chunks → (byHeaders before.flatten).stopped ≠ none →
    (readChunks before).errors ≠ []
  /-- The accumulator holds at most a frame and the chunk that came last. -/
  bounded : ∀ before chunk, before ++ [chunk] <+: chunks →
    ((readChunks before).accumulator.feed chunk).buf.length ≤
      headerSize + maxControlFrame + chunk.length

/-- Whenever the chunks so far lead up to an unacceptable header, the type of that is unknown or
its length is over the limit of all frames, and the frame that it announces has come whole; if
more chunks follow, the bytes from that header on are no more than those of a largest frame. -/
def BadHeadersComeWhole (chunks : List Bytes) : Prop :=
  ∀ before after, before ++ after = chunks → (byHeaders before.flatten).stopped ≠ none →
    FrameAccumulator.refused ⟨(byHeaders before.flatten).rest⟩ ∧
    FrameAccumulator.total ⟨(byHeaders before.flatten).rest⟩ ≤
      (byHeaders before.flatten).rest.length ∧
    (after ≠ [] → (byHeaders before.flatten).rest.length ≤ headerSize + maxControlFrame)

section faithful

variable {bytes : Bytes} {chunks : List Bytes}

theorem public_cut (bytes : Bytes) : publicFraming.cut bytes =
    (publicFraming.cut (byHeaders bytes).rest).after (byHeaders bytes).items :=
  Framing.cut_of_agree (fun _ _ h => (item_of_headers h).1) bytes

theorem read_cut (bytes : Bytes) : readFormat.framing.cut bytes =
    (readFormat.framing.cut (byHeaders bytes).rest).after (byHeaders bytes).items :=
  Framing.cut_of_agree (fun _ _ h => (item_of_headers h).2) bytes

theorem bad_rest (h : (byHeaders bytes).stopped ≠ none) :
    headerSize ≤ (byHeaders bytes).rest.length ∧
      FrameAccumulator.unacceptable ⟨(byHeaders bytes).rest⟩ = true := by
  obtain ⟨e, he⟩ := Option.ne_none_iff_exists'.mp h
  exact bad_of_headers (Framing.tryRead_rest_stopped he)

/-- Both readers wait for more where the headers are acceptable. -/
theorem waiting_rest (h : (byHeaders bytes).stopped = none) :
    publicFraming.tryRead (byHeaders bytes).rest = .ok none ∧
      readFormat.framing.tryRead (byHeaders bytes).rest = .ok none ∧
      (byHeaders bytes).rest.length < headerSize + maxControlFrame := by
  have hwaiting : headerFormat.tryRead (byHeaders bytes).rest = .ok none :=
    Framing.tryRead_rest h
  generalize (byHeaders bytes).rest = rest at hwaiting ⊢
  by_cases hheader : rest.length < headerSize
  · exact ⟨HeaderFormat.tryRead_short hheader, HeaderFormat.tryRead_short hheader, by omega⟩
  have hacceptable : FrameAccumulator.unacceptable ⟨rest⟩ = false := by
    rw [← Bool.not_eq_true]
    intro hbad
    have hlength : headerFormat.length (rest.take headerSize) = .error () := by
      rw [length_of_headers, if_pos hbad]
    rw [HeaderFormat.tryRead_fault hheader hlength] at hwaiting
    cases hwaiting
  obtain ⟨msgType, hkind, hlimit⟩ := type_of_acceptable hacceptable
  have hmax := Nat.le_trans hlimit msgType.limit_le
  have hlength : headerFormat.length (rest.take headerSize) =
      .ok (FrameAccumulator.total ⟨rest⟩) := by
    rw [length_of_headers, if_neg (by rw [hacceptable]; decide)]
  have htotal : FrameAccumulator.total ⟨rest⟩ =
      headerSize + FrameAccumulator.payloadLen ⟨rest⟩ := rfl
  have hshort : rest.length < FrameAccumulator.total ⟨rest⟩ := by
    by_contra hwhole
    have hdecode : ∃ frame, headerFormat.decode (rest.take (FrameAccumulator.total ⟨rest⟩)) =
        .ok frame := by
      change ∃ frame, Except.mapError _ (FrameAccumulator.front _) = _
      rw [front_take, front_of_type hkind hlimit]
      exact ⟨_, rfl⟩
    obtain ⟨frame, hdecode⟩ := hdecode
    rw [HeaderFormat.tryRead_whole hheader hlength hwhole, hdecode] at hwaiting
    cases hwaiting
  have hread : readFormat.length (rest.take headerSize) = .ok (FrameAccumulator.total ⟨rest⟩) := by
    simp only [readFormat, payloadLen_take (Nat.le_refl _), rawType_take (Nat.le_refl _),
      total_take (Nat.le_refl _), gt_iff_lt, if_neg (Nat.not_lt.mpr hmax), hkind]
  exact ⟨HeaderFormat.tryRead_partial hheader length_of_public hshort,
    HeaderFormat.tryRead_partial hheader hread hshort, by omega⟩

/-- The bytes that the accumulator keeps are those after the frames with acceptable headers. -/
theorem rest_of_public (bytes : Bytes) :
    (publicFraming.cut bytes).rest = (byHeaders bytes).rest ∧
      (publicFraming.cut bytes).items = (byHeaders bytes).items := by
  rw [public_cut]
  have hnothing : ∀ c : Cut PersistError Frame, c.items = [] → c.rest = (byHeaders bytes).rest →
      (c.after (byHeaders bytes).items).rest = (byHeaders bytes).rest ∧
        (c.after (byHeaders bytes).items).items = (byHeaders bytes).items := by
    intro c hitems hrest
    refine ⟨hrest, ?_⟩
    rw [Cut.after, hitems, List.append_nil]
  by_cases hstopped : (byHeaders bytes).stopped = none
  · rw [Framing.cut_none (waiting_rest hstopped).1]
    exact hnothing _ rfl rfl
  · obtain ⟨hheader, hbad⟩ := bad_rest hstopped
    by_cases hshort : (byHeaders bytes).rest.length < FrameAccumulator.total ⟨(byHeaders bytes).rest⟩
    · rw [Framing.cut_none (public_of_short hheader hshort)]
      exact hnothing _ rfl rfl
    · obtain ⟨e, he⟩ := public_of_bad hheader hbad (Nat.le_of_not_lt hshort)
      rw [Framing.cut_error he]
      exact hnothing _ rfl rfl

/-- The accumulator reports an unacceptable header when its frame is whole. -/
theorem stopped_of_public (bytes : Bytes) :
    (publicFraming.cut bytes).stopped ≠ none ↔ (byHeaders bytes).stopped ≠ none ∧
      FrameAccumulator.total ⟨(byHeaders bytes).rest⟩ ≤ (byHeaders bytes).rest.length := by
  rw [public_cut]
  by_cases hstopped : (byHeaders bytes).stopped = none
  · rw [Framing.cut_none (waiting_rest hstopped).1]
    exact ⟨fun h => absurd rfl h, fun h => absurd hstopped h.1⟩
  · obtain ⟨hheader, hbad⟩ := bad_rest hstopped
    by_cases hshort : (byHeaders bytes).rest.length < FrameAccumulator.total ⟨(byHeaders bytes).rest⟩
    · rw [Framing.cut_none (public_of_short hheader hshort)]
      exact ⟨fun h => absurd rfl h, fun h => absurd h.2 (Nat.not_le.mpr hshort)⟩
    · obtain ⟨e, he⟩ := public_of_bad hheader hbad (Nat.le_of_not_lt hshort)
      rw [Framing.cut_error he]
      exact ⟨fun _ => ⟨hstopped, Nat.le_of_not_lt hshort⟩, fun _ => Option.some_ne_none _⟩

theorem accumulator_length (before : List Bytes) (chunk : Bytes) :
    ((readChunks before).accumulator.feed chunk).buf.length =
      (byHeaders before.flatten).rest.length + chunk.length := by
  rw [(readChunks_eq before).2.1, (rest_of_public _).1]
  exact List.length_append

/-- A bad header stays where it is when more bytes come. -/
theorem byHeaders_append (h : (byHeaders bytes).stopped ≠ none) (more : Bytes) :
    (byHeaders (bytes ++ more)).stopped ≠ none ∧
      (byHeaders (bytes ++ more)).rest = (byHeaders bytes).rest ++ more := by
  obtain ⟨e, he⟩ := Option.ne_none_iff_exists'.mp h
  rw [byHeaders, Framing.cut_append_stopped he]
  exact ⟨Option.some_ne_none _, rfl⟩

theorem faithful_of_whole (h : BadHeadersComeWhole chunks) : AccumulatorFaithful chunks := by
  have hread := readChunks_eq chunks
  have hall := h chunks [] (List.append_nil _)
  constructor
  · rw [hread.1, Frame.readFrames_eq, (rest_of_public _).2, read_cut]
    by_cases hstopped : (byHeaders chunks.flatten).stopped = none
    · rw [Framing.cut_none (waiting_rest hstopped).2.1, Cut.after, List.append_nil]
    · obtain ⟨e, he⟩ := read_of_refused (bad_rest hstopped).1 (hall hstopped).1
      rw [Framing.cut_error he, Cut.after, List.append_nil]
  · rw [hread.2.2, Frame.readFrames_eq]
    by_cases hstopped : (byHeaders chunks.flatten).stopped = none
    · rw [public_cut, read_cut, Framing.cut_none (waiting_rest hstopped).1,
        Framing.cut_none (waiting_rest hstopped).2.1]
    · obtain ⟨e, he⟩ := read_of_refused (bad_rest hstopped).1 (hall hstopped).1
      have hpublic := (stopped_of_public chunks.flatten).mpr ⟨hstopped, (hall hstopped).2.1⟩
      rw [read_cut, Framing.cut_error he]
      exact ⟨fun hnone => absurd hnone hpublic, fun hnone => by cases hnone⟩
  · intro before hbefore hstopped
    obtain ⟨after, hafter⟩ := hbefore
    rw [Ne, (readChunks_eq before).2.2]
    exact (stopped_of_public _).mpr ⟨hstopped, (h before after hafter hstopped).2.1⟩
  · rintro before chunk ⟨after, hafter⟩
    rw [List.append_assoc] at hafter
    rw [accumulator_length]
    by_cases hstopped : (byHeaders before.flatten).stopped = none
    · have hlt := (waiting_rest hstopped).2.2
      omega
    · have hle := (h before _ hafter hstopped).2.2 (List.cons_ne_nil _ _)
      omega

theorem whole_of_faithful (h : AccumulatorFaithful chunks) : BadHeadersComeWhole chunks := by
  intro before after hchunks hstopped
  have herrors := h.prompt before ⟨after, hchunks⟩ hstopped
  rw [Ne, (readChunks_eq before).2.2] at herrors
  have hwhole := ((stopped_of_public _).mp herrors).2
  refine ⟨?_, hwhole, ?_⟩
  · by_contra hrefused
    obtain ⟨hmore, hrest⟩ := byHeaders_append hstopped after.flatten
    have hflatten : before.flatten ++ after.flatten = chunks.flatten := by
      rw [← List.flatten_append, hchunks]
    rw [hflatten] at hmore hrest
    -- `read_frame` finds a frame that the accumulator does not
    have hfound := read_of_not_refused (bad_rest hstopped).1 hrefused hwhole
    obtain ⟨⟨frame, left⟩, hitem⟩ := hfound
    have hlater := readFormat.framing.item_append hitem after.flatten
    have hframes := h.frames
    rw [(readChunks_eq chunks).1, (rest_of_public _).2, Frame.readFrames_eq, read_cut, hrest,
      Framing.cut_item hlater] at hframes
    have hlength := congrArg List.length hframes
    simp only [Cut.after, Cut.cons, List.length_append, List.length_cons] at hlength
    omega
  · intro hafter
    obtain ⟨chunk, after, rfl⟩ := List.exists_cons_of_ne_nil hafter
    have hbounded := h.bounded before chunk ⟨after, by rw [List.append_assoc]; exact hchunks⟩
    rw [accumulator_length] at hbounded
    omega

/-- The accumulator does what it is for exactly when bad headers come whole. -/
theorem accumulator_faithful_iff (chunks : List Bytes) :
    AccumulatorFaithful chunks ↔ BadHeadersComeWhole chunks :=
  ⟨whole_of_faithful, faithful_of_whole⟩

/-- A header of an unknown type that announces one byte: nothing is reported. -/
theorem header_not_reported :
    ¬ AccumulatorFaithful [[0, 0, 0, 1, 255, 255, 0, 0, 0, 0, 0, 0]] := by
  intro h
  have hprompt := h.prompt _ (List.prefix_refl _)
  exact hprompt (by decide) (by decide)

end faithful

section written

/-- The fields of a frame that its header has room for. -/
structure Frame.Fits (frame : Frame) : Prop where
  flags : frame.flags < 2 ^ 16
  requestId : frame.requestId < 2 ^ 32
  payload : frame.payload.length ≤ maxControlFrame

def Frame.header (frame : Frame) : Bytes :=
  toBeBytes 4 frame.payload.length ++ (toBeBytes 2 frame.msgType.toU16 ++
    (toBeBytes 2 frame.flags ++ toBeBytes 4 frame.requestId))

theorem Frame.bytes_eq (frame : Frame) : frame.bytes = frame.header ++ frame.payload := by
  simp only [Frame.bytes, putU32, putU16, Frame.header, List.append_assoc]

theorem Frame.length_header (frame : Frame) : frame.header.length = headerSize := by
  simp only [Frame.header, List.length_append, length_toBeBytes]
  rfl

theorem fromBeBytes_take (width value : Nat) (more : Bytes) :
    fromBeBytes ((toBeBytes width value ++ more).take width) = value % 256 ^ width := by
  rw [List.take_left' (length_toBeBytes width value), fromBeBytes_toBeBytes]

theorem drop_toBeBytes (width value skip : Nat) (more : Bytes) :
    (toBeBytes width value ++ more).drop (width + skip) = more.drop skip := by
  rw [← List.drop_drop, List.drop_left' (length_toBeBytes width value)]

/-- The fields of the header are read back. -/
theorem Frame.header_fields {frame : Frame} (h : frame.Fits) :
    FrameAccumulator.payloadLen ⟨frame.header⟩ = frame.payload.length ∧
      FrameAccumulator.rawType ⟨frame.header⟩ = frame.msgType.toU16 ∧
      FrameAccumulator.flags ⟨frame.header⟩ = frame.flags ∧
      FrameAccumulator.requestId ⟨frame.header⟩ = frame.requestId := by
  obtain ⟨hflags, hrequestId, hpayload⟩ := h
  refine ⟨(fromBeBytes_take 4 _ _).trans (Nat.mod_eq_of_lt ?_), ?_, ?_, ?_⟩
  · rw [maxControlFrame] at hpayload
    omega
  · have hskip : frame.header.drop 4 = _ := drop_toBeBytes 4 _ 0 _
    have htype : frame.msgType.toU16 % 256 ^ 2 = frame.msgType.toU16 := by
      cases frame.msgType <;> rfl
    rw [FrameAccumulator.rawType, hskip]
    exact (fromBeBytes_take 2 _ _).trans htype
  · have hskip : frame.header.drop (4 + (2 + 0)) = _ :=
      (drop_toBeBytes 4 _ _ _).trans (drop_toBeBytes 2 _ 0 _)
    rw [FrameAccumulator.flags, hskip]
    exact (fromBeBytes_take 2 _ _).trans (Nat.mod_eq_of_lt hflags)
  · have hskip : frame.header.drop (4 + (2 + (2 + 0))) = _ :=
      (drop_toBeBytes 4 _ _ _).trans ((drop_toBeBytes 2 _ _ _).trans (drop_toBeBytes 2 _ 0 _))
    rw [FrameAccumulator.requestId, hskip, List.drop_zero, ← List.append_nil (toBeBytes 4 _)]
    exact (fromBeBytes_take 4 _ _).trans (Nat.mod_eq_of_lt hrequestId)

theorem readN_append (front rest : Bytes) :
    readN front.length (front ++ rest) = .ok (front, rest) := by
  rw [readN, if_neg (by rw [List.length_append]; omega), List.take_left, List.drop_left]

/-- A frame that was written is read. -/
theorem Frame.readFrame_bytes {frame : Frame} (h : frame.Fits) (rest : Bytes) :
    Frame.readFrame (frame.bytes ++ rest) = .ok (frame, rest) := by
  obtain ⟨hlen, htype, hflags, hrequestId⟩ := header_fields h
  have hread : readN headerSize (frame.bytes ++ rest) =
      .ok (frame.header, frame.payload ++ rest) := by
    rw [← frame.length_header, bytes_eq, List.append_assoc]
    exact readN_append _ _
  unfold Frame.readFrame
  rw [hread]
  change ((rejectIf (FrameAccumulator.payloadLen ⟨frame.header⟩ > maxControlFrame) _ :
    Except PersistError Unit).bind fun _ => _) = _
  rw [hlen, htype, hflags, hrequestId, rejectIf, if_neg (Nat.not_lt.mpr h.payload),
    MessageType.fromU16_toU16]
  change (if frame.payload.length > 0 then _ else _) = _
  by_cases hpayload : frame.payload.length > 0
  · rw [if_pos hpayload, readN_append]
    rfl
  · have hnil : frame.payload = [] := List.length_eq_zero_iff.mp (by omega)
    rw [if_neg hpayload, hnil]
    cases frame
    cases hnil
    rfl

/-- A frame within its limit that was written is taken off the stream. -/
theorem Frame.tryRead_bytes {frame : Frame} (h : frame.payload.length ≤ frame.msgType.limit)
    (rest : Bytes) : ∃ frame', publicFraming.tryRead (frame.bytes ++ rest) =
      .ok (some (frame', rest)) ∧ frame'.msgType = frame.msgType := by
  have hlimit : frame.msgType.limit ≤ 2 ^ 20 := by
    unfold MessageType.limit maxIoFrame maxControlFrame
    split <;> decide
  have hlen : frame.payload.length % 256 ^ 4 = frame.payload.length := Nat.mod_eq_of_lt (by omega)
  have htype : frame.msgType.toU16 % 256 ^ 2 = frame.msgType.toU16 := by
    cases frame.msgType <;> rfl
  have hbytes : frame.bytes ++ rest = toBeBytes 4 frame.payload.length ++
      (toBeBytes 2 frame.msgType.toU16 ++ (toBeBytes 2 frame.flags ++
        (toBeBytes 4 frame.requestId ++ (frame.payload ++ rest)))) := by
    simp only [Frame.bytes, putU32, putU16, List.append_assoc]
  have hpayloadLen : FrameAccumulator.payloadLen ⟨frame.bytes ++ rest⟩ = frame.payload.length := by
    rw [FrameAccumulator.payloadLen, hbytes]
    exact (fromBeBytes_take 4 _ _).trans hlen
  have hrawType : FrameAccumulator.rawType ⟨frame.bytes ++ rest⟩ = frame.msgType.toU16 := by
    rw [FrameAccumulator.rawType, hbytes]
    have hskip := drop_toBeBytes 4 frame.payload.length 0
      (toBeBytes 2 frame.msgType.toU16 ++ (toBeBytes 2 frame.flags ++
        (toBeBytes 4 frame.requestId ++ (frame.payload ++ rest))))
    rw [hskip]
    exact (fromBeBytes_take 2 _ _).trans htype
  have hrest : (frame.bytes ++ rest).drop (headerSize + frame.payload.length) = rest := by
    rw [← frame.length_bytes, List.drop_left]
  have hlength : (frame.bytes ++ rest).length = headerSize + frame.payload.length + rest.length := by
    rw [List.length_append, frame.length_bytes]
  have hread := FrameAccumulator.tryRead_eq ⟨frame.bytes ++ rest⟩
  unfold FrameAccumulator.tryRead FrameAccumulator.front FrameAccumulator.total at hread
  rw [hpayloadLen, hrawType, MessageType.fromU16_toU16] at hread
  dsimp only at hread
  rw [if_neg (by omega), if_neg (by omega), rejectIf, if_neg (Nat.not_lt.mpr h), hrest] at hread
  cases hfound : publicFraming.tryRead (frame.bytes ++ rest) with
  | error e =>
    rw [hfound] at hread
    cases hread
  | ok found =>
    rw [hfound] at hread
    have hsome := Except.ok.inj hread
    cases found with
    | none => cases hsome
    | some found =>
      obtain ⟨frame', rest'⟩ := found
      obtain ⟨hframe, hrest'⟩ := Prod.mk.inj (Option.some.inj hsome)
      cases hrest'
      exact ⟨frame', rfl, (congrArg Frame.msgType hframe).symm⟩

/-- What of a frame its header has room for. -/
def Frame.carried (frame : Frame) : Frame :=
  { frame with flags := frame.flags % 2 ^ 16, requestId := frame.requestId % 2 ^ 32 }

theorem Frame.header_carried (frame : Frame) (h : frame.payload.length < 2 ^ 32) :
    FrameAccumulator.payloadLen ⟨frame.header⟩ = frame.payload.length ∧
      FrameAccumulator.rawType ⟨frame.header⟩ = frame.msgType.toU16 ∧
      FrameAccumulator.flags ⟨frame.header⟩ = frame.carried.flags ∧
      FrameAccumulator.requestId ⟨frame.header⟩ = frame.carried.requestId := by
  refine ⟨(fromBeBytes_take 4 _ _).trans (Nat.mod_eq_of_lt h), ?_, ?_, ?_⟩
  · have hskip : frame.header.drop 4 = _ := drop_toBeBytes 4 _ 0 _
    have htype : frame.msgType.toU16 % 256 ^ 2 = frame.msgType.toU16 := by
      cases frame.msgType <;> rfl
    rw [FrameAccumulator.rawType, hskip]
    exact (fromBeBytes_take 2 _ _).trans htype
  · have hskip : frame.header.drop (4 + (2 + 0)) = _ :=
      (drop_toBeBytes 4 _ _ _).trans (drop_toBeBytes 2 _ 0 _)
    rw [FrameAccumulator.flags, hskip]
    exact fromBeBytes_take 2 _ _
  · have hskip : frame.header.drop (4 + (2 + (2 + 0))) = _ :=
      (drop_toBeBytes 4 _ _ _).trans ((drop_toBeBytes 2 _ _ _).trans (drop_toBeBytes 2 _ 0 _))
    rw [FrameAccumulator.requestId, hskip, List.drop_zero, ← List.append_nil (toBeBytes 4 _)]
    exact fromBeBytes_take 4 _ _

/-- A frame within its limit comes back as it was written. -/
theorem Frame.tryRead_carried {frame : Frame} (h : frame.payload.length ≤ frame.msgType.limit)
    (rest : Bytes) :
    publicFraming.tryRead (frame.bytes ++ rest) = .ok (some (frame.carried, rest)) := by
  have hlimit := frame.msgType.limit_le
  rw [maxControlFrame] at hlimit
  have hheader : (frame.bytes ++ rest).take headerSize = frame.header := by
    rw [← frame.length_header, bytes_eq, List.append_assoc, List.take_left]
  have hfields := header_carried frame (by omega)
  rw [← hheader, payloadLen_take (Nat.le_refl _), rawType_take (Nat.le_refl _),
    flags_take (Nat.le_refl _), requestId_take (Nat.le_refl _)] at hfields
  obtain ⟨hlen, htype, hflags, hrequestId⟩ := hfields
  have hpayload : ((frame.bytes ++ rest).drop headerSize).take frame.payload.length =
      frame.payload := by
    rw [← frame.length_header, bytes_eq, List.append_assoc, List.drop_left, List.take_left]
  have hrest : (frame.bytes ++ rest).drop (headerSize + frame.payload.length) = rest := by
    rw [← frame.length_bytes, List.drop_left]
  have hlength : (frame.bytes ++ rest).length = headerSize + frame.payload.length + rest.length := by
    rw [List.length_append, frame.length_bytes]
  have hread := FrameAccumulator.tryRead_eq ⟨frame.bytes ++ rest⟩
  unfold FrameAccumulator.tryRead FrameAccumulator.front FrameAccumulator.total at hread
  rw [hlen, htype, hflags, hrequestId, MessageType.fromU16_toU16] at hread
  dsimp only at hread
  rw [if_neg (by omega), if_neg (by omega), rejectIf, if_neg (Nat.not_lt.mpr h), hrest,
    hpayload] at hread
  cases hfound : publicFraming.tryRead (frame.bytes ++ rest) with
  | error e =>
    rw [hfound] at hread
    cases hread
  | ok found =>
    rw [hfound] at hread
    have hsome := Except.ok.inj hread
    cases found with
    | none => cases hsome
    | some found =>
      obtain ⟨frame', rest'⟩ := found
      obtain ⟨hframe, hrest'⟩ := Prod.mk.inj (Option.some.inj hsome)
      cases hrest'
      exact congrArg (fun f => Except.ok (some (f, rest'))) hframe.symm

theorem Frame.cut_carried {frames : List Frame}
    (h : ∀ f ∈ frames, f.payload.length ≤ f.msgType.limit) (rest : Bytes) :
    publicFraming.cut (frames.flatMap Frame.bytes ++ rest) =
      (publicFraming.cut rest).after (frames.map Frame.carried) := by
  induction frames with
  | nil => rfl
  | cons frame frames ih =>
    rw [List.flatMap_cons, List.append_assoc,
      Framing.cut_item (Frame.tryRead_carried (h frame List.mem_cons_self) _),
      ih fun f hf => h f (List.mem_cons_of_mem _ hf)]
    rfl

/-- Of the first bytes of some frames, the first frames are read. -/
theorem Frame.items_carried {frames : List Frame} {front : Bytes}
    (h : ∀ f ∈ frames, f.payload.length ≤ f.msgType.limit)
    (hfront : front <+: frames.flatMap Frame.bytes) :
    (publicFraming.cut front).items <+: frames.map Frame.carried := by
  obtain ⟨more, hmore⟩ := hfront
  have hall := Frame.cut_carried h []
  rw [List.append_nil, ← hmore] at hall
  have hnothing : publicFraming.cut [] = ⟨[], [], none⟩ := Framing.cut_none rfl
  have hitems := Framing.items_mono (F := publicFraming) front more
  rw [hall, hnothing, Cut.after, List.append_nil] at hitems
  exact hitems

/-- So is one frame after the other. -/
theorem Frame.cut_bytes {frames : List Frame}
    (h : ∀ f ∈ frames, f.payload.length ≤ f.msgType.limit) (rest : Bytes) :
    ∃ frames', publicFraming.cut (frames.flatMap Frame.bytes ++ rest) =
      (publicFraming.cut rest).after frames' ∧
        frames'.map Frame.msgType = frames.map Frame.msgType := by
  induction frames with
  | nil => exact ⟨[], rfl, rfl⟩
  | cons frame frames ih =>
    obtain ⟨frames', hcut, hkinds⟩ := ih fun f hf => h f (List.mem_cons_of_mem _ hf)
    obtain ⟨frame', hread, hkind⟩ := Frame.tryRead_bytes (h frame List.mem_cons_self)
      (frames.flatMap Frame.bytes ++ rest)
    refine ⟨frame' :: frames', ?_, ?_⟩
    · rw [List.flatMap_cons, List.append_assoc, Framing.cut_item hread, hcut]
      rfl
    · rw [List.map_cons, List.map_cons, hkind, hkinds]

end written

end PersistShell

import PersistShell.Ipc.Streams

/-! Frames of the holder protocol that arrive in chunks. The accumulator has room for one frame
of the largest size, and a chunk that ends such a frame may begin the next one. -/

namespace PersistShell

/-- The fields of the frame are values of their types. -/
structure HolderFrame.Fits (frame : HolderFrame) : Prop where
  requestId : frame.requestId < 2 ^ 32
  generation : frame.generation < 2 ^ 64

namespace HolderFrameAccumulator

/-- One read of `read_frames`: the bytes are fed, and the frames that are whole are taken out. -/
def readChunk (r : List (Nat × HolderFrame) × HolderFrameAccumulator) (chunk : Bytes) :
    Except HolderProtocolError (List (Nat × HolderFrame) × HolderFrameAccumulator) := do
  let a ← r.2.feed chunk
  let (frames, a) ← a.frames
  return (r.1 ++ frames, a)

def readChunks (chunks : List Bytes) :
    Except HolderProtocolError (List (Nat × HolderFrame) × HolderFrameAccumulator) :=
  chunks.foldlM readChunk ([], {})

/-- The accumulators that feeding and reading lead to, whatever the bytes. An operation that
fails leaves the accumulator as it was. -/
inductive Reachable : HolderFrameAccumulator → Prop where
  | new : Reachable {}
  | feed {a a' : HolderFrameAccumulator} {bytes : Bytes} (h : Reachable a)
      (hfeed : a.feed bytes = .ok a') : Reachable a'
  | tryRead {a a' : HolderFrameAccumulator} {frame : Nat × HolderFrame} (h : Reachable a)
      (hread : a.tryReadSupported = .ok (some (frame, a'))) : Reachable a'

end HolderFrameAccumulator

/-- The stream as `try_read_supported` cuts it. -/
def supportedFormat : HeaderFormat HolderProtocolError (Nat × HolderFrame) where
  header := holderHeaderSize
  length header :=
    if HolderFrameAccumulator.payloadLen ⟨header⟩ > maxHolderControlFrame then .error .payloadTooLarge
    else .ok (holderHeaderSize + HolderFrameAccumulator.payloadLen ⟨header⟩)
  header_le := @HolderFrameAccumulator.header_le
  decode bytes := do
    let frame ← decodeFrameWithMinor bytes (HolderFrameAccumulator.minor ⟨bytes⟩)
    return (HolderFrameAccumulator.minor ⟨bytes⟩, frame)
  size frame := holderHeaderSize + frame.2.payload.length
  size_pos := by
    intro frame
    rw [holderHeaderSize]
    omega
  size_decode := by
    intro bytes frame hlength hdecode
    obtain ⟨frame', hframe, hminor⟩ := PersistShell.bind_eq_ok.mp hdecode
    cases hminor
    have hpayload := (payload_of_decode hframe).1
    have hheader : holderHeaderSize ≤ bytes.length := by
      split at hlength
      · cases hlength
      · have := Except.ok.inj hlength
        omega
    rw [hpayload, List.length_drop]
    omega

def supportedFraming : Framing HolderProtocolError (Nat × HolderFrame) := supportedFormat.framing

section accumulator

theorem HolderFrameAccumulator.tryReadSupported_eq (a : HolderFrameAccumulator) :
    a.tryReadSupported =
      (supportedFraming.tryRead a.buffer).map (Option.map fun p => (p.1, ⟨p.2⟩)) := by
  obtain ⟨bytes⟩ := a
  have hlen : HolderFrameAccumulator.payloadLen ⟨bytes.take holderHeaderSize⟩ =
      HolderFrameAccumulator.payloadLen ⟨bytes⟩ :=
    congrArg fromBeBytes (drop_take_take (by rw [holderHeaderSize]; omega))
  change _ = (supportedFormat.tryRead bytes).map _
  unfold tryReadSupported
  dsimp only
  by_cases hheader : bytes.length < holderHeaderSize
  · rw [if_pos hheader, HeaderFormat.tryRead_short hheader]
    rfl
  rw [if_neg hheader]
  by_cases hlimit : HolderFrameAccumulator.payloadLen ⟨bytes⟩ > maxHolderControlFrame
  · have hlength : supportedFormat.length (bytes.take supportedFormat.header) =
        .error .payloadTooLarge := if_pos (hlen ▸ hlimit)
    rw [rejectIf, if_pos hlimit, HeaderFormat.tryRead_fault hheader hlength]
    rfl
  have hlength : supportedFormat.length (bytes.take supportedFormat.header) =
      .ok (holderHeaderSize + HolderFrameAccumulator.payloadLen ⟨bytes⟩) := by
    change (if _ then _ else _ : Except _ _) = _
    rw [if_neg (hlen ▸ hlimit)]
    exact congrArg (fun n => Except.ok (holderHeaderSize + n)) hlen
  rw [rejectIf, if_neg hlimit, pure_bind]
  by_cases hall : bytes.length < holderHeaderSize + HolderFrameAccumulator.payloadLen ⟨bytes⟩
  · rw [if_pos hall, HeaderFormat.tryRead_partial hheader hlength hall]
    rfl
  have hminor : HolderFrameAccumulator.minor
      ⟨bytes.take (holderHeaderSize + HolderFrameAccumulator.payloadLen ⟨bytes⟩)⟩ =
      HolderFrameAccumulator.minor ⟨bytes⟩ :=
    congrArg fromBeBytes (drop_take_take (by rw [holderHeaderSize]; omega))
  rw [if_neg hall, HeaderFormat.tryRead_whole hheader hlength hall]
  dsimp only [supportedFormat]
  rw [hminor]
  cases decodeFrameWithMinor
      (bytes.take (holderHeaderSize + HolderFrameAccumulator.payloadLen ⟨bytes⟩))
      (HolderFrameAccumulator.minor ⟨bytes⟩) with
  | error e => rfl
  | ok frame => rfl

/-- What draining gives where the framing finds no error. -/
theorem HolderFrameAccumulator.frames_eq {a : HolderFrameAccumulator}
    (h : (supportedFraming.cut a.buffer).stopped = none) :
    a.frames = .ok ((supportedFraming.cut a.buffer).items, ⟨(supportedFraming.cut a.buffer).rest⟩) := by
  have key : ∀ fuel (a : HolderFrameAccumulator), a.buffer.length ≤ fuel →
      (supportedFraming.cut a.buffer).stopped = none → readAll fuel a =
        .ok ((supportedFraming.cut a.buffer).items, ⟨(supportedFraming.cut a.buffer).rest⟩) := by
    intro fuel
    induction fuel with
    | zero =>
      rintro ⟨bytes⟩ hlength -
      have hnil : bytes = [] := List.eq_nil_of_length_eq_zero (Nat.le_zero.mp hlength)
      subst hnil
      rfl
    | succ fuel ih =>
      intro a hlength hstopped
      rw [readAll, a.tryReadSupported_eq]
      cases hread : supportedFraming.tryRead a.buffer with
      | error e =>
        rw [Framing.cut_error hread] at hstopped
        cases hstopped
      | ok found =>
        rcases found with _ | ⟨frame, rest⟩
        · rw [Framing.cut_none hread]
          rfl
        · have hlt := Framing.length_lt_of_item hread
          rw [Framing.cut_item hread] at hstopped ⊢
          have hrest := ih ⟨rest⟩ (by dsimp only; omega) hstopped
          change (readAll fuel ⟨rest⟩ >>= fun r => pure (frame :: r.1, r.2)) = _
          rw [hrest]
          rfl
  exact key _ a (Nat.le_refl _) h

theorem HolderFrameAccumulator.Reachable.length_le {a : HolderFrameAccumulator}
    (h : a.Reachable) : a.buffer.length ≤ maxHolderAccumulator := by
  induction h with
  | new => exact Nat.zero_le _
  | feed h hfeed ih =>
    unfold HolderFrameAccumulator.feed at hfeed
    split at hfeed
    · cases hfeed
    · rename_i hfits
      cases hfeed
      rw [List.length_append]
      omega
  | tryRead h hread ih =>
    rw [HolderFrameAccumulator.tryReadSupported_eq] at hread
    rename_i a a' frame
    cases hfound : supportedFraming.tryRead a.buffer with
    | error e =>
      rw [hfound] at hread
      cases hread
    | ok found =>
      rw [hfound] at hread
      rcases found with _ | ⟨frame', rest⟩
      · cases hread
      · cases hread
        have hlt := Framing.length_lt_of_item hfound
        dsimp only
        omega

end accumulator

section roundTrip

variable {frame : HolderFrame} {minor : Nat} {bytes : Bytes}

/-- What the encoder checks. -/
theorem limits_of_encode (h : encodeFrameWithMinor frame minor = .ok bytes) :
    validateMinor minor = .ok () ∧ frame.flags = 0 ∧
      frame.payload.length ≤ frame.messageType.maxPayload := by
  obtain ⟨_, hminor, h⟩ := bind_eq_ok.mp h
  obtain ⟨_, hflags, h⟩ := bind_eq_ok.mp h
  obtain ⟨_, hpayload, h⟩ := bind_eq_ok.mp h
  rw [rejectIf_eq_ok] at hflags hpayload
  exact ⟨hminor, not_not.mp hflags, Nat.le_of_not_lt hpayload⟩

theorem HolderMessageType.maxPayload_le (kind : HolderMessageType) :
    kind.maxPayload ≤ maxHolderControlFrame := by
  cases kind <;> decide

theorem HolderMessageType.toU16_lt (kind : HolderMessageType) : kind.toU16 < 2 ^ 16 := by
  cases kind <;> decide

theorem HolderFrame.length_bytes (minor : Nat) (frame : HolderFrame) :
    (frame.bytes minor).length = holderHeaderSize + frame.payload.length := by
  simp only [HolderFrame.bytes, List.length_append, putU64, putU32, putU16, length_toBeBytes,
    holderMagic, List.length_cons, List.length_nil, holderHeaderSize]

/-- What the encoder writes, the decoder reads. -/
theorem decode_encodeFrame (hfits : frame.Fits)
    (h : encodeFrameWithMinor frame minor = .ok bytes) :
    decodeFrameWithMinor bytes minor = .ok frame := by
  obtain ⟨hminor, hflags, hpayload⟩ := limits_of_encode h
  have hlength := frame.length_bytes minor
  rw [← bytes_of_encode h] at hlength
  have hmax := frame.messageType.maxPayload_le
  have hwire : frame.payload.length < 2 ^ 32 := by
    rw [maxHolderControlFrame] at hmax
    omega
  have hminorWire : minor < 2 ^ 16 := by
    unfold validateMinor at hminor
    split at hminor
    · rename_i hrange
      rw [holderProtocolMinor] at hrange
      omega
    · cases hminor
  unfold decodeFrameWithMinor
  rw [hminor]
  have hlong : ¬ bytes.length < holderHeaderSize := by omega
  rw [rejectIf, if_neg hlong]
  change Reader.decode (readFrame minor) bytes = _
  rw [bytes_of_encode h]
  simp only [HolderFrame.bytes, List.append_assoc, readFrame]
  have hmagic : (Reader.fixed 4).Reads holderMagic holderMagic := Reader.reads_take holderMagic
  rw [hmagic.decode_bind, Reader.decode_reject (by decide),
    (Reader.reads_u16 (by decide)).decode_bind, Reader.decode_reject (by decide),
    (Reader.reads_u16 hminorWire).decode_bind, Reader.decode_reject (not_not.mpr rfl),
    (Reader.reads_u32 hwire).decode_bind,
    (Reader.reads_u16 frame.messageType.toU16_lt).decode_bind,
    HolderMessageType.fromU16_toU16]
  dsimp only
  have hflagsWire : frame.flags < 2 ^ 16 := by omega
  rw [(Reader.reads_u16 hflagsWire).decode_bind, (Reader.reads_u32 hfits.requestId).decode_bind,
    (Reader.reads_u64 hfits.generation).decode_bind, Reader.decode_reject (not_not.mpr hflags),
    (Reader.reads_u32 (by decide)).decode_bind, Reader.decode_reject (by decide),
    Reader.decode_reject (Nat.not_lt.mpr hpayload)]
  change Reader.decode (do
    rejectIf (frame.payload.length < frame.payload.length) HolderProtocolError.truncated
    rejectIf (frame.payload.length > frame.payload.length) HolderProtocolError.trailing
    return frame) frame.payload = _
  rw [Reader.decode_reject (Nat.lt_irrefl _), Reader.decode_reject (Nat.lt_irrefl _)]
  rfl

theorem fromBeBytes_field {front back : Bytes} {start width value : Nat}
    (hstart : front.length = start) (hvalue : value < 256 ^ width) :
    fromBeBytes (((front ++ (toBeBytes width value ++ back)).drop start).take width) = value := by
  rw [List.drop_left' hstart, List.take_left' (length_toBeBytes width value),
    fromBeBytes_toBeBytes, Nat.mod_eq_of_lt hvalue]

/-- The accumulator takes an encoded frame for what it is. -/
theorem tryRead_encodeFrame (hfits : frame.Fits)
    (h : encodeFrameWithMinor frame minor = .ok bytes) :
    supportedFraming.tryRead bytes = .ok (some ((minor, frame), [])) := by
  have hdecode := decode_encodeFrame hfits h
  obtain ⟨hvalid, -, hpayload⟩ := limits_of_encode h
  have hmax := Nat.le_trans hpayload frame.messageType.maxPayload_le
  have hlength := frame.length_bytes minor
  rw [← bytes_of_encode h] at hlength
  have hminorWire : minor < 256 ^ 2 := by
    unfold validateMinor at hvalid
    split at hvalid
    · rename_i hrange
      rw [holderProtocolMinor] at hrange
      omega
    · cases hvalid
  have hwire : frame.payload.length < 256 ^ 4 := by
    rw [maxHolderControlFrame] at hmax
    omega
  -- the two fields of the header that the accumulator looks at
  have hminor : HolderFrameAccumulator.minor ⟨bytes⟩ = minor := by
    rw [bytes_of_encode h]
    simp only [HolderFrame.bytes, List.append_assoc]
    rw [← List.append_assoc]
    exact fromBeBytes_field rfl hminorWire
  have hlen : HolderFrameAccumulator.payloadLen ⟨bytes⟩ = frame.payload.length := by
    rw [bytes_of_encode h]
    simp only [HolderFrame.bytes, List.append_assoc]
    rw [← List.append_assoc, ← List.append_assoc]
    have hstart : (holderMagic ++ putU16 holderProtocolMajor ++ putU16 minor).length = 8 := rfl
    exact fromBeBytes_field hstart hwire
  have hheader : HolderFrameAccumulator.payloadLen ⟨bytes.take holderHeaderSize⟩ =
      frame.payload.length := by
    rw [← hlen]
    exact congrArg fromBeBytes (drop_take_take (by rw [holderHeaderSize]; omega))
  have htotal : supportedFormat.length (bytes.take holderHeaderSize) = .ok bytes.length := by
    change (if _ then _ else _ : Except _ _) = _
    rw [hheader, if_neg (Nat.not_lt.mpr hmax), hlength]
  apply HeaderFormat.tryRead_item.mpr
  refine ⟨?_, bytes.length, htotal, Nat.le_refl _, ?_, List.drop_length⟩
  · change holderHeaderSize ≤ _
    omega
  · rw [List.take_length]
    change (decodeFrameWithMinor bytes (HolderFrameAccumulator.minor ⟨bytes⟩) >>= fun frame =>
      pure (HolderFrameAccumulator.minor ⟨bytes⟩, frame)) = _
    rw [hminor, hdecode]
    rfl

end roundTrip

/-- Every read has room beside the bytes of the frame that is not whole yet. -/
def ReadsFit (frames : List (Nat × HolderFrame)) (chunks : List Bytes) : Prop :=
  ∀ before chunk after, before ++ chunk :: after = chunks →
    supportedFraming.unfinished frames before.flatten.length + chunk.length ≤ maxHolderAccumulator

section chunks

variable {frames : List (Nat × HolderFrame)} {encoded : List Bytes}

/-- The stream of the encoded frames. -/
theorem stream_of_encode
    (hencoded : frames.mapM (fun frame => encodeFrameWithMinor frame.2 frame.1) = .ok encoded) :
    encoded.flatten = frames.flatMap fun frame => frame.2.bytes frame.1 := by
  induction frames generalizing encoded with
  | nil =>
    cases hencoded
    rfl
  | cons frame frames ih =>
    rw [List.mapM_cons] at hencoded
    obtain ⟨bytes, hbytes, hencoded⟩ := bind_eq_ok.mp hencoded
    obtain ⟨rest, hrest, hencoded⟩ := bind_eq_ok.mp hencoded
    cases hencoded
    rw [List.flatten_cons, List.flatMap_cons, ih hrest, bytes_of_encode hbytes]

theorem encode_of_mem
    (hencoded : frames.mapM (fun frame => encodeFrameWithMinor frame.2 frame.1) = .ok encoded) :
    ∀ frame ∈ frames, encodeFrameWithMinor frame.2 frame.1 = .ok (frame.2.bytes frame.1) := by
  induction frames generalizing encoded with
  | nil => exact fun frame hframe => (nomatch hframe)
  | cons frame frames ih =>
    rw [List.mapM_cons] at hencoded
    obtain ⟨bytes, hbytes, hencoded⟩ := bind_eq_ok.mp hencoded
    obtain ⟨rest, hrest, -⟩ := bind_eq_ok.mp hencoded
    intro frame' hframe
    rcases List.mem_cons.mp hframe with rfl | hlater
    · rw [← bytes_of_encode hbytes]
      exact hbytes
    · exact ih hrest frame' hlater

theorem HolderFrameAccumulator.readChunks_concat (chunks : List Bytes) (chunk : Bytes) :
    HolderFrameAccumulator.readChunks (chunks ++ [chunk]) =
      (HolderFrameAccumulator.readChunks chunks >>= fun r =>
        HolderFrameAccumulator.readChunk r chunk) := by
  rw [HolderFrameAccumulator.readChunks, List.foldlM_append]
  congr 1
  funext r
  exact bind_pure _

theorem readsFit_concat {chunks : List Bytes} {chunk : Bytes} :
    ReadsFit frames (chunks ++ [chunk]) ↔ ReadsFit frames chunks ∧
      supportedFraming.unfinished frames chunks.flatten.length + chunk.length ≤
        maxHolderAccumulator := by
  constructor
  · intro h
    refine ⟨?_, h chunks chunk [] rfl⟩
    rintro before chunk' after rfl
    exact h before chunk' (after ++ [chunk]) (by simp only [List.append_assoc, List.cons_append])
  · rintro ⟨hbefore, hlast⟩ before chunk' after hchunks
    rcases List.eq_nil_or_concat after with rfl | ⟨after, last, rfl⟩
    · obtain ⟨rfl, hchunk⟩ := List.append_inj' hchunks rfl
      cases hchunk
      exact hlast
    · rw [List.concat_eq_append, ← List.cons_append, ← List.append_assoc] at hchunks
      obtain ⟨hchunks, -⟩ := List.append_inj' hchunks rfl
      exact hbefore before chunk' after hchunks

section stream

variable (hfits : ∀ frame ∈ frames, frame.2.Fits)
  (hencoded : frames.mapM (fun frame => encodeFrameWithMinor frame.2 frame.1) = .ok encoded)
include hfits hencoded

theorem tryRead_of_mem : ∀ frame ∈ frames,
    supportedFraming.tryRead (frame.2.bytes frame.1) = .ok (some (frame, [])) :=
  fun frame hframe => tryRead_encodeFrame (hfits frame hframe) (encode_of_mem hencoded frame hframe)

/-- The bytes that have come hold no error, and a part of a frame is left of them. -/
theorem cut_of_stream {bytes tail : Bytes} (hstream : bytes ++ tail = encoded.flatten) :
    (supportedFraming.cut bytes).stopped = none ∧
      (supportedFraming.cut bytes).rest.length =
        supportedFraming.unfinished frames bytes.length := by
  rw [stream_of_encode hencoded] at hstream
  have htake : bytes = (frames.flatMap fun frame => frame.2.bytes frame.1).take bytes.length := by
    rw [← hstream, List.take_left]
  have hn : bytes.length ≤ (frames.flatMap fun frame => frame.2.bytes frame.1).length := by
    rw [← hstream, List.length_append]
    exact Nat.le_add_right _ _
  have hcut := Framing.cut_take rfl (tryRead_of_mem hfits hencoded) hn
  rw [← htake] at hcut
  exact hcut

/-- As long as the reads fit, the frames that are whole are read. -/
theorem readChunks_of_fit {chunks : List Bytes} {tail : Bytes}
    (hstream : chunks.flatten ++ tail = encoded.flatten) (hfit : ReadsFit frames chunks) :
    HolderFrameAccumulator.readChunks chunks =
      .ok ((supportedFraming.cut chunks.flatten).items,
        ⟨(supportedFraming.cut chunks.flatten).rest⟩) := by
  induction chunks using List.reverseRecOn generalizing tail with
  | nil => rfl
  | append_singleton chunks chunk ih =>
    obtain ⟨hbefore, hlast⟩ := readsFit_concat.mp hfit
    rw [List.flatten_append, List.flatten_singleton] at hstream ⊢
    have hnext := (cut_of_stream hfits hencoded hstream).1
    rw [List.append_assoc] at hstream
    have hrest := (cut_of_stream hfits hencoded hstream).2
    rw [HolderFrameAccumulator.readChunks_concat, ih hstream hbefore]
    rw [Framing.cut_append_rest] at hnext ⊢
    have hfeed : HolderFrameAccumulator.feed ⟨(supportedFraming.cut chunks.flatten).rest⟩ chunk =
        .ok ⟨(supportedFraming.cut chunks.flatten).rest ++ chunk⟩ := by
      rw [HolderFrameAccumulator.feed, hrest, if_neg (Nat.not_lt.mpr hlast)]
    have hframes := HolderFrameAccumulator.frames_eq
      (a := ⟨(supportedFraming.cut chunks.flatten).rest ++ chunk⟩) hnext
    change (HolderFrameAccumulator.feed _ chunk >>= fun a => a.frames >>= fun r => pure _) = _
    rw [hfeed]
    change (HolderFrameAccumulator.frames _ >>= fun r => pure _) = _
    rw [hframes]
    rfl

/-- A read that does not fit is refused. -/
theorem fit_of_readChunks {chunks : List Bytes} {tail : Bytes}
    (hstream : chunks.flatten ++ tail = encoded.flatten)
    {r : List (Nat × HolderFrame) × HolderFrameAccumulator}
    (hread : HolderFrameAccumulator.readChunks chunks = .ok r) : ReadsFit frames chunks := by
  induction chunks using List.reverseRecOn generalizing tail r with
  | nil =>
    intro before chunk after h
    exact absurd h (by simp only [List.append_eq_nil_iff, List.cons_ne_nil, and_false,
      not_false_eq_true])
  | append_singleton chunks chunk ih =>
    rw [List.flatten_append, List.flatten_singleton, List.append_assoc] at hstream
    rw [HolderFrameAccumulator.readChunks_concat] at hread
    obtain ⟨r', hbefore, hchunk⟩ := bind_eq_ok.mp hread
    have hfit := ih hstream hbefore
    refine readsFit_concat.mpr ⟨hfit, ?_⟩
    have hstate := readChunks_of_fit hfits hencoded hstream hfit
    rw [hbefore] at hstate
    cases hstate
    obtain ⟨a, hfeed, -⟩ := bind_eq_ok.mp hchunk
    unfold HolderFrameAccumulator.feed at hfeed
    split at hfeed
    · cases hfeed
    · rename_i hlength
      rw [← (cut_of_stream hfits hencoded hstream).2]
      exact Nat.le_of_not_lt hlength

/-- The frames are read back exactly when every read has room. -/
theorem readChunks_iff {chunks : List Bytes} (hchunks : chunks.flatten = encoded.flatten) :
    HolderFrameAccumulator.readChunks chunks = .ok (frames, {}) ↔ ReadsFit frames chunks := by
  have hstream : chunks.flatten ++ [] = encoded.flatten := by
    rw [List.append_nil]
    exact hchunks
  refine ⟨fit_of_readChunks hfits hencoded hstream, fun hfit => ?_⟩
  rw [readChunks_of_fit hfits hencoded hstream hfit, hchunks, stream_of_encode hencoded,
    Framing.cut_items rfl (tryRead_of_mem hfits hencoded)]

/-- The frames come out of the reads as they were encoded exactly when every read has room, and
no bytes at all make the accumulator hold more than its limit. -/
theorem holder_frames_iff {chunks : List Bytes} (hchunks : chunks.flatten = encoded.flatten) :
    (HolderFrameAccumulator.readChunks chunks = .ok (frames, {}) ↔ ReadsFit frames chunks) ∧
      ∀ a : HolderFrameAccumulator, a.Reachable → a.buffer.length ≤ maxHolderAccumulator :=
  ⟨readChunks_iff hfits hencoded hchunks, fun _ h => h.length_le⟩

end stream

theorem readsFit_of_length {chunks : List Bytes}
    (h : chunks.flatten.length ≤ maxHolderAccumulator) : ReadsFit frames chunks := by
  rintro before chunk after rfl
  have hle := Framing.unfinished_le (F := supportedFraming) frames before.flatten.length
  rw [List.flatten_append, List.length_append, List.flatten_cons, List.length_append] at h
  omega

end chunks

section reads

/-- A stream in reads of `size` bytes, and what is left after `n` of them. -/
def inReads (size : Nat) : Nat → Bytes → List Bytes
  | 0, stream => [stream]
  | n + 1, stream => stream.take size :: inReads size n (stream.drop size)

theorem inReads_eq (size n : Nat) (stream : Bytes) :
    ∃ before, inReads size n stream = before ++ [stream.drop (n * size)] ∧
      before.flatten = stream.take (n * size) := by
  induction n generalizing stream with
  | zero =>
    refine ⟨[], ?_, ?_⟩
    · rw [Nat.zero_mul, List.drop_zero]
      rfl
    · rw [Nat.zero_mul]
      rfl
  | succ n ih =>
    obtain ⟨before, hreads, hbefore⟩ := ih (stream.drop size)
    have hmul : (n + 1) * size = size + n * size := by rw [Nat.succ_mul, Nat.add_comm]
    refine ⟨stream.take size :: before, ?_, ?_⟩
    · rw [inReads, hreads, List.drop_drop, hmul]
      rfl
    · rw [List.flatten_cons, hbefore, hmul, List.take_add]

theorem flatten_inReads (size n : Nat) (stream : Bytes) : (inReads size n stream).flatten = stream := by
  obtain ⟨before, hreads, hbefore⟩ := inReads_eq size n stream
  rw [hreads, List.flatten_append, List.flatten_singleton, hbefore, List.take_append_drop]

theorem length_of_inReads {size n : Nat} {stream : Bytes} (h : stream.length ≤ (n + 1) * size) :
    ∀ chunk ∈ inReads size n stream, chunk.length ≤ size := by
  induction n generalizing stream with
  | zero =>
    intro chunk hchunk
    rw [List.mem_singleton.mp hchunk]
    omega
  | succ n ih =>
    intro chunk hchunk
    rcases List.mem_cons.mp hchunk with rfl | hlater
    · rw [List.length_take]
      exact Nat.min_le_left _ _
    · apply ih _ chunk hlater
      rw [List.length_drop]
      rw [Nat.succ_mul] at h
      omega

end reads

theorem encodeFrame_of_limits {frame : HolderFrame} {minor : Nat}
    (hminor : validateMinor minor = .ok ()) (hflags : frame.flags = 0)
    (hpayload : frame.payload.length ≤ frame.messageType.maxPayload) :
    encodeFrameWithMinor frame minor = .ok (frame.bytes minor) := by
  unfold encodeFrameWithMinor
  rw [hminor, rejectIf, if_neg (not_not.mpr hflags), rejectIf, if_neg (Nat.not_lt.mpr hpayload)]
  rfl

/-- Two frames of different minors, split in the header of the second. -/
theorem two_frames_read :
    let frames : List (Nat × HolderFrame) :=
      [(1, { messageType := .capability, requestId := 7 }),
        (2, { messageType := .input, payload := [97] })]
    let bytes := frames.flatMap fun frame => frame.2.bytes frame.1
    HolderFrameAccumulator.readChunks [bytes.take 40, bytes.drop 40] = .ok (frames, {}) := by
  intro frames bytes
  have hfits : ∀ frame ∈ frames, frame.2.Fits := by
    intro frame hframe
    simp only [frames, List.mem_cons, List.not_mem_nil, or_false] at hframe
    rcases hframe with rfl | rfl
    · exact ⟨by decide, by decide⟩
    · exact ⟨by decide, by decide⟩
  have hencoded : frames.mapM (fun frame => encodeFrameWithMinor frame.2 frame.1) =
      .ok (frames.map fun frame => frame.2.bytes frame.1) := rfl
  have hfit : ReadsFit frames [bytes.take 40, bytes.drop 40] := readsFit_of_length (by decide)
  exact (holder_frames_iff hfits hencoded (by decide)).1.mpr hfit

/-- A frame of the largest size, and another one right behind it. -/
def largestThenNext : List (Nat × HolderFrame) :=
  [(1, { messageType := .create, payload := List.replicate maxHolderControlFrame 0 }),
    (1, { messageType := .capability })]

def largestThenNextBytes : List Bytes :=
  largestThenNext.map fun frame => frame.2.bytes frame.1

theorem largestThenNext_encoded :
    largestThenNext.mapM (fun frame => encodeFrameWithMinor frame.2 frame.1) =
      .ok largestThenNextBytes := by
  have hencode : ∀ payload : Bytes, payload.length ≤ maxHolderControlFrame →
      encodeFrameWithMinor { messageType := .create, payload } 1 =
        .ok (HolderFrame.bytes 1 { messageType := .create, payload }) :=
    fun payload hpayload => encodeFrame_of_limits rfl rfl hpayload
  have hfirst := hencode (List.replicate maxHolderControlFrame 0) (by rw [List.length_replicate])
  have hsecond : encodeFrameWithMinor { messageType := .capability } 1 =
      .ok (HolderFrame.bytes 1 { messageType := .capability }) :=
    encodeFrame_of_limits rfl rfl (by decide)
  rw [largestThenNext, List.mapM_cons, hfirst, List.mapM_cons, hsecond]
  rfl

theorem largestThenNext_length : largestThenNextBytes.flatten.length = 2 ^ 20 + 64 := by
  have hlength : ∀ (payload : Bytes) (next : Bytes),
      [HolderFrame.bytes 1 { messageType := .create, payload }, next].flatten.length =
        holderHeaderSize + payload.length + next.length := by
    intro payload next
    rw [List.flatten_cons, List.flatten_singleton, List.length_append, HolderFrame.length_bytes]
  have hframes := hlength (List.replicate maxHolderControlFrame 0)
    (HolderFrame.bytes 1 { messageType := .capability })
  rw [List.length_replicate, HolderFrame.length_bytes] at hframes
  exact hframes

/-- The read that ends the first frame brings the second, and there is no room for both. -/
theorem next_frame_refused :
    (∀ frame ∈ largestThenNext, frame.2.Fits) ∧
      largestThenNext.mapM (fun frame => encodeFrameWithMinor frame.2 frame.1) =
        .ok largestThenNextBytes ∧
      (inReads (64 * 1024) 16 largestThenNextBytes.flatten).flatten =
        largestThenNextBytes.flatten ∧
      (∀ chunk ∈ inReads (64 * 1024) 16 largestThenNextBytes.flatten,
        chunk.length ≤ 64 * 1024) ∧
      HolderFrameAccumulator.readChunks (inReads (64 * 1024) 16 largestThenNextBytes.flatten) ≠
        .ok (largestThenNext, {}) := by
  have hfits : ∀ frame ∈ largestThenNext, frame.2.Fits := by
    intro frame hframe
    simp only [largestThenNext, List.mem_cons, List.not_mem_nil, or_false] at hframe
    rcases hframe with rfl | rfl
    · exact ⟨by decide, by decide⟩
    · exact ⟨by decide, by decide⟩
  have hstream := flatten_inReads (64 * 1024) 16 largestThenNextBytes.flatten
  refine ⟨hfits, largestThenNext_encoded, hstream, ?_, ?_⟩
  · apply length_of_inReads
    rw [largestThenNext_length]
    decide
  · intro hread
    have hfit := (readChunks_iff hfits largestThenNext_encoded hstream).mp hread
    obtain ⟨before, hreads, hbefore⟩ := inReads_eq (64 * 1024) 16 largestThenNextBytes.flatten
    have hlast := hfit before _ [] hreads.symm
    have hlength : before.flatten.length = 2 ^ 20 := by
      rw [hbefore, List.length_take, largestThenNext_length]
      rfl
    have hsize : supportedFraming.unfinished largestThenNext (2 ^ 20) = 2 ^ 20 := by
      have hlarge : ∀ (payload : Bytes) (next : Nat × HolderFrame), 2 ^ 20 ≤ payload.length →
          supportedFraming.unfinished [(1, { messageType := .create, payload }), next] (2 ^ 20) =
            2 ^ 20 := by
        intro payload next hpayload
        refine if_pos (Nat.lt_of_le_of_lt hpayload ?_)
        change _ < holderHeaderSize + payload.length
        rw [holderHeaderSize]
        omega
      exact hlarge _ _ (by rw [List.length_replicate]; decide)
    rw [hlength, hsize, List.length_drop, largestThenNext_length] at hlast
    revert hlast
    decide

end PersistShell

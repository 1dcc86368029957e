import PersistShell.Dashboard.Storage

/-! What a segment holds: the records that are read from it, and the bytes behind the last of them
that are no record. -/

namespace PersistShell
open Program

namespace Metric

theorem ofNat_putU32 (value : UInt32) : UInt32.ofNat (fromBeBytes (putU32 value)) = value := by
  have hlt : value.toNat < 256 ^ 4 := value.toNat_lt
  rw [putU32, fromBeBytes_toBeBytes, Nat.mod_eq_of_lt hlt, UInt32.ofNat_toNat]

theorem ofNat_putU64 (value : UInt64) : UInt64.ofNat (fromBeBytes (putU64 value)) = value := by
  have hlt : value.toNat < 256 ^ 8 := value.toNat_lt
  rw [putU64, fromBeBytes_toBeBytes, Nat.mod_eq_of_lt hlt, UInt64.ofNat_toNat]

/-- The frame of a record. -/
def framed (record : MinuteRecord) : Bytes :=
  toBeBytes 4 (minutePayload record).length ++ putU32 (crc32 (minutePayload record)) ++
    minutePayload record

theorem frameRecord_eq_ok {record : MinuteRecord} {maxBytes : Nat} {bytes : Bytes} :
    frameRecord record maxBytes = .ok bytes ↔
      Encodable record ∧ (minutePayload record).length ≤ maxBytes ∧
        (minutePayload record).length ≤ 2 ^ 32 - 1 ∧ bytes = framed record := by
  unfold frameRecord
  rw [bind_eq_ok]
  constructor
  · rintro ⟨payload, hencode, h⟩
    obtain ⟨hencodable, rfl⟩ := encodeMinute_eq_ok.mp hencode
    obtain ⟨_, hlimit, h⟩ := bind_eq_ok.mp h
    have hfits := rejectIf_eq_ok.mp hlimit
    cases h
    exact ⟨hencodable, by omega, by omega, rfl⟩
  · rintro ⟨hencodable, hmax, hlimit, rfl⟩
    refine ⟨_, encodeMinute_eq_ok.mpr ⟨hencodable, rfl⟩, bind_eq_ok.mpr ⟨(), ?_, rfl⟩⟩
    exact rejectIf_eq_ok.mpr (by omega)

theorem length_framed (record : MinuteRecord) :
    (framed record).length = recordHeaderSize + (minutePayload record).length := by
  rw [framed, List.length_append, List.length_append, length_toBeBytes, putU32, length_toBeBytes]
  rfl

section record

variable {limits : StorageLimits} {record : MinuteRecord}

theorem length_of_framed (hfits : (minutePayload record).length ≤ limits.maxRecordBytes)
    (hlimit : (minutePayload record).length ≤ 2 ^ 32 - 1) :
    recordLength limits ((framed record).take recordHeaderSize) =
      .ok (framed record).length := by
  have htake : ((framed record).take recordHeaderSize).take 4 =
      toBeBytes 4 (minutePayload record).length := by
    rw [List.take_take, framed, List.append_assoc]
    exact List.take_left' (length_toBeBytes _ _)
  have hvalue : fromBeBytes (((framed record).take recordHeaderSize).take 4) =
      (minutePayload record).length := by
    rw [htake, fromBeBytes_toBeBytes, Nat.mod_eq_of_lt (by omega)]
  apply (recordLength_eq_ok limits).mpr
  rw [hvalue, length_framed]
  exact ⟨hfits, rfl⟩

theorem decodeRecord_framed (hencodable : Encodable record) :
    decodeRecord (hourStart record.timestampMs) (framed record) = .ok record := by
  have hpayload : (framed record).drop recordHeaderSize = minutePayload record := by
    apply List.drop_left'
    rw [List.length_append, length_toBeBytes, putU32, length_toBeBytes]
    rfl
  have hcrc : ((framed record).drop 4).take 4 = putU32 (crc32 (minutePayload record)) := by
    rw [framed, List.append_assoc, List.drop_left' (length_toBeBytes _ _)]
    exact List.take_left' (length_toBeBytes _ _)
  apply (decodeRecord_eq_ok _).mpr
  rw [hpayload, hcrc]
  exact ⟨(ofNat_putU32 _).symm, decodeMinute_minutePayload hencodable, rfl⟩

theorem tryRead_framed (hencodable : Encodable record)
    (hfits : (minutePayload record).length ≤ limits.maxRecordBytes)
    (hlimit : (minutePayload record).length ≤ 2 ^ 32 - 1) :
    (recordFormat limits (hourStart record.timestampMs)).tryRead (framed record) =
      .ok (some (record, [])) := by
  have hlength := length_of_framed hfits hlimit
  have hdecode := decodeRecord_framed hencodable
  have hheader : recordHeaderSize ≤ (framed record).length := by
    rw [length_framed]
    exact Nat.le_add_right _ _
  revert hlength hdecode hheader
  generalize framed record = bytes
  intro hlength hdecode hheader
  apply HeaderFormat.tryRead_item.mpr
  refine ⟨hheader, bytes.length, hlength, Nat.le_refl _, ?_, List.drop_length⟩
  rw [List.take_length]
  exact hdecode

end record

theorem length_encodeSegmentHeader (header : SegmentHeader) :
    (encodeSegmentHeader header).length = segmentHeaderSize := by
  simp only [encodeSegmentHeader, magic, putU16, putU32, putU64, List.length_append,
    length_toBeBytes, List.length_cons, List.length_nil]
  rfl

theorem decodeSegmentHeader_encodeSegmentHeader (header : SegmentHeader) :
    decodeSegmentHeader (encodeSegmentHeader header) = .ok header := by
  have hhour : ((encodeSegmentHeader header).drop 12).take 8 = putU64 header.hourStartMs := by
    rw [encodeSegmentHeader, List.append_assoc, List.drop_left' (by decide)]
    exact List.take_left' (length_toBeBytes _ _)
  have hsequence : ((encodeSegmentHeader header).drop 20).take 4 = putU32 header.sequence := by
    rw [encodeSegmentHeader, List.drop_left']
    · exact List.take_of_length_le (Nat.le_of_eq (length_toBeBytes _ _))
    · rw [List.length_append, putU64, length_toBeBytes]
      rfl
  have hmagic : (encodeSegmentHeader header).take 8 = magic := rfl
  have hversion : ((encodeSegmentHeader header).drop 8).take 2 = putU16 version := rfl
  have hreserved : ((encodeSegmentHeader header).drop 10).take 2 = [0, 0] := rfl
  unfold decodeSegmentHeader
  rw [hhour, hsequence, hmagic, hversion, hreserved, length_encodeSegmentHeader, ofNat_putU64,
    ofNat_putU32]
  refine bind_eq_ok.mpr ⟨(), rejectIf_eq_ok.mpr (Nat.lt_irrefl _), bind_eq_ok.mpr ⟨(),
    rejectIf_eq_ok.mpr (Nat.lt_irrefl _), bind_eq_ok.mpr ⟨(), rejectIf_eq_ok.mpr (not_not_intro rfl),
    bind_eq_ok.mpr ⟨(), rejectIf_eq_ok.mpr (not_not_intro ?_), bind_eq_ok.mpr ⟨(),
    rejectIf_eq_ok.mpr (not_not_intro rfl), rfl⟩⟩⟩⟩⟩
  decide

theorem cut_nil {limits : StorageLimits} {hourStartMs : UInt64} :
    (recordFormat limits hourStartMs).framing.cut [] = ⟨[], [], none⟩ :=
  Framing.cut_none rfl

/-- `records` are read from a segment of the hour, and `torn` is what is left behind them. -/
structure SegmentReads (limits : StorageLimits) (hourStartMs : UInt64) (content : Bytes)
    (records : List MinuteRecord) (torn : Bytes) : Prop where
  fits : content.length ≤ limits.maxSegmentBytes
  header : ∃ sequence,
    decodeSegmentHeader (content.take segmentHeaderSize) = .ok ⟨hourStartMs, sequence⟩
  cut : (recordFormat limits hourStartMs).framing.cut (content.drop segmentHeaderSize) =
    ⟨records, torn, none⟩

namespace SegmentReads

variable {limits : StorageLimits} {hourStartMs : UInt64} {content torn : Bytes}
  {records : List MinuteRecord}

theorem long (h : SegmentReads limits hourStartMs content records torn) :
    segmentHeaderSize ≤ content.length := by
  obtain ⟨sequence, hheader⟩ := h.header
  obtain ⟨_, hlong, -⟩ := bind_eq_ok.mp hheader
  have := rejectIf_eq_ok.mp hlong
  rw [List.length_take] at this
  omega

theorem readSegment (h : SegmentReads limits hourStartMs content records torn) :
    readSegment limits content = .ok (records, torn.length) := by
  obtain ⟨sequence, hheader⟩ := h.header
  unfold Metric.readSegment
  refine bind_eq_ok.mpr ⟨(), rejectIf_eq_ok.mpr (Nat.not_lt.mpr h.fits), ?_⟩
  refine bind_eq_ok.mpr ⟨(), rejectIf_eq_ok.mpr (Nat.not_lt.mpr h.long), ?_⟩
  refine bind_eq_ok.mpr ⟨⟨hourStartMs, sequence⟩, ?_, ?_⟩
  · rw [hheader]
    rfl
  · dsimp only
    rw [h.cut]
    rfl

theorem records_unique {hourStartMs' : UInt64} {records' : List MinuteRecord} {torn' : Bytes}
    (h : SegmentReads limits hourStartMs content records torn)
    (h' : SegmentReads limits hourStartMs' content records' torn') : records = records' :=
  (Prod.mk.inj (Except.ok.inj (h.readSegment.symm.trans h'.readSegment))).1

theorem torn_unique {hourStartMs' : UInt64} {records' : List MinuteRecord} {torn' : Bytes}
    (h : SegmentReads limits hourStartMs content records torn)
    (h' : SegmentReads limits hourStartMs' content records' torn') :
    torn.length = torn'.length :=
  (Prod.mk.inj (Except.ok.inj (h.readSegment.symm.trans h'.readSegment))).2

/-- The torn bytes are the last ones. -/
theorem torn_le (h : SegmentReads limits hourStartMs content records torn) :
    segmentHeaderSize + torn.length ≤ content.length := by
  obtain ⟨eaten, heaten, -⟩ :=
    (recordFormat limits hourStartMs).framing.exists_eaten (content.drop segmentHeaderSize)
  have hlength := congrArg List.length heaten
  rw [h.cut, List.length_append, List.length_drop] at hlength
  have hlong := h.long
  dsimp only at hlength
  omega

theorem fresh (hfits : segmentHeaderSize ≤ limits.maxSegmentBytes) (sequence : UInt32) :
    SegmentReads limits hourStartMs (encodeSegmentHeader ⟨hourStartMs, sequence⟩) [] [] where
  fits := by
    rw [length_encodeSegmentHeader]
    exact hfits
  header := by
    refine ⟨sequence, ?_⟩
    rw [List.take_of_length_le (Nat.le_of_eq (length_encodeSegmentHeader _))]
    exact decodeSegmentHeader_encodeSegmentHeader _
  cut := by
    rw [List.drop_of_length_le (Nat.le_of_eq (length_encodeSegmentHeader _))]
    exact cut_nil

/-- The torn bytes are cut off. -/
theorem repair (h : SegmentReads limits hourStartMs content records torn) :
    SegmentReads limits hourStartMs (content.take (content.length - torn.length)) records [] where
  fits := by
    have := h.fits
    rw [List.length_take]
    omega
  header := by
    have := h.torn_le
    rw [List.take_take, Nat.min_eq_left (by omega)]
    exact h.header
  cut := by
    obtain ⟨eaten, heaten, hmore⟩ :=
      (recordFormat limits hourStartMs).framing.exists_eaten (content.drop segmentHeaderSize)
    rw [h.cut] at heaten hmore
    have hlength := congrArg List.length heaten
    rw [List.length_append, List.length_drop] at hlength
    dsimp only at hlength heaten
    have hdrop : (content.take (content.length - torn.length)).drop segmentHeaderSize = eaten := by
      have hlong := h.long
      rw [List.drop_take, heaten]
      exact List.take_left' (by omega)
    have hnil := hmore []
    rw [List.append_nil, cut_nil] at hnil
    rw [hdrop, hnil]
    exact congrArg (Cut.mk · [] none) (List.append_nil _)

/-- What is written behind the records is read behind them. -/
theorem append {more torn' : Bytes} {records' : List MinuteRecord}
    (h : SegmentReads limits hourStartMs content records [])
    (hfits : content.length + more.length ≤ limits.maxSegmentBytes)
    (hmore : (recordFormat limits hourStartMs).framing.cut more = ⟨records', torn', none⟩) :
    SegmentReads limits hourStartMs (content ++ more) (records ++ records') torn' where
  fits := by
    rw [List.length_append]
    exact hfits
  header := by
    rw [List.take_append_of_le_length h.long]
    exact h.header
  cut := by
    have hstopped : ((recordFormat limits hourStartMs).framing.cut
        (content.drop segmentHeaderSize)).stopped = none := by
      rw [h.cut]
    rw [List.drop_append_of_le_length h.long, Framing.cut_append hstopped, h.cut]
    dsimp only
    rw [List.nil_append, hmore]
    rfl

end SegmentReads

section written

variable {limits : StorageLimits} {record : MinuteRecord} {bytes : Bytes}

theorem cut_framed (h : frameRecord record limits.maxRecordBytes = .ok bytes) :
    (recordFormat limits (hourStart record.timestampMs)).framing.cut bytes =
      ⟨[record], [], none⟩ := by
  obtain ⟨hencodable, hfits, hlimit, rfl⟩ := frameRecord_eq_ok.mp h
  have hread := tryRead_framed hencodable hfits hlimit
  revert hread
  generalize framed record = bytes
  intro hread
  rw [Framing.cut_item hread, cut_nil]
  rfl

/-- A record of which a byte is missing is torn. -/
theorem cut_framed_take {written : Nat} (h : frameRecord record limits.maxRecordBytes = .ok bytes)
    (hpart : written < bytes.length) :
    (recordFormat limits (hourStart record.timestampMs)).framing.cut (bytes.take written) =
      ⟨[], bytes.take written, none⟩ := by
  obtain ⟨hencodable, hfits, hlimit, rfl⟩ := frameRecord_eq_ok.mp h
  have hread := tryRead_framed hencodable hfits hlimit
  revert hread hpart
  generalize framed record = bytes
  intro hpart hread
  rw [← List.take_append_drop written bytes] at hread
  have hrest : bytes.drop written ≠ [] := by
    apply List.ne_nil_of_length_pos
    rw [List.length_drop]
    omega
  exact Framing.cut_none (Framing.tryRead_part hread hrest)

end written

end Metric

end PersistShell

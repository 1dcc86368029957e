import PersistShell.Dashboard.FieldLaws
import PersistShell.Dashboard.Recovery

/-! The formats of the metrics are canonical: there is one sequence of bytes for a record, for a
segment header and for a segment, and of a segment that is cut the whole records are read. -/

namespace PersistShell
open Program

namespace Metric

section minute

variable {payload : Bytes} {record : MinuteRecord}

theorem decodeMinute_apply (payload : Bytes) : decodeMinute payload =
    match FieldReader.minute payload with
    | .error e => .error e
    | .ok (record, left) =>
      if left ≠ [] then .error .trailing
      else if timestampsMatch record = false then .error .invalid else .ok record := by
  unfold decodeMinute
  cases FieldReader.minute payload with
  | error e => rfl
  | ok found =>
    obtain ⟨record, left⟩ := found
    change (do
      rejectIf (left ≠ []) FormatError.trailing
      rejectIf (timestampsMatch record = false) FormatError.invalid
      return record : Except FormatError MinuteRecord) = _
    dsimp only
    by_cases hleft : left ≠ []
    · rw [rejectIf, if_pos hleft, if_pos hleft]
      rfl
    rw [rejectIf, rejectIf, if_neg hleft, if_neg hleft]
    split <;> rfl

/-- The bytes of a record are the only ones that it is decoded from. -/
theorem decodeMinute_eq_ok :
    decodeMinute payload = .ok record ↔ Encodable record ∧ payload = minutePayload record := by
  constructor
  · intro h
    rw [decodeMinute_apply] at h
    cases hread : FieldReader.minute payload with
    | error e =>
      rw [hread] at h
      cases h
    | ok found =>
      obtain ⟨found, left⟩ := found
      rw [hread] at h
      dsimp only at h
      split at h
      · cases h
      rename_i hleft
      split at h
      · cases h
      rename_i htimestamps
      cases h
      obtain ⟨front, hfront, hpayload, hcount, hids⟩ := FieldReader.takes_minute _ _ _ hread
      rw [not_not.mp hleft, List.append_nil] at hfront
      exact ⟨⟨hcount, Bool.eq_true_of_not_eq_false htimestamps, hids⟩, hfront.trans hpayload⟩
  · rintro ⟨hencodable, rfl⟩
    exact decodeMinute_minutePayload hencodable

theorem decodeMinute_part (h : decodeMinute payload = .ok record) {front missing : Bytes}
    (hsplit : front ++ missing = payload) (hmissing : missing ≠ []) :
    decodeMinute front = .error .truncated := by
  obtain ⟨hencodable, rfl⟩ := decodeMinute_eq_ok.mp h
  rw [decodeMinute_apply, FieldReader.short_minute hencodable front missing hsplit hmissing]

theorem decodeMinute_more (h : decodeMinute payload = .ok record) {more : Bytes}
    (hmore : more ≠ []) : decodeMinute (payload ++ more) = .error .trailing := by
  obtain ⟨hencodable, rfl⟩ := decodeMinute_eq_ok.mp h
  rw [decodeMinute_apply, reads_minute hencodable more]
  exact if_pos hmore

end minute

section header

variable {payload : Bytes} {header : SegmentHeader}

theorem decodeSegmentHeader_eq_ok :
    decodeSegmentHeader payload = .ok header ↔ payload = encodeSegmentHeader header := by
  refine ⟨fun h => ?_, fun h => h ▸ decodeSegmentHeader_encodeSegmentHeader header⟩
  obtain ⟨_, hshort, h⟩ := bind_eq_ok.mp h
  obtain ⟨_, hlong, h⟩ := bind_eq_ok.mp h
  obtain ⟨_, hmagic, h⟩ := bind_eq_ok.mp h
  obtain ⟨_, hversion, h⟩ := bind_eq_ok.mp h
  obtain ⟨_, hreserved, h⟩ := bind_eq_ok.mp h
  cases h
  have hlength : payload.length = 24 := by
    have hleast := rejectIf_eq_ok.mp hshort
    have hmost := rejectIf_eq_ok.mp hlong
    unfold segmentHeaderSize at hleast hmost
    omega
  have hfield : ∀ (skip width : Nat), skip + width ≤ 24 → toBeBytes width
      (fromBeBytes ((payload.drop skip).take width)) = (payload.drop skip).take width := by
    intro skip width hfits
    have hwidth : ((payload.drop skip).take width).length = width := by
      rw [List.length_take, List.length_drop]
      omega
    have hsame := toBeBytes_fromBeBytes ((payload.drop skip).take width)
    rw [hwidth] at hsame
    exact hsame
  have hless : ∀ (skip width : Nat), fromBeBytes ((payload.drop skip).take width) < 256 ^ width := by
    intro skip width
    refine Nat.lt_of_lt_of_le (fromBeBytes_lt _) (Nat.pow_le_pow_right (by decide) ?_)
    exact List.length_take_le _ _
  have hhour : putU64 (UInt64.ofNat (fromBeBytes ((payload.drop 12).take 8))) =
      (payload.drop 12).take 8 := by
    rw [putU64, UInt64.toNat_ofNat_of_lt' (hless 12 8), hfield 12 8 (by decide)]
  have hsequence : putU32 (UInt32.ofNat (fromBeBytes ((payload.drop 20).take 4))) =
      (payload.drop 20).take 4 := by
    rw [putU32, UInt32.toNat_ofNat_of_lt' (hless 20 4), hfield 20 4 (by decide)]
  have hnumber : putU16 version = (payload.drop 8).take 2 := by
    rw [← hfield 8 2 (by decide), not_not.mp (rejectIf_eq_ok.mp hversion), putU16]
  have hsplit : ∀ (skip width : Nat), (payload.drop skip).take width ++ payload.drop (skip + width) =
      payload.drop skip := by
    intro skip width
    rw [← List.drop_drop, List.take_append_drop]
  rw [encodeSegmentHeader, hhour, hsequence, hnumber,
    ← not_not.mp (rejectIf_eq_ok.mp hmagic), ← not_not.mp (rejectIf_eq_ok.mp hreserved)]
  have hlast : (payload.drop 20).take 4 = payload.drop 20 :=
    List.take_of_length_le (by rw [List.length_drop]; omega)
  simp only [List.append_assoc]
  rw [hlast, hsplit 12 8, hsplit 10 2, hsplit 8 2, List.take_append_drop]

theorem decodeSegmentHeader_part {front : Bytes} (h : front.length < segmentHeaderSize) :
    decodeSegmentHeader front = .error .truncated := by
  unfold decodeSegmentHeader rejectIf
  rw [if_pos h]
  rfl

theorem decodeSegmentHeader_more {payload : Bytes} (h : payload.length > segmentHeaderSize) :
    decodeSegmentHeader payload = .error .trailing := by
  unfold decodeSegmentHeader rejectIf
  rw [if_neg (by omega), if_pos h]
  rfl

end header

section segment

/-- The first bytes of some items are those of whole items, and of a part of the next one. -/
theorem take_flatMap {α σ : Type} (encode : α → List σ) (items : List α) {n : Nat}
    (hn : n ≤ (items.flatMap encode).length) :
    ∃ i part, i ≤ items.length ∧
      (items.flatMap encode).take n = (items.take i).flatMap encode ++ part ∧
      (i = items.length ∧ part = [] ∨ ∃ a, items[i]? = some a ∧
        ∃ k < (encode a).length, part = (encode a).take k) := by
  induction items generalizing n with
  | nil => exact ⟨0, [], Nat.le_refl 0, List.take_nil, Or.inl ⟨rfl, rfl⟩⟩
  | cons a items ih =>
    rw [List.flatMap_cons, List.length_append] at hn
    rcases Nat.lt_or_ge n (encode a).length with hlt | hge
    · refine ⟨0, (encode a).take n, Nat.zero_le _, ?_, Or.inr ⟨a, rfl, n, hlt, rfl⟩⟩
      rw [List.flatMap_cons, List.take_append_of_le_length hlt.le]
      rfl
    · obtain ⟨i, part, hi, htake, hpart⟩ := @ih (n - (encode a).length) (by omega)
      refine ⟨i + 1, part, Nat.succ_le_succ hi, ?_, ?_⟩
      · rw [List.flatMap_cons, List.take_append, List.take_of_length_le hge, htake,
          List.take_succ_cons, List.flatMap_cons, List.append_assoc]
      · rcases hpart with ⟨hlast, hnil⟩ | ⟨b, hb, k, hk, hsome⟩
        · exact Or.inl ⟨by rw [hlast, List.length_cons], hnil⟩
        · exact Or.inr ⟨b, hb, k, hk, hsome⟩

variable {limits : StorageLimits} {header : SegmentHeader} {records : List MinuteRecord}

/-- A segment with records. -/
def segmentBytes (header : SegmentHeader) (records : List MinuteRecord) : Bytes :=
  encodeSegmentHeader header ++ records.flatMap framed

/-- Records of the hour, each of them within the limits. -/
def Storable (limits : StorageLimits) (header : SegmentHeader) (records : List MinuteRecord) :
    Prop :=
  ∀ record ∈ records, hourStart record.timestampMs = header.hourStartMs ∧
    frameRecord record limits.maxRecordBytes = .ok (framed record)

theorem length_segmentBytes (header : SegmentHeader) (records : List MinuteRecord) :
    (segmentBytes header records).length = segmentHeaderSize + (records.flatMap framed).length := by
  rw [segmentBytes, List.length_append, length_encodeSegmentHeader]

theorem segmentReads_segmentBytes (hrecords : Storable limits header records)
    (hfits : (segmentBytes header records).length ≤ limits.maxSegmentBytes) :
    SegmentReads limits header.hourStartMs (segmentBytes header records) records [] := by
  induction records using List.reverseRecOn with
  | nil =>
    rw [segmentBytes, List.flatMap_nil, List.append_nil] at hfits ⊢
    rw [length_encodeSegmentHeader] at hfits
    exact .fresh hfits header.sequence
  | append_singleton records record ih =>
    have hmore : segmentBytes header (records ++ [record]) =
        segmentBytes header records ++ framed record := by
      rw [segmentBytes, List.flatMap_append, List.flatMap_singleton, ← List.append_assoc,
        ← segmentBytes]
    rw [hmore, List.length_append] at hfits
    obtain ⟨hhour, hframe⟩ := hrecords record (List.mem_append_right _ List.mem_cons_self)
    have hcut := cut_framed hframe
    rw [hhour] at hcut
    rw [hmore]
    exact (ih (fun r hr => hrecords r (List.mem_append_left _ hr)) (by omega)).append hfits hcut

/-- Of a segment that is cut, the whole records are read, and what is behind them is torn. -/
theorem segmentReads_cut (hrecords : Storable limits header records)
    (hfits : (segmentBytes header records).length ≤ limits.maxSegmentBytes) {n : Nat}
    (hheader : segmentHeaderSize ≤ n) (hn : n ≤ (segmentBytes header records).length) :
    ∃ i torn, i ≤ records.length ∧
      (segmentBytes header records).take n = segmentBytes header (records.take i) ++ torn ∧
      SegmentReads limits header.hourStartMs ((segmentBytes header records).take n)
        (records.take i) torn ∧
      (i < records.length → n < (segmentBytes header (records.take (i + 1))).length) := by
  have hlength := length_segmentBytes header records
  obtain ⟨i, part, hi, htake, hpart⟩ :=
    @take_flatMap _ _ framed records (n - segmentHeaderSize) (by omega)
  have hbytes : (segmentBytes header records).take n =
      segmentBytes header (records.take i) ++ part := by
    rw [segmentBytes, List.take_append, length_encodeSegmentHeader, htake,
      List.take_of_length_le (by rw [length_encodeSegmentHeader]; exact hheader),
      segmentBytes, List.append_assoc]
  have htaken := congrArg List.length hbytes
  rw [List.length_take, List.length_append, Nat.min_eq_left hn] at htaken
  have hless : (segmentBytes header (records.take i)).length + part.length ≤
      limits.maxSegmentBytes := by omega
  have hwhole : SegmentReads limits header.hourStartMs (segmentBytes header (records.take i))
      (records.take i) [] :=
    segmentReads_segmentBytes (fun r hr => hrecords r (List.mem_of_mem_take hr)) (by omega)
  refine ⟨i, part, hi, hbytes, ?_, fun hlt => ?_⟩
  · rw [hbytes]
    rcases hpart with ⟨-, rfl⟩ | ⟨record, hrecord, k, hk, rfl⟩
    · rw [List.append_nil]
      exact hwhole
    · obtain ⟨hhour, hframe⟩ := hrecords record (List.mem_of_getElem? hrecord)
      have hcut := cut_framed_take hframe hk
      rw [hhour] at hcut
      have hread := hwhole.append hless hcut
      rw [List.append_nil] at hread
      exact hread
  · rcases hpart with ⟨hlast, -⟩ | ⟨record, hrecord, k, hk, rfl⟩
    · omega
    · rw [List.take_add_one, hrecord, length_segmentBytes, List.flatMap_append, List.length_append]
      rw [length_segmentBytes, List.length_take] at htaken
      simp only [Option.toList_some, List.flatMap_singleton]
      omega

/-- `read_segment` reads the whole records of a file and cuts off what is behind them. -/
theorem repairSegment_cut (hrecords : Storable limits header records)
    (hfits : (segmentBytes header records).length ≤ limits.maxSegmentBytes) {n : Nat}
    (hheader : segmentHeaderSize ≤ n) (hn : n ≤ (segmentBytes header records).length)
    {m : MetricsState} {path : Nat}
    (hfile : m.segments[path]? = some ((segmentBytes header records).take n)) :
    ∃ i ≤ records.length,
      (i < records.length → n < (segmentBytes header (records.take (i + 1))).length) ∧
      (segmentBytes header (records.take i)).length ≤ n ∧
      ∃ m', repairSegment limits path m = (.ok (records.take i,
          (segmentBytes header (records.take i)).length ≠ n), m') ∧
        m' = { m with segments := m'.segments } ∧
        ∀ other : Nat, m'.segments[other]? =
          if path = other then some (segmentBytes header (records.take i))
          else m.segments[other]? := by
  obtain ⟨i, torn, hi, hbytes, hreads, hmost⟩ := segmentReads_cut hrecords hfits hheader hn
  have hlength := congrArg List.length hbytes
  rw [List.length_take, List.length_append, Nat.min_eq_left hn] at hlength
  have hget : ∀ other : Nat, (m.segments.alter path fun c => c.map
      (·.take (((segmentBytes header records).take n).length - torn.length)))[other]? =
        if path = other then some (segmentBytes header (records.take i))
        else m.segments[other]? := by
    intro other
    rw [NatMap.get_alter, hfile, hbytes, List.length_append, Nat.add_sub_cancel, Option.map_some,
      List.take_left]
  refine ⟨i, hi, hmost, by omega, { m with segments := _ }, ?_, rfl, hget⟩
  have hflag : decide (torn.length ≠ 0) =
      decide ((segmentBytes header (records.take i)).length ≠ n) := by
    rw [decide_eq_decide]
    omega
  rw [repairSegment_apply, hfile]
  dsimp only
  rw [hreads.readSegment]
  dsimp only
  rw [hflag]
  rfl

end segment

/-- Records and segment headers have one encoding each, which nothing shorter or longer is taken
for; a count of sessions is only believed when there are the bytes for it; and of a segment that
is cut behind its header, the whole records are read and are all that stays in the file. -/
theorem formats_canonical (limits : StorageLimits) :
    (∀ record payload, encodeMinute record = .ok payload → decodeMinute payload = .ok record) ∧
    (∀ payload record, decodeMinute payload = .ok record →
      encodeMinute record = .ok payload ∧
      (∀ front missing, front ++ missing = payload → missing ≠ [] →
        decodeMinute front = .error .truncated) ∧
      ∀ more, more ≠ [] → decodeMinute (payload ++ more) = .error .trailing) ∧
    (FieldReader.minute = do
      let (timestampMs, completeness, daemon, count) ← FieldReader.minuteHead
      return { timestampMs, completeness, daemon, sessions := ← FieldReader.sessions count [] }) ∧
    (∀ payload head left, FieldReader.minuteHead payload = .ok (head, left) →
      left <:+ payload ∧ head.2.2.2 * sessionPointSize ≤ left.length) ∧
    (∀ header, decodeSegmentHeader (encodeSegmentHeader header) = .ok header) ∧
    (∀ payload header, decodeSegmentHeader payload = .ok header →
      encodeSegmentHeader header = payload ∧
      (∀ front missing, front ++ missing = payload → missing ≠ [] →
        decodeSegmentHeader front = .error .truncated) ∧
      ∀ more, more ≠ [] → decodeSegmentHeader (payload ++ more) = .error .trailing) ∧
    ∀ header records, Storable limits header records →
      (segmentBytes header records).length ≤ limits.maxSegmentBytes →
      readSegment limits (segmentBytes header records) = .ok (records, 0) ∧
      ∀ n, segmentHeaderSize ≤ n → n ≤ (segmentBytes header records).length →
      ∀ (m : MetricsState) (path : Nat),
        m.segments[path]? = some ((segmentBytes header records).take n) →
        ∃ i ≤ records.length,
          (i < records.length → n < (segmentBytes header (records.take (i + 1))).length) ∧
          (segmentBytes header (records.take i)).length ≤ n ∧
          ∃ m', repairSegment limits path m = (.ok (records.take i,
              (segmentBytes header (records.take i)).length ≠ n), m') ∧
            m' = { m with segments := m'.segments } ∧
            ∀ other : Nat, m'.segments[other]? =
              if path = other then some (segmentBytes header (records.take i))
              else m.segments[other]? := by
  refine ⟨fun record payload h => ?_, fun payload record h => ⟨?_, fun front missing => ?_,
    fun more => decodeMinute_more h⟩, FieldReader.minute_eq,
    fun payload head left => FieldReader.count_of_minuteHead,
    decodeSegmentHeader_encodeSegmentHeader, fun payload header h => ?_,
    fun header records hrecords hfits => ⟨?_, fun n hheader hn m path =>
      repairSegment_cut hrecords hfits hheader hn⟩⟩
  · obtain ⟨hencodable, rfl⟩ := encodeMinute_eq_ok.mp h
    exact decodeMinute_minutePayload hencodable
  · exact encodeMinute_eq_ok.mpr (decodeMinute_eq_ok.mp h)
  · exact decodeMinute_part h
  · have hpayload := decodeSegmentHeader_eq_ok.mp h
    have hlength := congrArg List.length hpayload
    rw [length_encodeSegmentHeader] at hlength
    refine ⟨hpayload.symm, fun front missing hsplit hmissing => ?_, fun more hmore => ?_⟩
    · have hpos := List.length_pos_of_ne_nil hmissing
      rw [← hsplit, List.length_append] at hlength
      exact decodeSegmentHeader_part (by omega)
    · have hpos := List.length_pos_of_ne_nil hmore
      refine decodeSegmentHeader_more ?_
      rw [List.length_append]
      omega
  · exact (segmentReads_segmentBytes hrecords hfits).readSegment

/-- A minute in which nothing happened. -/
def idleMinute : MinuteRecord where
  timestampMs := 3600000
  completeness := .complete
  daemon := {
    timestampMs := 3600000
    cpuAvgMilliPercent := 0
    cpuPeakMilliPercent := 0
    rssAvgKib := 1
    rssPeakKib := 1
    readBytes := 0
    writeBytes := 0
    processCountPeak := 1
    sessionCount := 0
    runtimeCount := 0
    activeWriterCount := 0
    readonlyClientCount := 0 }
  sessions := []

theorem idleMinute_canonical : readSegment {} (segmentBytes ⟨3600000, 0⟩ [idleMinute]) =
    .ok ([idleMinute], 0) := by
  have hencodable : Encodable idleMinute := ⟨by decide, by decide, by decide⟩
  have hstorable : Storable {} ⟨3600000, 0⟩ [idleMinute] := by
    intro record hrecord
    rw [List.mem_singleton.mp hrecord]
    exact ⟨rfl, frameRecord_eq_ok.mpr ⟨hencodable, by decide, by decide, rfl⟩⟩
  obtain ⟨-, -, -, -, -, -, hsegments⟩ := formats_canonical {}
  exact (hsegments _ _ hstorable (by decide)).1

end Metric
end PersistShell

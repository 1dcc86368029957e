import PersistShell.Dashboard.MinuteRecords

/-! Trends of the last day, from the minute records on the disk: the points of the records are
gathered in buckets of time, as the samples in memory are, and joined to one point a bucket. -/

namespace PersistShell
namespace Dashboard

structure DashboardTrendResponse where
  sampledAtMs : UInt64
  completeness : Completeness
  points : List TrendPoint
  deriving DecidableEq, Repr

/-- `DAY_MS`. -/
def dayMs : Nat := 24 * 60 * 60 * 1000

def selectPoint (record : MinuteRecord) : TrendScope → Option (TrendPoint × Completeness)
  | .daemon => some (record.daemon, record.completeness)
  | .session sessionId =>
    (record.sessions.find? (·.sessionId = sessionId)).map fun session =>
      (session.point, session.completeness)

/-- The `Accumulator` of points. Its count has room for every record that fits in memory. -/
structure PointAccumulator where
  timestampMs : UInt64 := 0
  cpuSum : Nat := 0
  rssSum : Nat := 0
  count : Nat := 0
  cpuPeak : UInt32 := 0
  rssPeak : UInt64 := 0
  readBytes : Nat := 0
  writeBytes : Nat := 0
  processCountPeak : UInt32 := 0
  sessionCount : UInt32 := 0
  runtimeCount : UInt32 := 0
  activeWriterCount : UInt32 := 0
  readonlyClientCount : UInt32 := 0

namespace PointAccumulator

def add (acc : PointAccumulator) (point : TrendPoint) : PointAccumulator where
  timestampMs := point.timestampMs
  cpuSum := saturatingAdd128 acc.cpuSum point.cpuAvgMilliPercent.toNat
  rssSum := saturatingAdd128 acc.rssSum point.rssAvgKib.toNat
  count := acc.count + 1
  cpuPeak := max acc.cpuPeak point.cpuPeakMilliPercent
  rssPeak := max acc.rssPeak point.rssPeakKib
  readBytes := saturatingAdd128 acc.readBytes point.readBytes.toNat
  writeBytes := saturatingAdd128 acc.writeBytes point.writeBytes.toNat
  processCountPeak := max acc.processCountPeak point.processCountPeak
  sessionCount := max acc.sessionCount point.sessionCount
  runtimeCount := max acc.runtimeCount point.runtimeCount
  activeWriterCount := max acc.activeWriterCount point.activeWriterCount
  readonlyClientCount := max acc.readonlyClientCount point.readonlyClientCount

def finish (acc : PointAccumulator) : TrendPoint where
  timestampMs := acc.timestampMs
  cpuAvgMilliPercent := averageU32 acc.cpuSum acc.count
  cpuPeakMilliPercent := acc.cpuPeak
  rssAvgKib := averageU64 acc.rssSum acc.count
  rssPeakKib := acc.rssPeak
  readBytes := saturatingU64 acc.readBytes
  writeBytes := saturatingU64 acc.writeBytes
  processCountPeak := acc.processCountPeak
  sessionCount := acc.sessionCount
  runtimeCount := acc.runtimeCount
  activeWriterCount := acc.activeWriterCount
  readonlyClientCount := acc.readonlyClientCount

end PointAccumulator

/-- A record of the window, and what it says of the scope. -/
abbrev Selected := MinuteRecord × TrendPoint × Completeness

section aggregate

variable (records : List MinuteRecord) (scope : TrendScope) (nowMs : UInt64) (maxPoints : Nat)

def diskEnd : UInt64 :=
  (records.getLast?.map fun record => max nowMs record.timestampMs).getD nowMs

/-- `end_ms.saturating_sub(DAY_MS)`. -/
def diskStart : UInt64 := UInt64.ofNat ((diskEnd records nowMs).toNat - dayMs)

/-- The records of the window that have a point of the scope. -/
def selectedRecords : List Selected :=
  (records.filter fun record => diskStart records nowMs < record.timestampMs ∧
    record.timestampMs ≤ diskEnd records nowMs).filterMap fun record =>
      (selectPoint record scope).map fun selected => (record, selected)

/-- `DAY_MS.div_ceil(max_points).max(1)`. -/
def diskWidth : Nat := Buckets.width dayMs maxPoints

def diskIndex (item : Selected) : Nat :=
  Buckets.slot (diskStart records nowMs).toNat (diskWidth maxPoints) maxPoints
    item.1.timestampMs.toNat

def addSelected (acc : PointAccumulator) (item : Selected) : PointAccumulator := acc.add item.2.1

def isPartialRecord (item : Selected) : Bool :=
  item.1.completeness ≠ .complete || item.2.2 ≠ .complete

def aggregateDiskTrend (skippedSegments : Bool) : DashboardTrendResponse :=
  let selected := selectedRecords records scope nowMs
  let buckets := Buckets.collect (diskIndex records nowMs maxPoints) addSelected {}
    (List.replicate maxPoints none) selected
  let points := (buckets.filterMap id).map PointAccumulator.finish
  { sampledAtMs := (records.getLast?.map (·.timestampMs)).getD 0
    completeness :=
      if points = [] then .unavailable
      else if skippedSegments || selected.any isPartialRecord then .partial_ else .complete
    points }

end aggregate

/-- What the point of a bucket says of the points of the records in it. -/
structure Joins (joined : List TrendPoint) (point : TrendPoint) : Prop where
  read : point.readBytes.toNat = min (joined.map (·.readBytes.toNat)).sum (2 ^ 64 - 1)
  write : point.writeBytes.toNat = min (joined.map (·.writeBytes.toNat)).sum (2 ^ 64 - 1)
  cpuAverage : (∀ p ∈ joined, p.cpuAvgMilliPercent ≤ p.cpuPeakMilliPercent) →
    point.cpuAvgMilliPercent ≤ point.cpuPeakMilliPercent
  rssAverage : (∀ p ∈ joined, p.rssAvgKib ≤ p.rssPeakKib) → point.rssAvgKib ≤ point.rssPeakKib
  cpuPeak : Summary.Peak (·.cpuPeakMilliPercent.toNat) joined point.cpuPeakMilliPercent.toNat
  rssPeak : Summary.Peak (·.rssPeakKib.toNat) joined point.rssPeakKib.toNat
  processPeak : Summary.Peak (·.processCountPeak.toNat) joined point.processCountPeak.toNat

section tally

/-- What an accumulator knows of the points that were added to it. -/
structure PointTally (points : List TrendPoint) (acc : PointAccumulator) : Prop where
  cpuSum : acc.cpuSum = min (points.map (·.cpuAvgMilliPercent.toNat)).sum (2 ^ 128 - 1)
  rssSum : acc.rssSum = min (points.map (·.rssAvgKib.toNat)).sum (2 ^ 128 - 1)
  count : acc.count = points.length
  cpuPeak : Summary.Peak (·.cpuPeakMilliPercent.toNat) points acc.cpuPeak.toNat
  rssPeak : Summary.Peak (·.rssPeakKib.toNat) points acc.rssPeak.toNat
  read : acc.readBytes = min (points.map (·.readBytes.toNat)).sum (2 ^ 128 - 1)
  write : acc.writeBytes = min (points.map (·.writeBytes.toNat)).sum (2 ^ 128 - 1)
  processPeak : Summary.Peak (·.processCountPeak.toNat) points acc.processCountPeak.toNat

variable {points : List TrendPoint} {acc : PointAccumulator}

theorem PointTally.nil : PointTally [] {} where
  cpuSum := rfl
  rssSum := rfl
  count := rfl
  cpuPeak := .nil _
  rssPeak := .nil _
  read := rfl
  write := rfl
  processPeak := .nil _

theorem PointTally.add (h : PointTally points acc) (point : TrendPoint) :
    PointTally (points ++ [point]) (acc.add point) where
  cpuSum := Summary.saturating_append h.cpuSum
  rssSum := Summary.saturating_append h.rssSum
  count := by
    rw [List.length_append, ← h.count]
    rfl
  cpuPeak := by
    have hmore := h.cpuPeak.append point
    rw [← toNat_max32] at hmore
    exact hmore
  rssPeak := by
    have hmore := h.rssPeak.append point
    rw [← toNat_max64] at hmore
    exact hmore
  read := Summary.saturating_append h.read
  write := Summary.saturating_append h.write
  processPeak := by
    have hmore := h.processPeak.append point
    rw [← toNat_max32] at hmore
    exact hmore

theorem pointTally_foldl (items : List Selected) :
    PointTally (items.map (·.2.1)) (items.foldl addSelected {}) := by
  induction items using List.reverseRecOn with
  | nil => exact .nil
  | append_singleton items item ih =>
    rw [List.map_append, List.foldl_append]
    exact ih.add item.2.1

/-- A stopped sum of averages is no more than the largest peak, as many times as there are
points. -/
theorem averages_le {average peak : TrendPoint → Nat} {sum largest : Nat}
    (hsum : sum = min (points.map average).sum (2 ^ 128 - 1))
    (hpeak : Summary.Peak peak points largest) (hless : ∀ p ∈ points, average p ≤ peak p) :
    sum ≤ points.length * largest := by
  have hpeaks : (points.map average).sum ≤ (points.map peak).sum := List.sum_le_sum hless
  have hlargest := hpeak.sum_le
  omega

theorem PointTally.joins (h : PointTally points acc) : Joins points acc.finish where
  read := saturatingU64_of_sum h.read
  write := saturatingU64_of_sum h.write
  cpuAverage := by
    intro hless
    refine averageU32_le ?_
    rw [h.count]
    exact averages_le h.cpuSum h.cpuPeak fun p hp => UInt32.le_iff_toNat_le.mp (hless p hp)
  rssAverage := by
    intro hless
    refine averageU64_le ?_
    rw [h.count]
    exact averages_le h.rssSum h.rssPeak fun p hp => UInt64.le_iff_toNat_le.mp (hless p hp)
  cpuPeak := h.cpuPeak
  rssPeak := h.rssPeak
  processPeak := h.processPeak

end tally

section partition

/-- How the records of a window are made to points, as `Aggregates` says it of frames. -/
structure DiskAggregates (startMs width maxPoints : Nat) (selected : List Selected)
    (groups : List (List Selected)) (points : List TrendPoint) : Prop where
  divisor : 0 < width
  index : ∀ item ∈ selected,
    Buckets.slot startMs width maxPoints item.1.timestampMs.toNat < maxPoints
  cut : Buckets.Cut (·.1.timestampMs.toNat) startMs width maxPoints selected groups
  made : List.Forall₂ (fun group point => Joins (group.map (·.2.1)) point)
    (groups.filter (!·.isEmpty)) points
  few : points.length ≤ maxPoints
  read : (selected.map (·.2.1.readBytes.toNat)).sum < 2 ^ 64 →
    (points.map (·.readBytes.toNat)).sum = (selected.map (·.2.1.readBytes.toNat)).sum
  write : (selected.map (·.2.1.writeBytes.toNat)).sum < 2 ^ 64 →
    (points.map (·.writeBytes.toNat)).sum = (selected.map (·.2.1.writeBytes.toNat)).sum

variable {records : List MinuteRecord} {scope : TrendScope} {nowMs : UInt64} {maxPoints : Nat}
  {skippedSegments : Bool}

theorem mem_selectedRecords {item : Selected} :
    item ∈ selectedRecords records scope nowMs ↔
      item.1 ∈ records ∧ diskStart records nowMs < item.1.timestampMs ∧
        item.1.timestampMs ≤ diskEnd records nowMs ∧
        selectPoint item.1 scope = some item.2 := by
  obtain ⟨record, selected⟩ := item
  simp only [selectedRecords, List.mem_filterMap, List.mem_filter, decide_eq_true_eq,
    Option.map_eq_some_iff, Prod.mk.injEq]
  constructor
  · rintro ⟨_, ⟨hmem, hstart, hend⟩, _, hselect, rfl, rfl⟩
    exact ⟨hmem, hstart, hend, hselect⟩
  · rintro ⟨hmem, hstart, hend, hselect⟩
    exact ⟨record, ⟨hmem, hstart, hend⟩, selected, hselect, rfl, rfl⟩

theorem points_aggregateDiskTrend :
    (aggregateDiskTrend records scope nowMs maxPoints skippedSegments).points =
      ((Buckets.groups (diskIndex records nowMs maxPoints) maxPoints
        (selectedRecords records scope nowMs)).filter (!·.isEmpty)).map
          fun group => (group.foldl addSelected {}).finish := by
  rw [aggregateDiskTrend]
  dsimp only
  rw [Buckets.collect_replicate, Buckets.filterMap_gather, List.map_map]
  rfl

/-- The window is a day, or less where time has not come so far. -/
theorem inside_diskWindow {item : Selected} (h : item ∈ selectedRecords records scope nowMs) :
    (diskStart records nowMs).toNat < item.1.timestampMs.toNat ∧
      item.1.timestampMs.toNat ≤ (diskStart records nowMs).toNat + dayMs := by
  obtain ⟨-, hstart, hend, -⟩ := mem_selectedRecords.mp h
  have hstart' := UInt64.lt_iff_toNat_lt.mp hstart
  have hend' := UInt64.le_iff_toNat_le.mp hend
  have hless : (diskEnd records nowMs).toNat - dayMs < 2 ^ 64 :=
    Nat.lt_of_le_of_lt (Nat.sub_le _ _) (UInt64.toNat_lt _)
  have hvalue : (diskStart records nowMs).toNat = (diskEnd records nowMs).toNat - dayMs :=
    UInt64.toNat_ofNat_of_lt' hless
  omega

/-- The records of the last day are partitioned into buckets. -/
theorem aggregateDiskTrend_aggregates (hpoints : 0 < maxPoints) :
    DiskAggregates (diskStart records nowMs).toNat (diskWidth maxPoints) maxPoints
      (selectedRecords records scope nowMs)
      (Buckets.groups (diskIndex records nowMs maxPoints) maxPoints
        (selectedRecords records scope nowMs))
      (aggregateDiskTrend records scope nowMs maxPoints skippedSegments).points := by
  have hwidth : 0 < diskWidth maxPoints := Buckets.width_pos _ _
  have hcut : Buckets.Cut (fun item : Selected => item.1.timestampMs.toNat)
      (diskStart records nowMs).toNat (diskWidth maxPoints) maxPoints
      (selectedRecords records scope nowMs)
      (Buckets.groups (diskIndex records nowMs maxPoints) maxPoints
        (selectedRecords records scope nowMs)) :=
    Buckets.cut_groups hpoints hwidth (Buckets.span_le hpoints) fun _ => inside_diskWindow
  have hmade : List.Forall₂ (fun group point => Joins (group.map (·.2.1)) point)
      ((Buckets.groups (diskIndex records nowMs maxPoints) maxPoints
        (selectedRecords records scope nowMs)).filter (!·.isEmpty))
      (aggregateDiskTrend records scope nowMs maxPoints skippedSegments).points := by
    rw [points_aggregateDiskTrend, List.forall₂_map_right_iff, List.forall₂_same]
    exact fun group _ => (pointTally_foldl group).joins
  refine ⟨hwidth, fun item _ => Buckets.slot_lt hpoints, hcut, hmade, ?_, fun hfits => ?_,
    fun hfits => ?_⟩
  · rw [← hmade.length_eq]
    exact (List.length_filter_le _ _).trans hcut.count.le
  · refine Buckets.sum_groups (fun group point h => ?_) hmade hcut.whole (Nat.le_pred_of_lt hfits)
    rw [h.read, List.map_map]
    rfl
  · refine Buckets.sum_groups (fun group point h => ?_) hmade hcut.whole (Nat.le_pred_of_lt hfits)
    rw [h.write, List.map_map]
    rfl

end partition

section worker

/-- Where there are no rates, there is no CPU. -/
def CpuOnlyWithRates (frame : DerivedSample) : Prop :=
  (frame.daemon.metrics.ratesAvailable = false → frame.daemon.metrics.cpuMilliPercent = 0) ∧
    ∀ session ∈ frame.sessions, session.metrics.ratesAvailable = false →
      session.metrics.cpuMilliPercent = 0

/-- What a record says of a scope is no more in the mean than at its peak. -/
def Averaged (record : MinuteRecord) : Prop :=
  ∀ scope, ∀ selected ∈ selectPoint record scope,
    selected.1.cpuAvgMilliPercent ≤ selected.1.cpuPeakMilliPercent ∧
      selected.1.rssAvgKib ≤ selected.1.rssPeakKib

variable {layout : HistoryLayout} {initial history : BoundedHistory} {frame : DerivedSample}
  {record : MinuteRecord} {scope : TrendScope} {startMs : UInt64}

theorem cpu_ratesSince (prior : Option RawCounters) (now : RawCounters)
    (elapsedMs : Option UInt64) (ticksPerSecond : UInt64) :
    (ratesSince prior now elapsedMs ticksPerSecond).available = false →
      (ratesSince prior now elapsedMs ticksPerSecond).cpuMilliPercent = 0 := by
  intro hnone
  unfold ratesSince at hnone ⊢
  cases hrates : (do calculateRates (← prior) now (← elapsedMs) ticksPerSecond) with
  | none => rfl
  | some rates =>
    rw [hrates, Option.getD_some] at hnone
    obtain ⟨counters, -, hrates⟩ := Option.bind_eq_some_iff.mp hrates
    obtain ⟨elapsed, -, hrates⟩ := Option.bind_eq_some_iff.mp hrates
    unfold calculateRates at hrates
    split at hrates
    · cases hrates
    · obtain ⟨_, -, hrates⟩ := Option.bind_eq_some_iff.mp hrates
      obtain ⟨_, -, hrates⟩ := Option.bind_eq_some_iff.mp hrates
      obtain ⟨_, -, hrates⟩ := Option.bind_eq_some_iff.mp hrates
      obtain ⟨_, -, hrates⟩ := Option.bind_eq_some_iff.mp hrates
      rw [← Option.some.inj hrates] at hnone
      cases hnone

theorem cpuOnlyWithRates_deriveSample (previous : Option RawSample) (current : RawSample) :
    CpuOnlyWithRates (deriveSample previous current) := by
  refine ⟨cpu_ratesSince _ _ _ _, fun session hsession => ?_⟩
  obtain ⟨raw, -, rfl⟩ := List.mem_map.mp hsession
  exact cpu_ratesSince _ _ _ _

/-- The rates of a frame without rates are none, so that its CPU is no less than a peak of
nothing. -/
theorem cpu_of_unrated (h : CpuOnlyWithRates frame) {metric : TrendMetric}
    (hmetric : metricFor frame scope = some metric) (hnone : metric.ratesAvailable = false) :
    metric.cpuMilliPercent = 0 := by
  cases scope with
  | daemon =>
    rw [← Option.some.inj hmetric] at hnone ⊢
    exact h.1 hnone
  | session sessionId =>
    obtain ⟨session, hfind, rfl⟩ := Option.map_eq_some_iff.mp hmetric
    exact h.2 session (List.mem_of_find?_eq_some hfind) hnone

theorem averaged_buildMinuteRecord (h : buildMinuteRecord history startMs = some record) :
    Averaged record := by
  intro scope selected hselected
  have hpoints := (@pointsOf_of_buildMinuteRecord history startMs scope record h).2
  have hpoint : selected.1 ∈ pointsOf scope record := by
    cases scope with
    | daemon =>
      rw [← Option.some.inj hselected]
      exact List.mem_singleton_self _
    | session sessionId =>
      obtain ⟨session, hfind, rfl⟩ := Option.map_eq_some_iff.mp hselected
      have hid := List.find?_some hfind
      exact List.mem_map.mpr ⟨session, List.mem_filter.mpr
        ⟨List.mem_of_find?_eq_some hfind, hid⟩, rfl⟩
  exact ⟨(hpoints _ hpoint).cpuAverage, (hpoints _ hpoint).rssAverage⟩

theorem CpuOnlyWithRates.kept {pushed : DerivedSample} (h : CpuOnlyWithRates pushed)
    (hkept : Kept pushed frame) : CpuOnlyWithRates frame := by
  refine ⟨?_, fun session hsession => h.2 session ?_⟩
  · rw [hkept.daemon]
    exact h.1
  · rcases hkept.sessions with ⟨hperm, -⟩ | ⟨cut, -, hperm, -⟩
    · exact hperm.subset hsession
    · exact hperm.subset (List.mem_append_left cut hsession)

/-- What the worker has in its history, and what it hands to the writer. -/
theorem worker_run (hempty : initial.frames = []) (samples : List RawSample) :
    (∀ frame ∈ (runWorker layout initial samples).history.frames, CpuOnlyWithRates frame) ∧
      ∀ record ∈ (runWorker layout initial samples).records, Averaged record := by
  induction samples using List.reverseRecOn with
  | nil =>
    refine ⟨fun frame hframe => ?_, fun record hrecord => (by cases hrecord)⟩
    rw [runWorker, List.foldl_nil, hempty] at hframe
    cases hframe
  | append_singleton samples raw ih =>
    refine ⟨fun frame hframe => ?_, fun record hrecord => ?_⟩
    · rw [history_runWorker] at hframe
      obtain ⟨kept, hkept, hpush⟩ := @push_suffix layout
        (runWorker layout initial samples).history (deriveSample samples.getLast? raw)
      rcases List.mem_append.mp (hpush.subset hframe) with hold | hnew
      · exact ih.1 frame (hkept.subset hold)
      · rw [List.mem_singleton.mp hnew]
        exact (cpuOnlyWithRates_deriveSample _ _).kept kept_limitSample
    · rw [runWorker_append, takeSample] at hrecord
      rcases List.mem_append.mp hrecord with hold | hnew
      · exact ih.2 record hold
      · have hmade := Option.mem_toList.mp hnew
        unfold completedMinute at hmade
        split at hmade
        · cases hmade
        · split at hmade
          · cases hmade
          · exact averaged_buildMinuteRecord hmade

end worker

section trends

variable {records : List MinuteRecord} {frames : List DerivedSample} {scope : TrendScope}
  {startMs endMs nowMs : UInt64} {maxPoints : Nat} {skippedSegments : Bool}

/-- A frame of the bucket is at the peak, also without rates. -/
theorem cpuPeak_attained {group : List Counted} {point : TrendPoint} (hne : group ≠ [])
    (hpoint : Summarizes (group.map Prod.snd) point)
    (hquiet : ∀ item ∈ group, item.2.ratesAvailable = false → item.2.cpuMilliPercent = 0) :
    ∃ item ∈ group, item.2.cpuMilliPercent = point.cpuPeakMilliPercent := by
  rcases hpoint.cpuPeak.attained with ⟨hnone, hzero⟩ | ⟨metric, hmetric, heq⟩
  · obtain ⟨item, hitem⟩ := List.exists_mem_of_ne_nil group hne
    have hunrated : item.2.ratesAvailable = false := by
      by_contra hrates
      have hmem : item.2 ∈ rated (group.map Prod.snd) := List.mem_filter.mpr
        ⟨List.mem_map_of_mem hitem, Bool.eq_true_of_not_eq_false hrates⟩
      rw [hnone] at hmem
      cases hmem
    refine ⟨item, hitem, UInt32.toNat_inj.mp ?_⟩
    rw [hzero, hquiet item hitem hunrated]
    rfl
  · obtain ⟨item, hitem, rfl⟩ := List.mem_map.mp (List.mem_filter.mp hmetric).1
    exact ⟨item, hitem, UInt32.toNat_inj.mp heq⟩

/-- Trends are partitions of the frames in memory and of the records on the disk. A peak is
attained and a mean is below it, where the CPU is only read with rates and the records are
averaged, as in every run of the worker. -/
theorem trends_partition {frames : List DerivedSample} (hpoints : 0 < maxPoints)
    (hwindow : startMs ≤ endMs) :
    let counted := countedFrames (·.monotonicMs) frames scope startMs endMs
    let groups := Buckets.groups (bucketIndex (·.monotonicMs) startMs endMs maxPoints) maxPoints
      counted
    let points := (aggregate frames scope startMs endMs maxPoints).points
    let selected := selectedRecords records scope nowMs
    let diskGroups := Buckets.groups (diskIndex records nowMs maxPoints) maxPoints selected
    let diskPoints := (aggregateDiskTrend records scope nowMs maxPoints skippedSegments).points
    (∀ item, item ∈ counted ↔ item.1 ∈ frames ∧ startMs < item.1.monotonicMs ∧
      item.1.monotonicMs ≤ endMs ∧ metricFor item.1 scope = some item.2) ∧
    Aggregates (·.1.monotonicMs.toNat) startMs.toNat (bucketWidth startMs endMs maxPoints)
      maxPoints counted groups points ∧
    ((∀ frame ∈ frames, CpuOnlyWithRates frame) →
      List.Forall₂ (fun group point =>
        ∃ item ∈ group, item.2.cpuMilliPercent = point.cpuPeakMilliPercent)
        (groups.filter (!·.isEmpty)) points) ∧
    (∀ item, item ∈ selected ↔ item.1 ∈ records ∧ diskStart records nowMs < item.1.timestampMs ∧
      item.1.timestampMs ≤ diskEnd records nowMs ∧ selectPoint item.1 scope = some item.2) ∧
    DiskAggregates (diskStart records nowMs).toNat (diskWidth maxPoints) maxPoints selected
      diskGroups diskPoints ∧
    ((∀ record ∈ records, Averaged record) → ∀ point ∈ diskPoints,
      point.cpuAvgMilliPercent ≤ point.cpuPeakMilliPercent ∧
        point.rssAvgKib ≤ point.rssPeakKib) ∧
    ∀ layout initial, initial.frames = [] → ∀ samples,
      (∀ frame ∈ (runWorker layout initial samples).history.frames, CpuOnlyWithRates frame) ∧
        ∀ record ∈ (runWorker layout initial samples).records, Averaged record := by
  intro counted groups points selected diskGroups diskPoints
  have hframes : Aggregates (·.1.monotonicMs.toNat) startMs.toNat
      (bucketWidth startMs endMs maxPoints) maxPoints counted groups points :=
    aggregateBy_aggregates hpoints hwindow
  have hdisk : DiskAggregates (diskStart records nowMs).toNat (diskWidth maxPoints) maxPoints
      selected diskGroups diskPoints := aggregateDiskTrend_aggregates hpoints
  refine ⟨fun item => mem_countedFrames, hframes, fun hquiet => ?_,
    fun item => mem_selectedRecords, hdisk, fun haveraged => ?_,
    fun _ _ hempty samples => worker_run hempty samples⟩
  · have hgroups : ∀ group ∈ groups, ∀ item ∈ group, item ∈ counted := fun group hgroup item hitem =>
      hframes.cut.whole.subset (List.mem_flatten.mpr ⟨group, hgroup, hitem⟩)
    refine List.forall₂_iff_zip.mpr ⟨hframes.made.length_eq, fun {group point} hpair => ?_⟩
    obtain ⟨hgroup, hne⟩ := List.mem_filter.mp (List.of_mem_zip hpair).1
    have hpoint := (List.forall₂_iff_zip.mp hframes.made).2 hpair
    refine cpuPeak_attained (fun hnil => ?_) hpoint fun item hitem hnone => ?_
    · rw [hnil] at hne
      cases hne
    · obtain ⟨hframe, -, -, hmetric⟩ := mem_countedFrames.mp (hgroups group hgroup item hitem)
      exact cpu_of_unrated (hquiet _ hframe) hmetric hnone
  · intro point hpoint
    obtain ⟨i, hi, rfl⟩ := List.getElem_of_mem hpoint
    have hlength := hdisk.made.length_eq
    have hjoins := List.Forall₂.get hdisk.made (hlength ▸ hi) hi
    have hmember : ∀ p ∈ ((diskGroups.filter (!·.isEmpty)).get ⟨i, hlength ▸ hi⟩).map (·.2.1),
        p.cpuAvgMilliPercent ≤ p.cpuPeakMilliPercent ∧ p.rssAvgKib ≤ p.rssPeakKib := by
      intro p hp
      obtain ⟨item, hitem, rfl⟩ := List.mem_map.mp hp
      have hgroup := (List.mem_filter.mp (List.get_mem (diskGroups.filter (!·.isEmpty))
        ⟨i, hlength ▸ hi⟩)).1
      have hselected := hdisk.cut.whole.subset (List.mem_flatten.mpr ⟨_, hgroup, hitem⟩)
      obtain ⟨hrecord, -, -, hselect⟩ := mem_selectedRecords.mp hselected
      exact haveraged _ hrecord scope item.2 hselect
    exact ⟨hjoins.cpuAverage fun p hp => (hmember p hp).1,
      hjoins.rssAverage fun p hp => (hmember p hp).2⟩

theorem idle_trends :
    (aggregate [idleFrame 1, idleFrame 2] .daemon 0 60000 2).points.length ≤ 2 ∧
      (aggregateDiskTrend [] .daemon 60000 2 false).points.length ≤ 2 := by
  obtain ⟨-, hframes, -, -, hdisk, -⟩ := @trends_partition [] .daemon 0 60000 60000 2 false
    [idleFrame 1, idleFrame 2] (by decide) (by decide)
  exact ⟨hframes.few, hdisk.few⟩

/-- A frame that says a CPU without rates. -/
def unratedFrame : DerivedSample :=
  { idleFrame 1 with daemon := derivedDaemon ⟨1, {}, 0, 0, 0, 0⟩ { cpuMilliPercent := 5 } }

def unaveragedRecord : MinuteRecord where
  timestampMs := 60000
  completeness := .complete
  daemon := {
    timestampMs := 60000
    cpuAvgMilliPercent := 5
    cpuPeakMilliPercent := 0
    rssAvgKib := 0
    rssPeakKib := 0
    readBytes := 0
    writeBytes := 0
    processCountPeak := 0
    sessionCount := 0
    runtimeCount := 0
    activeWriterCount := 0
    readonlyClientCount := 0 }
  sessions := []

/-- Of any frames, the peak need not be attained, and of any records, the mean may be above it. -/
theorem trends_of_any_input :
    (¬ ∀ (frames : List DerivedSample) scope startMs endMs maxPoints, 0 < maxPoints →
      startMs ≤ endMs → ∀ point ∈ (aggregate frames scope startMs endMs maxPoints).points,
        ∃ frame ∈ frames, ∃ metric, metricFor frame scope = some metric ∧
          metric.cpuMilliPercent = point.cpuPeakMilliPercent) ∧
    ¬ ∀ records scope nowMs maxPoints skippedSegments, 0 < maxPoints →
      ∀ point ∈ (aggregateDiskTrend records scope nowMs maxPoints skippedSegments).points,
        point.cpuAvgMilliPercent ≤ point.cpuPeakMilliPercent := by
  refine ⟨fun h => ?_, fun h => ?_⟩
  · have hpoint : ∃ point, (aggregate [unratedFrame] .daemon 0 60000 1).points = [point] ∧
        point.cpuPeakMilliPercent = 0 := ⟨_, rfl, rfl⟩
    obtain ⟨point, hpoints, hpeak⟩ := hpoint
    obtain ⟨frame, hframe, metric, hmetric, heq⟩ := h [unratedFrame] .daemon 0 60000 1 (by decide)
      (by decide) point (by rw [hpoints]; exact List.mem_singleton_self _)
    rw [List.mem_singleton.mp hframe] at hmetric
    rw [← Option.some.inj hmetric, hpeak] at heq
    exact absurd heq (by decide)
  · have hpoint : ∃ point, (aggregateDiskTrend [unaveragedRecord] .daemon 60000 1 false).points =
        [point] ∧ ¬ point.cpuAvgMilliPercent ≤ point.cpuPeakMilliPercent := ⟨_, rfl, by decide⟩
    obtain ⟨point, hpoints, hless⟩ := hpoint
    exact hless (h [unaveragedRecord] .daemon 60000 1 false (by decide) point
      (by rw [hpoints]; exact List.mem_singleton_self _))

end trends

end Dashboard
end PersistShell

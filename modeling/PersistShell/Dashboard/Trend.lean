import PersistShell.Dashboard.Model
import PersistShell.Program.Buckets
import PersistShell.Program.Summary

/-! Trends of the samples in memory: the frames of a window are gathered in buckets of time, and
a point is made of each bucket with a frame in it. -/

namespace PersistShell

inductive TrendScope where
  | daemon
  | session (sessionId : UInt32)
  deriving DecidableEq, Repr

namespace Dashboard

structure TrendSeries where
  completeness : Completeness
  points : List TrendPoint
  deriving DecidableEq, Repr

/-- `Metric`. -/
structure TrendMetric where
  complete : Bool
  ratesAvailable : Bool
  cpuMilliPercent : UInt32
  rssKib : UInt64
  readBytesDelta : UInt64
  writeBytesDelta : UInt64
  processCount : UInt32
  sessionCount : UInt32
  runtimeCount : UInt32
  activeWriterCount : UInt32
  readonlyClientCount : UInt32
  deriving DecidableEq, Repr

def sessionMetric (sessions : List DerivedSession) (sessionId : UInt32) : Option TrendMetric :=
  (sessions.find? (·.metrics.sessionId = sessionId)).map fun session => {
    complete := session.metrics.collectionStatus = .complete
    ratesAvailable := session.metrics.ratesAvailable
    cpuMilliPercent := session.metrics.cpuMilliPercent
    rssKib := session.metrics.rssKib
    readBytesDelta := session.readBytesDelta
    writeBytesDelta := session.writeBytesDelta
    processCount := session.metrics.processCount
    sessionCount := 0
    runtimeCount := 0
    activeWriterCount := 0
    readonlyClientCount := 0 }

def metricFor (sample : DerivedSample) : TrendScope → Option TrendMetric
  | .daemon => some {
      complete := true
      ratesAvailable := sample.daemon.metrics.ratesAvailable
      cpuMilliPercent := sample.daemon.metrics.cpuMilliPercent
      rssKib := sample.daemon.metrics.rssKib
      readBytesDelta := sample.daemon.readBytesDelta
      writeBytesDelta := sample.daemon.writeBytesDelta
      processCount := sample.daemon.processCount
      sessionCount := sample.daemon.metrics.sessionCount
      runtimeCount := sample.daemon.metrics.runtimeCount
      activeWriterCount := sample.daemon.metrics.activeWriterCount
      readonlyClientCount := sample.daemon.metrics.readonlyClientCount }
  | .session sessionId => sessionMetric sample.sessions sessionId

/-- The counts and the sums of the CPU and of the memory have room for every frame that fits in
memory. -/
structure Accumulator where
  timestampMs : UInt64 := 0
  cpuSum : Nat := 0
  cpuCount : Nat := 0
  cpuPeak : UInt32 := 0
  rssSum : Nat := 0
  rssCount : Nat := 0
  rssPeak : UInt64 := 0
  readBytes : Nat := 0
  writeBytes : Nat := 0
  processCountPeak : UInt32 := 0
  sessionCount : UInt32 := 0
  runtimeCount : UInt32 := 0
  activeWriterCount : UInt32 := 0
  readonlyClientCount : UInt32 := 0

/-- `saturating_add` of a `u128`. -/
def saturatingAdd128 (a b : Nat) : Nat := min (a + b) (2 ^ 128 - 1)

def averageU32 (sum count : Nat) : UInt32 :=
  if count = 0 then 0 else UInt32.ofNat (min (sum / count) (2 ^ 32 - 1))

def saturatingU64 (value : Nat) : UInt64 := UInt64.ofNat (min value (2 ^ 64 - 1))

def averageU64 (sum count : Nat) : UInt64 :=
  if count = 0 then 0 else saturatingU64 (sum / count)

namespace Accumulator

/-- The part of `add` for a metric with rates. -/
def addRates (acc : Accumulator) (metric : TrendMetric) : Accumulator :=
  { acc with
    cpuSum := acc.cpuSum + metric.cpuMilliPercent.toNat
    cpuCount := acc.cpuCount + 1
    cpuPeak := max acc.cpuPeak metric.cpuMilliPercent
    readBytes := saturatingAdd128 acc.readBytes metric.readBytesDelta.toNat
    writeBytes := saturatingAdd128 acc.writeBytes metric.writeBytesDelta.toNat }

/-- The part of `add` for every metric. -/
def addGauges (acc : Accumulator) (timestampMs : UInt64) (metric : TrendMetric) : Accumulator :=
  { acc with
    timestampMs
    rssSum := acc.rssSum + metric.rssKib.toNat
    rssCount := acc.rssCount + 1
    rssPeak := max acc.rssPeak metric.rssKib
    processCountPeak := max acc.processCountPeak metric.processCount
    sessionCount := max acc.sessionCount metric.sessionCount
    runtimeCount := max acc.runtimeCount metric.runtimeCount
    activeWriterCount := max acc.activeWriterCount metric.activeWriterCount
    readonlyClientCount := max acc.readonlyClientCount metric.readonlyClientCount }

def add (acc : Accumulator) (timestampMs : UInt64) (metric : TrendMetric) : Accumulator :=
  (if metric.ratesAvailable then acc.addRates metric else acc).addGauges timestampMs metric

def finish (acc : Accumulator) : TrendPoint where
  timestampMs := acc.timestampMs
  cpuAvgMilliPercent := averageU32 acc.cpuSum acc.cpuCount
  cpuPeakMilliPercent := acc.cpuPeak
  rssAvgKib := averageU64 acc.rssSum acc.rssCount
  rssPeakKib := acc.rssPeak
  readBytes := saturatingU64 acc.readBytes
  writeBytes := saturatingU64 acc.writeBytes
  processCountPeak := acc.processCountPeak
  sessionCount := acc.sessionCount
  runtimeCount := acc.runtimeCount
  activeWriterCount := acc.activeWriterCount
  readonlyClientCount := acc.readonlyClientCount

end Accumulator

/-- A frame of the window, and its metric. -/
abbrev Counted := DerivedSample × TrendMetric

section aggregate

variable (timestamp : DerivedSample → UInt64) (frames : List DerivedSample) (scope : TrendScope)
  (startMs endMs : UInt64) (maxPoints : Nat)

/-- The frames of the window that have the metric. -/
def countedFrames : List Counted :=
  (frames.filter fun sample => startMs < timestamp sample ∧ timestamp sample ≤ endMs).filterMap
    fun sample => (metricFor sample scope).map fun metric => (sample, metric)

/-- `end.saturating_sub(start).div_ceil(max_points).max(1)`. -/
def bucketWidth : Nat := Buckets.width (endMs.toNat - startMs.toNat) maxPoints

/-- `(elapsed / width).min(max_points - 1)`. -/
def bucketIndex (item : Counted) : Nat :=
  Buckets.slot startMs.toNat (bucketWidth startMs endMs maxPoints) maxPoints
    (timestamp item.1).toNat

def addCounted (acc : Accumulator) (item : Counted) : Accumulator :=
  acc.add item.1.sampledAtMs item.2

def isPartial (item : Counted) : Bool :=
  item.1.completeness ≠ .complete || !item.2.complete || !item.2.ratesAvailable

def aggregateBy : TrendSeries :=
  let counted := countedFrames timestamp frames scope startMs endMs
  let buckets := Buckets.collect (bucketIndex timestamp startMs endMs maxPoints) addCounted {}
    (List.replicate maxPoints none) counted
  let points := (buckets.filterMap id).map Accumulator.finish
  { completeness :=
      if points = [] then .unavailable
      else if counted.any isPartial then .partial_ else .complete
    points }

end aggregate

def aggregate := aggregateBy (·.monotonicMs)

def aggregateWall := aggregateBy (·.sampledAtMs)

section points

/-- The metrics with rates. -/
def rated (metrics : List TrendMetric) : List TrendMetric := metrics.filter (·.ratesAvailable)

def readSum (metrics : List TrendMetric) : Nat :=
  ((rated metrics).map (·.readBytesDelta.toNat)).sum

def writeSum (metrics : List TrendMetric) : Nat :=
  ((rated metrics).map (·.writeBytesDelta.toNat)).sum

/-- What the point of a bucket says of the metrics in it. -/
structure Summarizes (metrics : List TrendMetric) (point : TrendPoint) : Prop where
  read : point.readBytes.toNat = min (readSum metrics) (2 ^ 64 - 1)
  write : point.writeBytes.toNat = min (writeSum metrics) (2 ^ 64 - 1)
  cpuAverage : point.cpuAvgMilliPercent ≤ point.cpuPeakMilliPercent
  rssAverage : point.rssAvgKib ≤ point.rssPeakKib
  /-- Nothing is the peak of no rates. -/
  cpuPeak : Summary.Peak (·.cpuMilliPercent.toNat) (rated metrics)
    point.cpuPeakMilliPercent.toNat
  rssPeak : Summary.Peak (·.rssKib.toNat) metrics point.rssPeakKib.toNat
  processPeak : Summary.Peak (·.processCount.toNat) metrics point.processCountPeak.toNat

end points

section words

theorem toNat_max32 (a b : UInt32) : (max a b).toNat = max a.toNat b.toNat := by
  change (if a ≤ b then b else a).toNat = _
  split
  · rename_i h
    exact (Nat.max_eq_right (UInt32.le_iff_toNat_le.mp h)).symm
  · rename_i h
    exact (Nat.max_eq_left (Nat.le_of_not_le fun hle => h (UInt32.le_iff_toNat_le.mpr hle))).symm

theorem toNat_max64 (a b : UInt64) : (max a b).toNat = max a.toNat b.toNat := by
  change (if a ≤ b then b else a).toNat = _
  split
  · rename_i h
    exact (Nat.max_eq_right (UInt64.le_iff_toNat_le.mp h)).symm
  · rename_i h
    exact (Nat.max_eq_left (Nat.le_of_not_le fun hle => h (UInt64.le_iff_toNat_le.mpr hle))).symm

theorem toNat_saturatingU64 (value : Nat) :
    (saturatingU64 value).toNat = min value (2 ^ 64 - 1) :=
  UInt64.toNat_ofNat_of_lt' (Nat.lt_of_le_of_lt (Nat.min_le_right _ _) (by decide))

/-- A mean of values is no more than a bound of them. -/
theorem averageU32_le {sum count : Nat} {peak : UInt32} (h : sum ≤ count * peak.toNat) :
    averageU32 sum count ≤ peak := by
  rw [UInt32.le_iff_toNat_le]
  unfold averageU32
  split
  · exact Nat.zero_le _
  · have hmean : sum / count ≤ peak.toNat := Nat.div_le_of_le_mul h
    rw [UInt32.toNat_ofNat_of_lt' (Nat.lt_of_le_of_lt (Nat.min_le_right _ _) (by decide))]
    omega

theorem averageU64_le {sum count : Nat} {peak : UInt64} (h : sum ≤ count * peak.toNat) :
    averageU64 sum count ≤ peak := by
  rw [UInt64.le_iff_toNat_le]
  unfold averageU64
  split
  · exact Nat.zero_le _
  · have hmean : sum / count ≤ peak.toNat := Nat.div_le_of_le_mul h
    rw [toNat_saturatingU64]
    omega

/-- `saturating_u64` of a sum that has been stopped at the largest `u128`. -/
theorem saturatingU64_of_sum {sum total : Nat} (h : sum = min total (2 ^ 128 - 1)) :
    (saturatingU64 sum).toNat = min total (2 ^ 64 - 1) := by
  rw [toNat_saturatingU64]
  omega

end words

section tally

/-- What an accumulator knows of the metrics that were added to it. -/
structure Tally (metrics : List TrendMetric) (acc : Accumulator) : Prop where
  cpuSum : acc.cpuSum = ((rated metrics).map (·.cpuMilliPercent.toNat)).sum
  cpuCount : acc.cpuCount = (rated metrics).length
  cpuPeak : Summary.Peak (·.cpuMilliPercent.toNat) (rated metrics) acc.cpuPeak.toNat
  rssSum : acc.rssSum = (metrics.map (·.rssKib.toNat)).sum
  rssCount : acc.rssCount = metrics.length
  rssPeak : Summary.Peak (·.rssKib.toNat) metrics acc.rssPeak.toNat
  read : acc.readBytes = min (readSum metrics) (2 ^ 128 - 1)
  write : acc.writeBytes = min (writeSum metrics) (2 ^ 128 - 1)
  processPeak : Summary.Peak (·.processCount.toNat) metrics acc.processCountPeak.toNat

variable {metrics : List TrendMetric} {acc : Accumulator}

theorem Tally.nil : Tally [] {} where
  cpuSum := rfl
  cpuCount := rfl
  cpuPeak := .nil _
  rssSum := rfl
  rssCount := rfl
  rssPeak := .nil _
  read := rfl
  write := rfl
  processPeak := .nil _

theorem Tally.add (h : Tally metrics acc) (timestampMs : UInt64) (metric : TrendMetric) :
    Tally (metrics ++ [metric]) (acc.add timestampMs metric) := by
  have hrss : Summary.Peak (·.rssKib.toNat) (metrics ++ [metric])
      (max acc.rssPeak metric.rssKib).toNat := by
    rw [toNat_max64]
    exact h.rssPeak.append metric
  have hprocess : Summary.Peak (·.processCount.toNat) (metrics ++ [metric])
      (max acc.processCountPeak metric.processCount).toNat := by
    rw [toNat_max32]
    exact h.processPeak.append metric
  have hrssSum : acc.rssSum + metric.rssKib.toNat =
      ((metrics ++ [metric]).map (·.rssKib.toNat)).sum := by
    rw [Summary.sum_append, h.rssSum]
  have hrssCount : acc.rssCount + 1 = (metrics ++ [metric]).length := by
    rw [List.length_append, h.rssCount, List.length_singleton]
  cases hrates : metric.ratesAvailable with
  | false =>
    have hsame : rated (metrics ++ [metric]) = rated metrics := by
      rw [rated, List.filter_append, List.filter_singleton, hrates, ← rated]
      exact List.append_nil _
    rw [Accumulator.add, hrates]
    change Tally _ (acc.addGauges timestampMs metric)
    refine ⟨?_, ?_, ?_, hrssSum, hrssCount, hrss, ?_, ?_, hprocess⟩
    · rw [hsame]
      exact h.cpuSum
    · rw [hsame]
      exact h.cpuCount
    · rw [hsame]
      exact h.cpuPeak
    · rw [readSum, hsame]
      exact h.read
    · rw [writeSum, hsame]
      exact h.write
  | true =>
    have hmore : rated (metrics ++ [metric]) = rated metrics ++ [metric] := by
      rw [rated, List.filter_append, List.filter_singleton, hrates, ← rated]
      rfl
    rw [Accumulator.add, hrates]
    change Tally _ ((acc.addRates metric).addGauges timestampMs metric)
    refine ⟨?_, ?_, ?_, hrssSum, hrssCount, hrss, ?_, ?_, hprocess⟩
    · rw [hmore, Summary.sum_append]
      exact congrArg (· + _) h.cpuSum
    · rw [hmore, List.length_append]
      exact congrArg (· + 1) h.cpuCount
    · rw [hmore]
      change Summary.Peak _ _ (max acc.cpuPeak metric.cpuMilliPercent).toNat
      rw [toNat_max32]
      exact h.cpuPeak.append metric
    · rw [readSum, hmore]
      exact Summary.saturating_append h.read
    · rw [writeSum, hmore]
      exact Summary.saturating_append h.write

theorem tally_foldl (items : List Counted) :
    Tally (items.map Prod.snd) (items.foldl addCounted {}) := by
  induction items using List.reverseRecOn with
  | nil => exact .nil
  | append_singleton items item ih =>
    rw [List.map_append, List.foldl_append]
    exact ih.add _ item.2

theorem Tally.summarizes (h : Tally metrics acc) : Summarizes metrics acc.finish where
  read := saturatingU64_of_sum h.read
  write := saturatingU64_of_sum h.write
  cpuAverage := averageU32_le (by rw [h.cpuSum, h.cpuCount]; exact h.cpuPeak.sum_le)
  rssAverage := averageU64_le (by rw [h.rssSum, h.rssCount]; exact h.rssPeak.sum_le)
  cpuPeak := h.cpuPeak
  rssPeak := h.rssPeak
  processPeak := h.processPeak

end tally

section partition

/-- How the frames of a window are made to points: each of them is in one bucket, the buckets are
intervals of time in their order, and there is a point for each bucket with a frame in it. -/
structure Aggregates (time : Counted → Nat) (startMs width maxPoints : Nat)
    (counted : List Counted) (groups : List (List Counted)) (points : List TrendPoint) : Prop where
  divisor : 0 < width
  index : ∀ item ∈ counted, Buckets.slot startMs width maxPoints (time item) < maxPoints
  cut : Buckets.Cut time startMs width maxPoints counted groups
  made : List.Forall₂ (fun group point => Summarizes (group.map Prod.snd) point)
    (groups.filter (!·.isEmpty)) points
  few : points.length ≤ maxPoints
  read : readSum (counted.map Prod.snd) < 2 ^ 64 →
    (points.map (·.readBytes.toNat)).sum = readSum (counted.map Prod.snd)
  write : writeSum (counted.map Prod.snd) < 2 ^ 64 →
    (points.map (·.writeBytes.toNat)).sum = writeSum (counted.map Prod.snd)

variable {timestamp : DerivedSample → UInt64} {frames : List DerivedSample} {scope : TrendScope}
  {startMs endMs : UInt64} {maxPoints : Nat}

theorem mem_countedFrames {item : Counted} :
    item ∈ countedFrames timestamp frames scope startMs endMs ↔
      item.1 ∈ frames ∧ startMs < timestamp item.1 ∧ timestamp item.1 ≤ endMs ∧
        metricFor item.1 scope = some item.2 := by
  obtain ⟨sample, metric⟩ := item
  simp only [countedFrames, List.mem_filterMap, List.mem_filter, decide_eq_true_eq,
    Option.map_eq_some_iff, Prod.mk.injEq]
  constructor
  · rintro ⟨_, ⟨hmem, hstart, hend⟩, _, hmetric, rfl, rfl⟩
    exact ⟨hmem, hstart, hend, hmetric⟩
  · rintro ⟨hmem, hstart, hend, hmetric⟩
    exact ⟨sample, ⟨hmem, hstart, hend⟩, metric, hmetric, rfl, rfl⟩

theorem points_aggregateBy :
    (aggregateBy timestamp frames scope startMs endMs maxPoints).points =
      ((Buckets.groups (bucketIndex timestamp startMs endMs maxPoints) maxPoints
        (countedFrames timestamp frames scope startMs endMs)).filter (!·.isEmpty)).map
          fun group => (group.foldl addCounted {}).finish := by
  rw [aggregateBy]
  dsimp only
  rw [Buckets.collect_replicate, Buckets.filterMap_gather, List.map_map]
  rfl

/-- The points say together what the metrics with rates say together, where nothing overflows. -/
theorem sum_aggregated {counted : List Counted} {groups : List (List Counted)}
    {points : List TrendPoint} {part : TrendMetric → Nat} {field : TrendPoint → UInt64}
    (hfield : ∀ metrics point, Summarizes metrics point →
      (field point).toNat = min ((rated metrics).map part).sum (2 ^ 64 - 1))
    (hmade : List.Forall₂ (fun group point => Summarizes (group.map Prod.snd) point)
      (groups.filter (!·.isEmpty)) points) (hwhole : groups.flatten.Perm counted)
    (hfits : ((rated (counted.map Prod.snd)).map part).sum < 2 ^ 64) :
    (points.map fun point => (field point).toNat).sum =
      ((rated (counted.map Prod.snd)).map part).sum := by
  have hrated : ∀ items : List Counted, ((rated (items.map Prod.snd)).map part).sum =
      (items.map fun item => if item.2.ratesAvailable then part item.2 else 0).sum := by
    intro items
    rw [rated, Summary.sum_filter, List.map_map]
    rfl
  rw [hrated] at hfits ⊢
  refine Buckets.sum_groups (fun group point h => ?_) hmade hwhole (Nat.le_pred_of_lt hfits)
  rw [← hrated]
  exact hfield _ _ h

/-- The frames of a window are partitioned into buckets. -/
theorem aggregateBy_aggregates (hpoints : 0 < maxPoints) (hwindow : startMs ≤ endMs) :
    Aggregates (fun item => (timestamp item.1).toNat) startMs.toNat
      (bucketWidth startMs endMs maxPoints) maxPoints
      (countedFrames timestamp frames scope startMs endMs)
      (Buckets.groups (bucketIndex timestamp startMs endMs maxPoints) maxPoints
        (countedFrames timestamp frames scope startMs endMs))
      (aggregateBy timestamp frames scope startMs endMs maxPoints).points := by
  have hwidth : 0 < bucketWidth startMs endMs maxPoints := Buckets.width_pos _ _
  have hle := UInt64.le_iff_toNat_le.mp hwindow
  have hinside : ∀ item ∈ countedFrames timestamp frames scope startMs endMs,
      startMs.toNat < (timestamp item.1).toNat ∧
        (timestamp item.1).toNat ≤ startMs.toNat + (endMs.toNat - startMs.toNat) := by
    intro item hitem
    obtain ⟨-, hstart, hend, -⟩ := mem_countedFrames.mp hitem
    have hstart' := UInt64.lt_iff_toNat_lt.mp hstart
    have hend' := UInt64.le_iff_toNat_le.mp hend
    omega
  have hcut : Buckets.Cut (fun item : Counted => (timestamp item.1).toNat) startMs.toNat
      (bucketWidth startMs endMs maxPoints) maxPoints
      (countedFrames timestamp frames scope startMs endMs)
      (Buckets.groups (bucketIndex timestamp startMs endMs maxPoints) maxPoints
        (countedFrames timestamp frames scope startMs endMs)) :=
    Buckets.cut_groups hpoints hwidth (Buckets.span_le hpoints) hinside
  have hmade : List.Forall₂ (fun group point => Summarizes (group.map Prod.snd) point)
      ((Buckets.groups (bucketIndex timestamp startMs endMs maxPoints) maxPoints
        (countedFrames timestamp frames scope startMs endMs)).filter (!·.isEmpty))
      (aggregateBy timestamp frames scope startMs endMs maxPoints).points := by
    rw [points_aggregateBy, List.forall₂_map_right_iff, List.forall₂_same]
    exact fun group _ => (tally_foldl group).summarizes
  refine ⟨hwidth, fun item _ => Buckets.slot_lt hpoints, hcut, hmade, ?_, ?_, ?_⟩
  · rw [← hmade.length_eq]
    exact (List.length_filter_le _ _).trans hcut.count.le
  · exact sum_aggregated (fun metrics point h => h.read) hmade hcut.whole
  · exact sum_aggregated (fun metrics point h => h.write) hmade hcut.whole

end partition

end Dashboard
end PersistShell

import PersistShell.Dashboard.Rates
import PersistShell.Dashboard.Worker
import PersistShell.Program.Windows

/-! What the minute records say of the samples, as long as the history keeps all of them. -/

namespace PersistShell
namespace Dashboard

variable {layout : HistoryLayout} {initial : BoundedHistory} {front samples : List RawSample}
  {raw before after : RawSample}

section frames

/-- Every sample is still in the history, with all of its sessions. -/
def AllKept (samples : List RawSample) (frames : List DerivedSample) : Prop :=
  List.Forall₂ (fun raw frame => frame.sessions.length = raw.sessions.length) samples frames

/-- A sample as the history has it, with its sessions in order. -/
def ordered (layout : HistoryLayout) (sample : DerivedSample) : DerivedSample :=
  { sample with sessions := layout.sortSessions.run sample.sessions }

/-- The frames that the samples are made to. -/
def framesOf (layout : HistoryLayout) (previous : Option RawSample) :
    List RawSample → List DerivedSample
  | [] => []
  | raw :: samples =>
    ordered layout (deriveSample previous raw) :: framesOf layout (some raw) samples

theorem popWhile_suffix {condition : BoundedHistory → Bool} {history : BoundedHistory}
    (frames : List DerivedSample) : (popWhile layout condition history frames).frames <:+ frames := by
  induction frames generalizing history with
  | nil => exact List.suffix_rfl
  | cons sample frames ih =>
    rw [popWhile]
    split
    · exact ih.trans (List.suffix_cons _ _)
    · exact List.suffix_rfl

theorem push_suffix (history : BoundedHistory) (sample : DerivedSample) :
    ∃ kept, kept <:+ history.frames ∧
      (push layout history sample).frames <:+ kept ++ [limitSample layout history sample] :=
  ⟨_, popWhile_suffix history.frames, popWhile_suffix _⟩

theorem length_frames_le (h : initial.frames = []) (samples : List RawSample) :
    (runWorker layout initial samples).history.frames.length ≤ samples.length := by
  induction samples using List.reverseRecOn with
  | nil =>
    rw [runWorker, List.foldl_nil, h]
    exact le_rfl
  | append_singleton samples raw ih =>
    obtain ⟨kept, hkept, hpush⟩ := @push_suffix layout
      (runWorker layout initial samples).history (deriveSample samples.getLast? raw)
    have hless := hpush.length_le
    have hless' := hkept.length_le
    rw [List.length_append, List.length_singleton] at hless ⊢
    rw [history_runWorker]
    omega

/-- A sample that has kept its sessions was not cut. -/
theorem limitSample_eq {history : BoundedHistory} {sample : DerivedSample}
    (h : (limitSample layout history sample).sessions.length = sample.sessions.length) :
    limitSample layout history sample = ordered layout sample := by
  have hperm := (layout.sortSessions.perm sample.sessions).length_eq
  unfold limitSample at h ⊢
  dsimp only at h ⊢
  split at h
  · rename_i hmany
    rw [List.length_take] at h
    omega
  · rename_i hfew
    rw [if_neg hfew]
    rfl

/-- When all is kept in the end, all was kept before, and the last sample was put behind it. -/
theorem allKept_append (hempty : initial.frames = [])
    (h : AllKept (front ++ [raw]) (runWorker layout initial (front ++ [raw])).history.frames) :
    AllKept front (runWorker layout initial front).history.frames ∧
      (runWorker layout initial (front ++ [raw])).history.frames =
        (runWorker layout initial front).history.frames ++
          [ordered layout (deriveSample front.getLast? raw)] := by
  have hlength := h.length_eq
  have hbefore := @length_frames_le layout _ hempty front
  obtain ⟨kept, hkept, hpush⟩ := @push_suffix layout
    (runWorker layout initial front).history (deriveSample front.getLast? raw)
  rw [← history_runWorker] at hpush
  have hless := hpush.length_le
  have hless' := hkept.length_le
  rw [List.length_append, List.length_singleton] at hlength hless
  have hall : kept = (runWorker layout initial front).history.frames :=
    hkept.eq_of_length (by omega)
  subst hall
  have hframes := hpush.eq_of_length (by
    rw [List.length_append, List.length_singleton]
    omega)
  rw [hframes] at h
  have hfront : front.length = (runWorker layout initial front).history.frames.length := by omega
  have htake := List.forall₂_take front.length h
  have hdrop := List.forall₂_drop front.length h
  rw [List.take_left] at htake
  rw [List.drop_left] at hdrop
  rw [hfront, List.take_left] at htake
  rw [hfront, List.drop_left] at hdrop
  refine ⟨?_, ?_⟩
  · exact htake
  · rw [hframes]
    cases hdrop with
    | cons hsessions _ =>
      rw [limitSample_eq]
      rw [hsessions]
      exact (List.length_map _).symm

theorem framesOf_append (previous : Option RawSample) : framesOf layout previous (front ++ [raw]) =
    framesOf layout previous front ++
      [ordered layout (deriveSample (front.getLast?.or previous) raw)] := by
  induction front generalizing previous with
  | nil => rfl
  | cons first front ih =>
    rw [List.cons_append, framesOf, framesOf, ih, List.getLast?_cons]
    cases front.getLast? <;> rfl

/-- The frames of the history are those of the samples. -/
theorem frames_runWorker (hempty : initial.frames = [])
    (h : AllKept samples (runWorker layout initial samples).history.frames) :
    (runWorker layout initial samples).history.frames = framesOf layout none samples := by
  induction samples using List.reverseRecOn with
  | nil => exact hempty
  | append_singleton samples raw ih =>
    obtain ⟨hbefore, hframes⟩ := allKept_append hempty h
    rw [hframes, ih hbefore, framesOf_append, Option.or_none]

theorem framesOf_take (n : Nat) (previous : Option RawSample) (samples : List RawSample) :
    framesOf layout previous (samples.take n) = (framesOf layout previous samples).take n := by
  induction samples generalizing n previous with
  | nil =>
    rw [List.take_nil, framesOf, List.take_nil]
  | cons raw samples ih =>
    cases n with
    | zero => rfl
    | succ n => rw [List.take_succ_cons, framesOf, framesOf, ih, List.take_succ_cons]

theorem allKept_take (hempty : initial.frames = [])
    (h : AllKept samples (runWorker layout initial samples).history.frames) (n : Nat) :
    AllKept (samples.take n) (runWorker layout initial (samples.take n)).history.frames := by
  induction samples using List.reverseRecOn with
  | nil =>
    rw [List.take_nil]
    exact h
  | append_singleton samples raw ih =>
    rcases Nat.lt_or_ge samples.length n with hlt | hge
    · rw [List.take_of_length_le (by rw [List.length_append, List.length_singleton]; omega)]
      exact h
    · rw [List.take_append_of_le_length hge]
      exact ih (allKept_append hempty h).1

theorem getElem?_framesOf (samples : List RawSample) (i : Nat) :
    (framesOf layout none samples)[i]?.map (·.sampledAtMs) = samples[i]?.map (·.sampledAtMs) := by
  have hmap : ∀ previous, (framesOf layout previous samples).map (·.sampledAtMs) =
      samples.map (·.sampledAtMs) := by
    induction samples with
    | nil => exact fun _ => rfl
    | cons raw samples ih =>
      intro previous
      rw [framesOf, List.map_cons, List.map_cons, ih]
      rfl
  rw [← List.getElem?_map, hmap, List.getElem?_map]

end frames

section series

variable {history : BoundedHistory} {startMs : UInt64} {scope : TrendScope} {record : MinuteRecord}

theorem mem_dedup (ids : List UInt32) (id : UInt32) : id ∈ dedup ids ↔ id ∈ ids := by
  induction ids using dedup.induct with
  | case1 a ids ih =>
    rw [dedup, if_pos rfl, ih]
    simp
  | case2 a b ids hne ih => rw [dedup, if_neg hne, List.mem_cons, List.mem_cons, ih]
  | case3 ids hshort =>
    cases ids with
    | nil => rfl
    | cons a ids =>
      cases ids with
      | nil => rfl
      | cons b ids => exact absurd rfl (hshort a b ids)

/-- In a sorted list, the runs of an id are all that is repeated. -/
theorem nodup_dedup {ids : List UInt32} (h : ids.Pairwise fun a b => a ≤ b) :
    (dedup ids).Nodup := by
  induction ids using dedup.induct with
  | case1 a ids ih =>
    rw [dedup, if_pos rfl]
    exact ih (List.pairwise_cons.mp h).2
  | case2 a b ids hne ih =>
    obtain ⟨hfirst, hrest⟩ := List.pairwise_cons.mp h
    rw [dedup, if_neg hne, List.nodup_cons]
    refine ⟨fun hmem => ?_, ih hrest⟩
    rw [mem_dedup, List.mem_cons] at hmem
    rcases hmem with heq | hmem
    · exact hne heq
    · have hle := hfirst b List.mem_cons_self
      have hge := (List.pairwise_cons.mp hrest).1 a hmem
      exact hne (UInt32.le_antisymm hle hge)
  | case3 ids hshort =>
    cases ids with
    | nil => exact List.nodup_nil
    | cons a ids =>
      cases ids with
      | nil => exact List.nodup_singleton a
      | cons b ids => exact absurd rfl (hshort a b ids)

/-- The frames of a minute that have a metric. -/
def minuteFrames (history : BoundedHistory) (scope : TrendScope) (startMs : UInt64) :
    List Counted :=
  countedFrames (·.sampledAtMs) history.frames scope startMs (saturatingAdd64 startMs 60000)

/-- There is one bucket, and a point when it is not empty. -/
theorem points_minuteSeries : (minuteSeries history scope startMs).points =
    if minuteFrames history scope startMs = [] then []
    else [((minuteFrames history scope startMs).foldl addCounted {}).finish] := by
  have hone : Buckets.groups (bucketIndex (·.sampledAtMs) startMs
      (saturatingAdd64 startMs 60000) 1) 1 (minuteFrames history scope startMs) =
      [minuteFrames history scope startMs] := by
    have hall : Buckets.group (bucketIndex (·.sampledAtMs) startMs
        (saturatingAdd64 startMs 60000) 1) (minuteFrames history scope startMs) 0 =
        minuteFrames history scope startMs :=
      List.filter_eq_self.mpr fun item _ =>
        decide_eq_true (Nat.lt_one_iff.mp (Buckets.slot_lt Nat.one_pos))
    rw [Buckets.groups, List.range_one, List.map_singleton, hall]
  rw [minuteSeries, aggregateWall, points_aggregateBy]
  change ((Buckets.groups _ 1 (minuteFrames history scope startMs)).filter _).map _ = _
  rw [hone]
  cases minuteFrames history scope startMs <;> rfl

/-- The points of a record that are about the daemon, or about a session. -/
def pointsOf (scope : TrendScope) (record : MinuteRecord) : List TrendPoint :=
  match scope with
  | .daemon => [record.daemon]
  | .session sessionId => (record.sessions.filter (·.sessionId = sessionId)).map (·.point)

theorem minuteFrames_daemon_eq_nil (h : minuteFrames history .daemon startMs = []) :
    minuteFrames history scope startMs = [] := by
  rw [List.eq_nil_iff_forall_not_mem]
  intro item hitem
  obtain ⟨hmem, hstart, hend, -⟩ := mem_countedFrames.mp hitem
  have hdaemon : ∃ metric, metricFor item.1 .daemon = some metric := ⟨_, rfl⟩
  obtain ⟨metric, hmetric⟩ := hdaemon
  have : (item.1, metric) ∈ minuteFrames history .daemon startMs :=
    mem_countedFrames.mpr ⟨hmem, hstart, hend, hmetric⟩
  rw [h] at this
  cases this

theorem minuteFrames_session_eq_nil {sessionId : UInt32}
    (h : sessionId ∉ sessionIdsWall history startMs (saturatingAdd64 startMs 60000)) :
    minuteFrames history (.session sessionId) startMs = [] := by
  rw [List.eq_nil_iff_forall_not_mem]
  intro item hitem
  obtain ⟨hmem, hstart, hend, hmetric⟩ := mem_countedFrames.mp hitem
  obtain ⟨session, hsession, -⟩ := Option.map_eq_some_iff.mp hmetric
  have hid : session.metrics.sessionId = sessionId := by
    have := List.find?_some hsession
    exact of_decide_eq_true this
  refine h ((mem_dedup _ _).mpr ((List.mem_insertionSort _).mpr ?_))
  refine List.mem_flatMap.mpr ⟨item.1, List.mem_filter.mpr ⟨hmem, decide_eq_true ⟨hstart, hend⟩⟩, ?_⟩
  exact List.mem_map.mpr ⟨session, List.mem_of_find?_eq_some hsession, hid⟩

/-- A record has at most one entry for a session. -/
theorem filter_filterMap_of_nodup {make : UInt32 → Option SessionMinuteRecord}
    (hmake : ∀ id entry, make id = some entry → entry.sessionId = id) {ids : List UInt32}
    (hnodup : ids.Nodup) (sessionId : UInt32) :
    (ids.filterMap make).filter (·.sessionId = sessionId) =
      if sessionId ∈ ids then (make sessionId).toList else [] := by
  have hone : ∀ id, ((make id).toList).filter (·.sessionId = sessionId) =
      if id = sessionId then (make sessionId).toList else [] := by
    intro id
    cases hentry : make id with
    | none =>
      split
      · rename_i heq
        rw [← heq, hentry]
        rfl
      · rfl
    | some entry =>
      have hid := hmake id entry hentry
      rw [Option.toList_some, List.filter_singleton, hid]
      split
      · rename_i heq
        rw [decide_eq_true heq, ← heq, hentry]
        rfl
      · rename_i hne
        rw [decide_eq_false hne]
        rfl
  induction ids with
  | nil => rfl
  | cons id ids ih =>
    obtain ⟨hnew, hnodup⟩ := List.nodup_cons.mp hnodup
    have hcons : (id :: ids).filterMap make = (make id).toList ++ ids.filterMap make := by
      rw [List.filterMap_cons]
      cases make id <;> rfl
    rw [hcons, List.filter_append, ih hnodup, hone]
    by_cases heq : id = sessionId
    · subst heq
      rw [if_pos rfl, if_neg hnew, if_pos List.mem_cons_self, List.append_nil]
    · have hne : sessionId ≠ id := fun h => heq h.symm
      rw [if_neg heq, List.nil_append]
      simp only [List.mem_cons, hne, false_or]

theorem nodup_sessionIdsWall (endMs : UInt64) : (sessionIdsWall history startMs endMs).Nodup := by
  refine nodup_dedup ?_
  have : Std.Total fun a b : UInt32 => a ≤ b := ⟨fun a b => UInt32.le_total a b⟩
  have : IsTrans UInt32 fun a b => a ≤ b := ⟨fun _ _ _ => UInt32.le_trans⟩
  exact List.pairwise_insertionSort _ _

/-- The record of a minute has the point of each series of the minute, and no record means that
there is nothing in the minute. -/
theorem points_buildMinuteRecord : (buildMinuteRecord history startMs).toList.flatMap
    (pointsOf scope) = (minuteSeries history scope startMs).points.map fun point =>
      { point with timestampMs := saturatingAdd64 startMs 60000 } := by
  have hpoints := @points_minuteSeries history startMs scope
  have hdaemon := @points_minuteSeries history startMs .daemon
  by_cases hnone : minuteFrames history .daemon startMs = []
  · rw [if_pos hnone] at hdaemon
    rw [if_pos (minuteFrames_daemon_eq_nil hnone)] at hpoints
    rw [buildMinuteRecord, hdaemon, hpoints]
    rfl
  rw [if_neg hnone] at hdaemon
  rw [buildMinuteRecord, hdaemon]
  dsimp only [List.head?_cons, Option.bind_eq_bind, Option.bind_some, Option.pure_def,
    Option.toList_some]
  rw [List.flatMap_singleton]
  cases scope with
  | daemon =>
    rw [hdaemon]
    rfl
  | session sessionId =>
    have hids := @nodup_sessionIdsWall history startMs (saturatingAdd64 startMs 60000)
    have hmake : ∀ id entry, sessionMinute history startMs (saturatingAdd64 startMs 60000) id =
        some entry → entry.sessionId = id := by
      intro id entry hentry
      obtain ⟨point, -, rfl⟩ := Option.map_eq_some_iff.mp hentry
      rfl
    rw [pointsOf, filter_filterMap_of_nodup hmake hids, hpoints]
    by_cases hmem : sessionId ∈ sessionIdsWall history startMs (saturatingAdd64 startMs 60000)
    · rw [if_pos hmem, sessionMinute, hpoints]
      split <;> rfl
    · rw [if_neg hmem, if_pos (minuteFrames_session_eq_nil hmem)]
      rfl

theorem pointsOf_of_buildMinuteRecord (h : buildMinuteRecord history startMs = some record) :
    (pointsOf scope record).length =
        (if minuteFrames history scope startMs = [] then 0 else 1) ∧
      ∀ point ∈ pointsOf scope record,
        Summarizes ((minuteFrames history scope startMs).map Prod.snd) point := by
  have hpoints := @points_buildMinuteRecord history startMs scope
  rw [h, Option.toList_some, List.flatMap_singleton, points_minuteSeries] at hpoints
  have hsummary := (tally_foldl (minuteFrames history scope startMs)).summarizes
  rw [hpoints]
  split
  · exact ⟨rfl, fun point hpoint => (by cases hpoint)⟩
  · refine ⟨rfl, fun point hpoint => ?_⟩
    rw [List.map_singleton, List.mem_singleton] at hpoint
    rw [hpoint]
    exact ⟨hsummary.read, hsummary.write, hsummary.cpuAverage, hsummary.rssAverage,
      hsummary.cpuPeak, hsummary.rssPeak, hsummary.processPeak⟩

end series

section sums

variable {scope : TrendScope} {part : TrendMetric → UInt64} {field : TrendPoint → UInt64}
  {frames : List DerivedSample} {startMs : UInt64}

/-- What a frame adds to a sum: nothing without rates. -/
def deltaOf (part : TrendMetric → UInt64) (scope : TrendScope) (frame : DerivedSample) : Nat :=
  match metricFor frame scope with
  | none => 0
  | some metric => if metric.ratesAvailable then (part metric).toNat else 0

/-- What the frames up to a time add up to. -/
def deltaUpTo (part : TrendMetric → UInt64) (scope : TrendScope) (frames : List DerivedSample)
    (ms : UInt64) : Nat :=
  ((frames.filter fun frame => frame.sampledAtMs ≤ ms).map (deltaOf part scope)).sum

/-- What the frames of a minute add up to. -/
def minuteDelta (part : TrendMetric → UInt64) (scope : TrendScope) (frames : List DerivedSample)
    (startMs : UInt64) : Nat :=
  ((frames.filter fun frame => startMs < frame.sampledAtMs ∧
    frame.sampledAtMs ≤ saturatingAdd64 startMs 60000).map (deltaOf part scope)).sum

theorem sum_minuteFrames (history : BoundedHistory) :
    ((rated ((minuteFrames history scope startMs).map Prod.snd)).map
      fun metric => (part metric).toNat).sum = minuteDelta part scope history.frames startMs := by
  rw [minuteFrames, countedFrames, minuteDelta]
  induction history.frames.filter fun sample => startMs < sample.sampledAtMs ∧
      sample.sampledAtMs ≤ saturatingAdd64 startMs 60000 with
  | nil => rfl
  | cons frame frames ih =>
    rw [List.map_cons, List.sum_cons, ← ih, List.filterMap_cons, deltaOf]
    cases hmetric : metricFor frame scope with
    | none => exact (Nat.zero_add _).symm
    | some metric =>
      dsimp only [Option.map_some]
      rw [List.map_cons, rated, List.filter_cons]
      split
      · rfl
      · exact (Nat.zero_add _).symm

/-- The records of a minute say what its frames add up to, where that fits. -/
theorem sum_buildMinuteRecord {history : BoundedHistory}
    (hfield : ∀ metrics point, Summarizes metrics point → (field point).toNat =
      min ((rated metrics).map fun metric => (part metric).toNat).sum (2 ^ 64 - 1))
    (htime : ∀ (point : TrendPoint) timestampMs, field { point with timestampMs } = field point)
    (hfits : minuteDelta part scope history.frames startMs < 2 ^ 64) :
    (((buildMinuteRecord history startMs).toList.flatMap (pointsOf scope)).map
      fun point => (field point).toNat).sum = minuteDelta part scope history.frames startMs := by
  have hsum := @sum_minuteFrames scope part startMs history
  rw [points_buildMinuteRecord, points_minuteSeries, List.map_map]
  split
  · rename_i hnone
    rw [hnone] at hsum
    exact hsum
  · rw [List.map_singleton, List.sum_singleton, Function.comp_apply, htime,
      hfield _ _ (tally_foldl _).summarizes, hsum]
    omega

theorem toNat_saturatingAdd64 {a b : UInt64} (h : a.toNat + b.toNat < 2 ^ 64) :
    (saturatingAdd64 a b).toNat = a.toNat + b.toNat := by
  rw [saturatingAdd64, UInt64.toNat_ofNat_of_lt' (by
    change min _ _ < 2 ^ 64
    omega)]
  omega

theorem toNat_minuteOf (ms : UInt64) :
    (minuteOf ms).toNat = Windows.start 60000 ms.toNat := by
  have hms := ms.toNat_lt
  rw [minuteOf, UInt64.toNat_mul, UInt64.toNat_div, Windows.start]
  have hle := Nat.div_mul_le_self ms.toNat 60000
  exact Nat.mod_eq_of_lt (Nat.lt_of_le_of_lt hle hms)

theorem deltaUpTo_eq (ms : UInt64) : deltaUpTo part scope frames ms = (frames.map fun frame =>
    if frame.sampledAtMs.toNat ≤ ms.toNat then deltaOf part scope frame else 0).sum := by
  rw [deltaUpTo, Summary.sum_filter]
  simp only [decide_eq_true_eq, UInt64.le_iff_toNat_le]

theorem minuteDelta_eq (h : startMs.toNat + 60000 < 2 ^ 64) :
    minuteDelta part scope frames startMs = (frames.map fun frame =>
      if startMs.toNat < frame.sampledAtMs.toNat ∧
        frame.sampledAtMs.toNat ≤ startMs.toNat + 60000 then deltaOf part scope frame else 0).sum := by
  have hend : (saturatingAdd64 startMs 60000).toNat = startMs.toNat + 60000 :=
    toNat_saturatingAdd64 h
  rw [minuteDelta, Summary.sum_filter]
  simp only [decide_eq_true_eq, UInt64.le_iff_toNat_le, UInt64.lt_iff_toNat_lt, hend]

theorem minuteDelta_append_le (frame : DerivedSample) :
    minuteDelta part scope frames startMs ≤ minuteDelta part scope (frames ++ [frame]) startMs := by
  rw [minuteDelta, minuteDelta, List.filter_append, List.map_append, List.sum_append]
  exact Nat.le_add_right _ _

/-- A frame of the minute that goes on adds nothing, unless it is at its very start. -/
theorem deltaUpTo_same {frame : DerivedSample} {ms : UInt64}
    (h : ms.toNat < frame.sampledAtMs.toNat) :
    deltaUpTo part scope (frames ++ [frame]) ms = deltaUpTo part scope frames ms := by
  rw [deltaUpTo_eq, deltaUpTo_eq, Summary.sum_append, if_neg (by omega), Nat.add_zero]

/-- A frame of a later minute completes the minute before. Nothing is between the two. -/
theorem deltaUpTo_later {frame : DerivedSample} {current : UInt64}
    (hlater : startMs.toNat + 60000 ≤ current.toNat)
    (hbefore : ∀ f ∈ frames, f.sampledAtMs.toNat < startMs.toNat + 60000)
    (hframe : current.toNat < frame.sampledAtMs.toNat ∨
      frame.sampledAtMs.toNat = current.toNat ∧ current.toNat = startMs.toNat + 60000) :
    deltaUpTo part scope (frames ++ [frame]) current =
      deltaUpTo part scope frames startMs + minuteDelta part scope (frames ++ [frame]) startMs := by
  have hfits : startMs.toNat + 60000 < 2 ^ 64 := Nat.lt_of_le_of_lt hlater current.toNat_lt
  rw [deltaUpTo_eq, deltaUpTo_eq, minuteDelta_eq hfits, Summary.sum_append, Summary.sum_append,
    ← Nat.add_assoc, ← List.sum_map_add]
  refine congrArg₂ (· + ·) (congrArg List.sum (List.map_congr_left fun f hf => ?_)) ?_
  · have hlt := hbefore f hf
    split_ifs <;> omega
  · split_ifs <;> omega

end sums

section run

variable {part : TrendMetric → UInt64} {scope : TrendScope}

/-- The rates of the first sample are not available. -/
theorem deltaOf_first (raw : RawSample) :
    deltaOf part scope (ordered layout (deriveSample none raw)) = 0 := by
  unfold deltaOf
  cases hmetric : metricFor (ordered layout (deriveSample none raw)) scope with
  | none => rfl
  | some metric =>
    have hrates : metric.ratesAvailable = false := by
      cases scope with
      | daemon =>
        cases hmetric
        rfl
      | session sessionId =>
        obtain ⟨session, hsession, rfl⟩ := Option.map_eq_some_iff.mp hmetric
        have hmem := (layout.sortSessions.perm _).mem_iff.mp (List.mem_of_find?_eq_some hsession)
        obtain ⟨rawSession, -, rfl⟩ := List.mem_map.mp hmem
        rfl
    dsimp only
    rw [hrates]
    rfl

/-- A sample does not come at the very start of a minute, or the one before it came in the minute
that ends there. -/
def OnTime (before raw : RawSample) : Prop :=
  raw.sampledAtMs.toNat % 60000 ≠ 0 ∨
    (minuteOf before.sampledAtMs).toNat + 60000 = raw.sampledAtMs.toNat

/-- Each sample after the first one is on time. -/
def AllOnTime (samples : List RawSample) : Prop :=
  ∀ i before raw, samples[i]? = some before → samples[i + 1]? = some raw → OnTime before raw

theorem AllOnTime.of_append (h : AllOnTime (front ++ [raw])) :
    AllOnTime front ∧ ∀ before, front.getLast? = some before → OnTime before raw := by
  refine ⟨fun i before raw' hbefore hraw => ?_, fun before hbefore => ?_⟩
  · have hlt := (List.getElem?_eq_some_iff.mp hraw).1
    refine h i before raw' ?_ ?_
    · rw [List.getElem?_append_left (by omega)]
      exact hbefore
    · rw [List.getElem?_append_left hlt]
      exact hraw
  · rw [List.getLast?_eq_getElem?] at hbefore
    have hlt := (List.getElem?_eq_some_iff.mp hbefore).1
    refine h (front.length - 1) before raw ?_ ?_
    · rw [List.getElem?_append_left hlt]
      exact hbefore
    · have hlast : front.length - 1 + 1 = front.length := by omega
      rw [hlast, List.getElem?_append_right le_rfl, Nat.sub_self]
      rfl

theorem records_append : (runWorker layout initial (front ++ [raw])).records =
    (runWorker layout initial front).records ++
      (completedMinute (runWorker layout initial (front ++ [raw])).history
        (front.getLast?.map fun raw => minuteOf raw.sampledAtMs)
        (minuteOf raw.sampledAtMs)).2.toList := by
  rw [history_runWorker, ← minuteStart_runWorker, ← previous_runWorker, runWorker_append]
  rfl

/-- Samples in the order of their wall times. -/
def InOrder (samples : List RawSample) : Prop :=
  samples.Pairwise fun a b => a.sampledAtMs ≤ b.sampledAtMs

theorem frame_lt_of_inOrder (h : InOrder samples) (hlast : samples.getLast? = some before)
    {frame : DerivedSample} (hframe : frame ∈ framesOf layout none samples) :
    frame.sampledAtMs.toNat < (minuteOf before.sampledAtMs).toNat + 60000 := by
  obtain ⟨i, hi, rfl⟩ := List.getElem_of_mem hframe
  have htime := @getElem?_framesOf layout samples i
  rw [List.getElem?_eq_getElem hi, Option.map_some] at htime
  obtain ⟨sample, hsample, heq⟩ := Option.map_eq_some_iff.mp htime.symm
  obtain ⟨init, rfl⟩ := List.getLast?_eq_some_iff.mp hlast
  have hle : sample.sampledAtMs ≤ before.sampledAtMs := by
    rcases List.mem_append.mp (List.mem_of_getElem? hsample) with hmem | hmem
    · exact (List.pairwise_append.mp h).2.2 _ hmem before List.mem_cons_self
    · rw [List.mem_singleton.mp hmem]
      exact UInt64.le_refl _
  have hnat := UInt64.le_iff_toNat_le.mp hle
  have hinside := Windows.lt_start_add (w := 60000) (by decide) before.sampledAtMs.toNat
  rw [← heq, toNat_minuteOf]
  omega

/-- The records of a run in which every sample is on time add up to what the samples add up to,
up to the minute that has begun. -/
theorem sum_records {field : TrendPoint → UInt64} (hempty : initial.frames = [])
    (hfield : ∀ metrics point, Summarizes metrics point → (field point).toNat =
      min ((rated metrics).map fun metric => (part metric).toNat).sum (2 ^ 64 - 1))
    (htime : ∀ (point : TrendPoint) timestampMs, field { point with timestampMs } = field point)
    (hkept : AllKept samples (runWorker layout initial samples).history.frames)
    (horder : InOrder samples) (hontime : AllOnTime samples)
    (hfits : ∀ startMs, minuteDelta part scope (framesOf layout none samples) startMs < 2 ^ 64)
    {last : RawSample} (hlast : samples.getLast? = some last) :
    (((runWorker layout initial samples).records.flatMap (pointsOf scope)).map
      fun point => (field point).toNat).sum =
        deltaUpTo part scope (framesOf layout none samples) (minuteOf last.sampledAtMs) := by
  induction samples using List.reverseRecOn generalizing last with
  | nil => cases hlast
  | append_singleton front raw ih =>
    rw [List.getLast?_append, List.getLast?_singleton] at hlast
    cases hlast
    obtain ⟨hfront, hframes⟩ := allKept_append hempty hkept
    have hall := frames_runWorker hempty hkept
    obtain ⟨htimes, htimeLast⟩ := hontime.of_append
    have hfitsFront : ∀ startMs,
        minuteDelta part scope (framesOf layout none front) startMs < 2 ^ 64 := by
      intro startMs
      refine Nat.lt_of_le_of_lt ?_ (hfits startMs)
      rw [framesOf_append]
      exact minuteDelta_append_le _
    rw [records_append, List.flatMap_append, List.map_append, List.sum_append]
    cases hbefore : front.getLast? with
    | none =>
      rw [List.getLast?_eq_none_iff] at hbefore
      subst hbefore
      change 0 = deltaUpTo part scope [ordered layout (deriveSample none raw)] _
      rw [deltaUpTo_eq, List.map_singleton, List.sum_singleton, deltaOf_first, ite_self]
    | some before =>
      have horders := List.pairwise_append.mp horder
      have hle : before.sampledAtMs ≤ raw.sampledAtMs :=
        horders.2.2 before (List.mem_of_getLast? hbefore) raw List.mem_cons_self
      have hstarts := Windows.start_mono (w := 60000) (UInt64.le_iff_toNat_le.mp hle)
      have hinside := Windows.start_le (w := 60000) raw.sampledAtMs.toNat
      have hstart := toNat_minuteOf before.sampledAtMs
      have hcurrent := toNat_minuteOf raw.sampledAtMs
      have hlate := htimeLast before hbefore
      rw [ih hfront horders.1 htimes hfitsFront hbefore, framesOf_append, hbefore,
        Option.map_some, Option.or_none, completedMinute]
      split
      · -- the minute goes on
        rename_i hsame
        have hsameNat := UInt64.le_iff_toNat_le.mp hsame
        have heq : minuteOf raw.sampledAtMs = minuteOf before.sampledAtMs :=
          UInt64.toNat_inj.mp (by omega)
        have hlt : (minuteOf before.sampledAtMs).toNat < raw.sampledAtMs.toNat := by
          rcases hlate with hmod | hend
          · have := Windows.start_lt_of_mod hmod
            omega
          · omega
        rw [heq]
        exact (deltaUpTo_same hlt).symm
      · -- the minute before is complete
        rename_i hlater
        have hlaterNat := UInt64.lt_iff_toNat_lt.mp (UInt64.not_le.mp hlater)
        have hsep := Windows.start_add_le (w := 60000) (a := before.sampledAtMs.toNat)
          (b := raw.sampledAtMs.toNat) (by omega)
        have hframe : (minuteOf raw.sampledAtMs).toNat < raw.sampledAtMs.toNat ∨
            raw.sampledAtMs.toNat = (minuteOf raw.sampledAtMs).toNat ∧
              (minuteOf raw.sampledAtMs).toNat =
                (minuteOf before.sampledAtMs).toNat + 60000 := by
          rcases hlate with hmod | hend
          · have := Windows.start_lt_of_mod hmod
            omega
          · omega
        have hrecord := hfits (minuteOf before.sampledAtMs)
        rw [← hall] at hrecord
        have hsum := sum_buildMinuteRecord hfield htime hrecord
        rw [hall, framesOf_append, hbefore, Option.or_none] at hsum
        rw [hsum]
        refine (deltaUpTo_later (by omega) (fun f hf => ?_) hframe).symm
        exact frame_lt_of_inOrder horders.1 hbefore hf

end run

section counted

/-- The `n`-th sample completes the minute that begins at `startMs`, with a record of it. -/
def Completes (layout : HistoryLayout) (initial : BoundedHistory) (samples : List RawSample)
    (n : Nat) (startMs : UInt64) (record : MinuteRecord) : Prop :=
  n < samples.length ∧ (runWorker layout initial (samples.take n)).minuteStart = some startMs ∧
    (runWorker layout initial (samples.take (n + 1))).records =
      (runWorker layout initial (samples.take n)).records ++ [record]

/-- The record that the `n`-th sample completes counts the `i`-th one: it had come by then, in
the minute of the record. -/
def CountedAt (layout : HistoryLayout) (initial : BoundedHistory) (samples : List RawSample)
    (n i : Nat) : Prop :=
  ∃ startMs record raw, Completes layout initial samples n startMs record ∧ i ≤ n ∧
    samples[i]? = some raw ∧ startMs < raw.sampledAtMs ∧
    raw.sampledAtMs.toNat ≤ startMs.toNat + 60000

/-- The wall time of the `i`-th sample. -/
def timeAt (samples : List RawSample) (i : Nat) : Nat :=
  (samples[i]?.map (·.sampledAtMs.toNat)).getD 0

theorem timeAt_of_get {i : Nat} (h : samples[i]? = some raw) :
    timeAt samples i = raw.sampledAtMs.toNat := by
  rw [timeAt, h]
  rfl

theorem InOrder.timeAt_le (h : InOrder samples) (i j : Nat) (hij : i ≤ j)
    (hj : j < samples.length) : timeAt samples i ≤ timeAt samples j := by
  rw [timeAt_of_get (List.getElem?_eq_getElem (Nat.lt_of_le_of_lt hij hj)),
    timeAt_of_get (List.getElem?_eq_getElem hj)]
  rcases Nat.eq_or_lt_of_le hij with rfl | hlt
  · exact le_rfl
  · exact UInt64.le_iff_toNat_le.mp (List.pairwise_iff_getElem.mp h i j _ hj hlt)

/-- What a sample adds to the records. -/
theorem records_take {n : Nat} (hraw : samples[n]? = some raw) :
    (runWorker layout initial (samples.take (n + 1))).records =
      (runWorker layout initial (samples.take n)).records ++
        (completedMinute (runWorker layout initial (samples.take (n + 1))).history
          (runWorker layout initial (samples.take n)).minuteStart
          (minuteOf raw.sampledAtMs)).2.toList := by
  have htake : samples.take (n + 1) = samples.take n ++ [raw] := by
    rw [List.take_add_one, hraw]
    rfl
  rw [htake, records_append, minuteStart_runWorker]

theorem minuteStart_take {n : Nat} (hbefore : samples[n]? = some before) :
    (runWorker layout initial (samples.take (n + 1))).minuteStart =
      some (minuteOf before.sampledAtMs) := by
  rw [minuteStart_runWorker, List.take_add_one, hbefore, Option.toList_some, List.getLast?_append,
    List.getLast?_singleton]
  rfl

theorem completes_iff {n : Nat} {startMs : UInt64} {record : MinuteRecord} :
    Completes layout initial samples n startMs record ↔
      ∃ raw, samples[n]? = some raw ∧
        (runWorker layout initial (samples.take n)).minuteStart = some startMs ∧
        startMs < minuteOf raw.sampledAtMs ∧
        buildMinuteRecord (runWorker layout initial (samples.take (n + 1))).history startMs =
          some record := by
  have hrecord : ∀ {raw : RawSample}, samples[n]? = some raw →
      (runWorker layout initial (samples.take n)).minuteStart = some startMs →
      ((runWorker layout initial (samples.take (n + 1))).records =
        (runWorker layout initial (samples.take n)).records ++ [record] ↔
          startMs < minuteOf raw.sampledAtMs ∧
            buildMinuteRecord (runWorker layout initial (samples.take (n + 1))).history startMs =
              some record) := by
    intro raw hraw hstart
    rw [records_take hraw, hstart, List.append_cancel_left_eq, completedMinute]
    split
    · rename_i hle
      refine iff_of_false (fun h => (by cases h)) fun h => ?_
      exact UInt64.not_lt.mpr hle h.1
    · rename_i hlt
      rw [UInt64.not_le] at hlt
      dsimp only
      cases buildMinuteRecord (runWorker layout initial (samples.take (n + 1))).history startMs with
      | none => exact iff_of_false (fun h => (by cases h)) fun h => (by cases h.2)
      | some built =>
        rw [Option.toList_some, List.singleton_inj, Option.some.injEq]
        exact ⟨fun h => ⟨hlt, h⟩, fun h => h.2⟩
  constructor
  · rintro ⟨hn, hstart, hrecords⟩
    obtain ⟨hlater, hbuild⟩ := (hrecord (List.getElem?_eq_getElem hn) hstart).mp hrecords
    exact ⟨_, List.getElem?_eq_getElem hn, hstart, hlater, hbuild⟩
  · rintro ⟨raw, hraw, hstart, hlater, hbuild⟩
    exact ⟨(List.getElem?_eq_some_iff.mp hraw).1, hstart,
      (hrecord hraw hstart).mpr ⟨hlater, hbuild⟩⟩

/-- A minute with a frame in it has a record. -/
theorem exists_buildMinuteRecord {history : BoundedHistory} {startMs : UInt64}
    {frame : DerivedSample} (hframe : frame ∈ history.frames) (hbegin : startMs < frame.sampledAtMs)
    (hend : frame.sampledAtMs ≤ saturatingAdd64 startMs 60000) :
    ∃ record, buildMinuteRecord history startMs = some record := by
  have hmetric : ∃ metric, metricFor frame .daemon = some metric := ⟨_, rfl⟩
  obtain ⟨metric, hmetric⟩ := hmetric
  have hmem : (frame, metric) ∈ minuteFrames history .daemon startMs :=
    mem_countedFrames.mpr ⟨hframe, hbegin, hend, hmetric⟩
  have hpoints := @points_minuteSeries history startMs .daemon
  rw [if_neg (List.ne_nil_of_mem hmem)] at hpoints
  rw [buildMinuteRecord, hpoints]
  exact ⟨_, rfl⟩

theorem countedAt_iff (hempty : initial.frames = [])
    (hkept : AllKept samples (runWorker layout initial samples).history.frames) (n i : Nat) :
    CountedAt layout initial samples n i ↔
      n < samples.length ∧ Windows.Collects 60000 (timeAt samples) n i := by
  constructor
  · rintro ⟨startMs, record, raw, hcompletes, hle, hraw, hbegin, hend⟩
    obtain ⟨last, hlast, hstart, hlater, -⟩ := completes_iff.mp hcompletes
    have hn := hcompletes.1
    cases n with
    | zero => cases hstart
    | succ m =>
      obtain ⟨before, hbefore⟩ : ∃ before, samples[m]? = some before :=
        ⟨_, List.getElem?_eq_getElem (by omega)⟩
      rw [minuteStart_take hbefore] at hstart
      obtain rfl := Option.some.inj hstart
      have hlater' := UInt64.lt_iff_toNat_lt.mp hlater
      have hbegin' := UInt64.lt_iff_toNat_lt.mp hbegin
      rw [toNat_minuteOf] at hlater' hbegin' hend
      rw [toNat_minuteOf] at hlater'
      refine ⟨hn, ⟨Nat.le_add_left 1 m, ?_⟩, hle, ?_, ?_⟩
      · rw [Nat.add_sub_cancel, timeAt_of_get hbefore, timeAt_of_get hlast]
        exact hlater'
      · rw [Nat.add_sub_cancel, timeAt_of_get hbefore, timeAt_of_get hraw]
        exact hbegin'
      · rw [Nat.add_sub_cancel, timeAt_of_get hbefore, timeAt_of_get hraw]
        exact hend
  · rintro ⟨hn, ⟨hpos, hcloses⟩, hle, hbegin, hend⟩
    cases n with
    | zero => omega
    | succ m =>
      have hbefore : samples[m]? = some samples[m] := List.getElem?_eq_getElem (by omega)
      have hlast : samples[m + 1]? = some samples[m + 1] := List.getElem?_eq_getElem hn
      have hraw : samples[i]? = some samples[i] := List.getElem?_eq_getElem (by omega)
      rw [Nat.add_sub_cancel, timeAt_of_get hbefore] at hcloses hbegin hend
      rw [timeAt_of_get hlast] at hcloses
      rw [timeAt_of_get hraw] at hbegin hend
      have hlater : minuteOf samples[m].sampledAtMs < minuteOf samples[m + 1].sampledAtMs := by
        rw [UInt64.lt_iff_toNat_lt, toNat_minuteOf, toNat_minuteOf]
        exact hcloses
      have hsep := Windows.start_add_le hcloses
      have hlastLt := samples[m + 1].sampledAtMs.toNat_lt
      have hstartLe := Windows.start_le (w := 60000) samples[m + 1].sampledAtMs.toNat
      rw [← toNat_minuteOf] at hbegin hend hsep
      have hadd : (saturatingAdd64 (minuteOf samples[m].sampledAtMs) 60000).toNat =
          (minuteOf samples[m].sampledAtMs).toNat + 60000 :=
        toNat_saturatingAdd64 (Nat.lt_of_le_of_lt (hsep.trans hstartLe) hlastLt)
      -- the frame of the sample is in the history by then
      have hframes := frames_runWorker hempty (allKept_take hempty hkept (m + 1 + 1))
      have htime := @getElem?_framesOf layout samples i
      rw [hraw, Option.map_some] at htime
      obtain ⟨frame, hframe, hsampled⟩ := Option.map_eq_some_iff.mp htime
      have hmem : frame ∈ (runWorker layout initial (samples.take (m + 1 + 1))).history.frames := by
        rw [hframes, framesOf_take]
        refine List.mem_of_getElem? (i := i) ?_
        rw [List.getElem?_take, if_pos (by omega)]
        exact hframe
      have hlow : minuteOf samples[m].sampledAtMs < frame.sampledAtMs := by
        rw [hsampled]
        exact UInt64.lt_iff_toNat_lt.mpr hbegin
      have hhigh : frame.sampledAtMs ≤ saturatingAdd64 (minuteOf samples[m].sampledAtMs) 60000 := by
        rw [hsampled, UInt64.le_iff_toNat_le, hadd]
        exact hend
      obtain ⟨record, hrecord⟩ := exists_buildMinuteRecord hmem hlow hhigh
      refine ⟨minuteOf samples[m].sampledAtMs, record, samples[i], ?_, hle, hraw,
        UInt64.lt_iff_toNat_lt.mpr hbegin, hend⟩
      exact completes_iff.mpr ⟨_, hlast, minuteStart_take hbefore, hlater, hrecord⟩

/-- A sample is counted in exactly one record, once a later minute has begun, if and only if it is
on time. -/
theorem counted_once_iff (hempty : initial.frames = [])
    (hkept : AllKept samples (runWorker layout initial samples).history.frames)
    (horder : InOrder samples) {i j : Nat} {later : RawSample} (hbefore : samples[i]? = some before)
    (hraw : samples[i + 1]? = some raw) (hlater : samples[j]? = some later)
    (hminute : (minuteOf raw.sampledAtMs).toNat < (minuteOf later.sampledAtMs).toNat) :
    (∃! n, CountedAt layout initial samples n (i + 1)) ↔ OnTime before raw := by
  have honTime : Windows.OnTime 60000 (timeAt samples) (i + 1) ↔ OnTime before raw := by
    rw [Windows.OnTime, Nat.add_sub_cancel, timeAt_of_get hraw, timeAt_of_get hbefore,
      ← toNat_minuteOf]
    rfl
  have hi := (List.getElem?_eq_some_iff.mp hraw).1
  have hj := (List.getElem?_eq_some_iff.mp hlater).1
  rw [← honTime]
  constructor
  · rintro ⟨n, hcounted, -⟩
    obtain ⟨hn, hcollects⟩ := (countedAt_iff hempty hkept _ _).mp hcounted
    exact Windows.onTime_of_collects horder.timeAt_le hn (Nat.le_add_left 1 i) hcollects
  · intro htime
    rw [toNat_minuteOf, toNat_minuteOf] at hminute
    obtain ⟨n, hn, hcollects⟩ := Windows.collects_exists horder.timeAt_le (by decide)
      (Nat.le_add_left 1 i) hi hj (by rw [timeAt_of_get hraw, timeAt_of_get hlater]; exact hminute)
      htime
    refine ⟨n, (countedAt_iff hempty hkept _ _).mpr ⟨hn, hcollects⟩, fun m hm => ?_⟩
    obtain ⟨hm, hcollects'⟩ := (countedAt_iff hempty hkept _ _).mp hm
    exact Windows.collects_unique horder.timeAt_le hm hn hcollects' hcollects

/-- What a record says is what the samples of its minute say that had come by then. -/
theorem record_of_completes (hempty : initial.frames = [])
    (hkept : AllKept samples (runWorker layout initial samples).history.frames) {n : Nat}
    {startMs : UInt64} {record : MinuteRecord}
    (h : Completes layout initial samples n startMs record) (scope : TrendScope) :
    (runWorker layout initial (samples.take (n + 1))).history.frames =
        (framesOf layout none samples).take (n + 1) ∧
      ∀ point ∈ pointsOf scope record, Summarizes ((minuteFrames
        (runWorker layout initial (samples.take (n + 1))).history scope startMs).map Prod.snd)
          point := by
  obtain ⟨raw, -, -, -, hrecord⟩ := completes_iff.mp h
  refine ⟨?_, (pointsOf_of_buildMinuteRecord hrecord).2⟩
  rw [frames_runWorker hempty (allKept_take hempty hkept (n + 1)), framesOf_take]

end counted

/-- As long as the history keeps all, what has been sampled is in the minute records: a sample
is in exactly one of them if and only if it is on time, and when all are, the records add up to
what the samples add up to. -/
theorem rollup_conserves {maxBytes maxAgeMs maxFrames : Nat}
    (hlimits : withLimits layout maxBytes maxAgeMs maxFrames = some initial)
    (horder : InOrder samples)
    (hkept : AllKept samples (runWorker layout initial samples).history.frames) :
    (∀ n startMs record, Completes layout initial samples n startMs record → ∀ scope,
      (runWorker layout initial (samples.take (n + 1))).history.frames =
          (framesOf layout none samples).take (n + 1) ∧
        ∀ point ∈ pointsOf scope record, Summarizes ((minuteFrames
          (runWorker layout initial (samples.take (n + 1))).history scope startMs).map Prod.snd)
            point) ∧
    (∀ (i j : Nat) (before raw later : RawSample), samples[i]? = some before →
      samples[i + 1]? = some raw → samples[j]? = some later →
      (minuteOf raw.sampledAtMs).toNat + 60000 < (minuteOf later.sampledAtMs).toNat →
      ((∃! n, CountedAt layout initial samples n (i + 1)) ↔ OnTime before raw)) ∧
    (AllOnTime samples → ∀ last, samples.getLast? = some last → ∀ scope,
      ((∀ startMs, minuteDelta (·.readBytesDelta) scope (framesOf layout none samples) startMs <
          2 ^ 64) →
        (((runWorker layout initial samples).records.flatMap (pointsOf scope)).map
          (·.readBytes.toNat)).sum = deltaUpTo (·.readBytesDelta) scope
            (framesOf layout none samples) (minuteOf last.sampledAtMs)) ∧
      ((∀ startMs, minuteDelta (·.writeBytesDelta) scope (framesOf layout none samples) startMs <
          2 ^ 64) →
        (((runWorker layout initial samples).records.flatMap (pointsOf scope)).map
          (·.writeBytes.toNat)).sum = deltaUpTo (·.writeBytesDelta) scope
            (framesOf layout none samples) (minuteOf last.sampledAtMs))) := by
  have hempty : initial.frames = [] := by
    have hbounded := (bounded_withLimits hlimits).1.suffix
    obtain ⟨kept, hsuffix, hkept⟩ := hbounded
    rw [List.suffix_nil] at hsuffix
    rw [hsuffix] at hkept
    exact List.forall₂_nil_left_iff.mp hkept
  refine ⟨fun n startMs record h scope => record_of_completes hempty hkept h scope, ?_, ?_⟩
  · intro i j before raw later hbefore hraw hlater hminute
    exact counted_once_iff hempty hkept horder hbefore hraw hlater (by omega)
  · intro hontime last hlast scope
    exact ⟨fun hfits => sum_records hempty (fun _ _ h => h.read) (fun _ _ => rfl) hkept horder
      hontime hfits hlast, fun hfits => sum_records hempty (fun _ _ h => h.write)
      (fun _ _ => rfl) hkept horder hontime hfits hlast⟩

def sampledAt (ms : UInt64) : RawSample :=
  { sampleWith [] with sampledAtMs := ms, monotonicMs := ms }

def hourHistory : BoundedHistory where
  frames := []
  memoryBytes := 152
  baseBytes := 152
  maxBytes := 1000000
  maxAgeMs := 3600000
  maxFrames := 10

theorem sampled_two_minutes : ∃! n, CountedAt wordLayout hourHistory
    [sampledAt 30000, sampledAt 90000, sampledAt 240001] n 1 :=
  (rollup_conserves (show withLimits wordLayout 1000000 3600000 10 = some hourHistory from rfl)
    (show InOrder [sampledAt 30000, sampledAt 90000, sampledAt 240001] by unfold InOrder; decide)
    (.cons rfl (.cons rfl (.cons rfl .nil)))).2.1 0 2 (sampledAt 30000) (sampledAt 90000)
      (sampledAt 240001) rfl rfl rfl (by decide) |>.mpr (Or.inl (by decide))

/-- A sample at the very start of a minute, after a gap, is in no record. -/
theorem rollup_drops :
    let samples := [sampledAt 30000, sampledAt 180000, sampledAt 300001]
    withLimits wordLayout 1000000 3600000 10 = some hourHistory ∧ InOrder samples ∧
      AllKept samples (runWorker wordLayout hourHistory samples).history.frames ∧
      (minuteOf 180000).toNat + 60000 < (minuteOf 300001).toNat ∧
      ¬ ∃ n, CountedAt wordLayout hourHistory samples n 1 := by
  have horder : InOrder [sampledAt 30000, sampledAt 180000, sampledAt 300001] := by
    unfold InOrder
    decide
  have hkept : AllKept [sampledAt 30000, sampledAt 180000, sampledAt 300001]
      (runWorker wordLayout hourHistory
        [sampledAt 30000, sampledAt 180000, sampledAt 300001]).history.frames :=
    .cons rfl (.cons rfl (.cons rfl .nil))
  refine ⟨rfl, horder, hkept, by decide, ?_⟩
  rintro ⟨n, hcounted⟩
  obtain ⟨hn, hcollects⟩ := (countedAt_iff rfl hkept n 1).mp hcounted
  have htime := Windows.onTime_of_collects horder.timeAt_le hn le_rfl hcollects
  revert htime
  unfold Windows.OnTime
  decide

end Dashboard
end PersistShell

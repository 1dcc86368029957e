import PersistShell.Dashboard.Eviction

/-! The storage of the metrics when no write fails: what its segments hold is what was appended to
them, in the order of time, and a load returns all of it. -/

namespace PersistShell
open Program Run

namespace Metric

section orderly

/-- A segment of records of its own hour, in the order of time. -/
def Orderly (limits : StorageLimits) (path : Nat) (content : Bytes) (records : List MinuteRecord) :
    Prop :=
  ∃ hourStartMs : UInt64, hourStartMs.toNat = (parseSegmentName path).1 ∧
    SegmentReads limits hourStartMs content records [] ∧
    (∀ record ∈ records, hourStart record.timestampMs = hourStartMs) ∧
    records.Pairwise fun a b => a.timestampMs ≤ b.timestampMs

/-- The records that were appended to a segment, the oldest first. -/
def heldIn (appended : List (Nat × MinuteRecord)) (path : Nat) : List MinuteRecord :=
  ((appended.filter (·.1 = path)).map Prod.snd).reverse

/-- The segments hold the records that were appended to them, and no others. -/
structure Shelved (limits : StorageLimits) (appended : List (Nat × MinuteRecord))
    (segments : Std.ExtTreeMap Nat Bytes) : Prop where
  orderly : ∀ (path : Nat) (content : Bytes), segments[path]? = some content →
    Orderly limits path content (heldIn appended path)
  there : ∀ a ∈ appended, ∃ content, segments[a.1]? = some content

/-- The segment that is appended to is known as it is. -/
structure Known (appended : List (Nat × MinuteRecord)) (current : CurrentSegment)
    (lastTimestampMs : Option UInt64) (segments : Std.ExtTreeMap Nat Bytes) : Prop where
  hour : current.hourStartMs.toNat = (parseSegmentName current.path).1
  bytes : segments[current.path]?.map List.length = some current.bytes
  last : (heldIn appended current.path).getLast?.map MinuteRecord.timestampMs = lastTimestampMs

structure Retained (limits : StorageLimits) (appended : List (Nat × MinuteRecord))
    (m : MetricsState) : Prop where
  writes : ∀ w ∈ m.writes, w = .whole
  shelved : Shelved limits appended m.segments
  known : ∀ current, m.storage.current = some current →
    Known appended current m.storage.lastTimestampMs m.segments

variable {limits : StorageLimits} {appended : List (Nat × MinuteRecord)} {path : Nat}
  {record : MinuteRecord} {m : MetricsState}

theorem heldIn_cons (path : Nat) (record : MinuteRecord) (appended : List (Nat × MinuteRecord)) :
    heldIn ((path, record) :: appended) path = heldIn appended path ++ [record] := by
  rw [heldIn, List.filter_cons, if_pos (decide_eq_true rfl), List.map_cons, List.reverse_cons,
    heldIn]

theorem heldIn_cons_of_ne {other : Nat} (h : other ≠ path) (record : MinuteRecord)
    (appended : List (Nat × MinuteRecord)) :
    heldIn ((other, record) :: appended) path = heldIn appended path := by
  rw [heldIn, List.filter_cons, if_neg fun hsame => h (of_decide_eq_true hsame), heldIn]

theorem Shelved.heldIn_nil {segments : Std.ExtTreeMap Nat Bytes}
    (h : Shelved limits appended segments) (habsent : segments[path]? = none) :
    heldIn appended path = [] := by
  rw [heldIn, List.filter_eq_nil_iff.mpr fun a ha hpath => ?_]
  · rfl
  · obtain ⟨content, hthere⟩ := h.there a ha
    rw [of_decide_eq_true hpath, habsent] at hthere
    cases hthere

end orderly

section read

variable {limits : StorageLimits} {appended : List (Nat × MinuteRecord)} {path : Nat}
  {content : Bytes} {m : MetricsState}

/-- Nothing is repaired of a segment that is in order. -/
theorem Shelved.repair (h : Shelved limits appended m.segments)
    (hthere : m.segments[path]? = some content) :
    repairSegment limits path m = (.ok (heldIn appended path, false), m) := by
  obtain ⟨_, -, hreads, -, -⟩ := h.orderly path content hthere
  have hsame : (m.segments.alter path fun c => c.map (·.take content.length)) = m.segments := by
    refine Std.ExtTreeMap.ext_getElem? fun {a} => ?_
    rw [NatMap.get_alter]
    split
    · rename_i ha
      subst ha
      rw [hthere, Option.map_some, List.take_length]
    · rfl
  rw [repairSegment_apply, hthere]
  dsimp only
  rw [hreads.readSegment]
  dsimp only [List.length_nil, Nat.sub_zero]
  rw [hsame]
  rfl

/-- A load returns the records of the segments by time, and skips and repairs none. -/
theorem Shelved.load (h : Shelved limits appended m.segments) :
    load limits m = (.ok
      { records := (m.segments.keys.flatMap (heldIn appended)).mergeSort
          fun a b => a.timestampMs ≤ b.timestampMs }, m) := by
  have hloop : ∀ (paths : List Nat) (records : List MinuteRecord),
      (∀ path ∈ paths, ∃ content, m.segments[path]? = some content) →
      paths.foldlM (loadSegment limits) { records } m =
        (.ok { records := records ++ paths.flatMap (heldIn appended) }, m) := by
    intro paths
    induction paths with
    | nil =>
      intro records _
      rw [List.flatMap_nil, List.append_nil]
      rfl
    | cons path paths ih =>
      intro records hpaths
      obtain ⟨content, hthere⟩ := hpaths path List.mem_cons_self
      have hrest := ih (records ++ heldIn appended path)
        fun other hother => hpaths other (List.mem_cons_of_mem _ hother)
      have hsegment : loadSegment limits { records } path m =
          (.ok { records := records ++ heldIn appended path }, m) := by
        unfold loadSegment
        rw [bind_apply, attempt_apply, h.repair hthere]
        rfl
      rw [List.foldlM_cons, bind_ok hsegment, hrest, List.flatMap_cons, List.append_assoc]
  have hall := hloop m.segments.keys [] fun path hpath => (NatMap.mem_keys_iff _ _).mp hpath
  unfold Metric.load segmentPaths
  rw [bind_ok (read_apply _ _), bind_ok hall]
  rfl

end read

section choose

variable {limits : StorageLimits} {appended : List (Nat × MinuteRecord)} {m : MetricsState}
  {hourStartMs timestampMs : UInt64} {size : Nat}

/-- A segment is resumed as it is. -/
theorem Shelved.resumeFrom (h : Shelved limits appended m.segments) (paths : List Nat)
    (hpaths : ∀ path ∈ paths, ∃ content, m.segments[path]? = some content) :
    ∃ found, resumeFrom limits hourStartMs timestampMs size paths m = (.ok found, m) ∧
      ∀ current last, found = some (current, last) → Known appended current last m.segments := by
  induction paths with
  | nil => exact ⟨none, rfl, fun _ _ hnone => by cases hnone⟩
  | cons path older ih =>
    obtain ⟨content, hthere⟩ := hpaths path List.mem_cons_self
    unfold Metric.resumeFrom
    split
    · exact ih fun other hother => hpaths other (List.mem_cons_of_mem _ hother)
    rename_i hname
    have hattempt : attempt (repairSegment limits path) m =
        (.ok (.ok (heldIn appended path, false)), m) := by
      rw [attempt_apply, h.repair hthere]
    rw [bind_ok hattempt]
    dsimp only
    rw [bind_ok (read_apply _ _)]
    split
    · exact ⟨none, rfl, fun _ _ hnone => by cases hnone⟩
    · refine ⟨_, rfl, fun current last hsome => ?_⟩
      cases hsome
      refine ⟨(Decidable.not_not.mp hname).symm, ?_, rfl⟩
      rw [hthere]
      rfl

theorem Retained.resume (h : Retained limits appended m) :
    ∃ storage, resume limits hourStartMs timestampMs size m = (.ok (), { m with storage }) ∧
      Retained limits appended { m with storage } := by
  unfold Metric.resume
  rw [bind_ok (read_apply _ _)]
  cases hcurrent : m.storage.current with
  | some current => exact ⟨m.storage, rfl, h⟩
  | none =>
    obtain ⟨found, hfrom, hfound⟩ : ∃ found,
        resumeFrom limits hourStartMs timestampMs size m.segments.keys.reverse m = (.ok found, m) ∧
          ∀ current last, found = some (current, last) → Known appended current last m.segments :=
      h.shelved.resumeFrom _ fun path hpath =>
        (NatMap.mem_keys_iff _ _).mp (List.mem_reverse.mp hpath)
    have hsegment : resumeSegment limits hourStartMs timestampMs size m = (.ok found, m) := by
      unfold resumeSegment segmentPaths
      rw [bind_ok (read_apply _ _)]
      exact hfrom
    dsimp only
    rw [bind_ok hsegment]
    cases found with
    | none => exact ⟨m.storage, rfl, h⟩
    | some found =>
      obtain ⟨current, last⟩ := found
      refine ⟨⟨some current, last⟩, rfl, h.writes, h.shelved, fun other hother => ?_⟩
      cases hother
      exact hfound current last rfl

theorem writeAll_whole {path : Nat} {bytes : Bytes} (h : ∀ w ∈ m.writes, w = .whole) :
    writeAll path bytes m =
      (.ok (), { m with segments := grown m.segments path bytes, writes := m.writes.tail }) := by
  have hwhole : m.writes.headD .whole = .whole := by
    cases hwrites : m.writes with
    | nil => rfl
    | cons w writes => exact h w (hwrites ▸ List.mem_cons_self)
  unfold writeAll
  dsimp only
  rw [hwhole]
  rfl

/-- A new segment has a header only, or nothing is created. -/
theorem createSegment_cases (limits : StorageLimits) (hourStartMs : UInt64)
    (hwrites : ∀ w ∈ m.writes, w = .whole) :
    (∃ e, createSegment limits hourStartMs m = (.err e, m)) ∨
    ∃ path segments, ∃ sequence : UInt32, (parseSegmentName path).1 = hourStartMs.toNat ∧
      m.segments[path]? = none ∧
      (∀ a : Nat, segments[a]? =
        if path = a then some (encodeSegmentHeader ⟨hourStartMs, sequence⟩) else m.segments[a]?) ∧
      createSegment limits hourStartMs m =
        (.ok { hourStartMs, path, bytes := segmentHeaderSize },
          { m with segments, writes := m.writes.tail }) := by
  unfold createSegment entryCount segmentPaths
  rw [bind_ok (read_apply _ _)]
  by_cases hfull : m.segments.size + m.others ≥ limits.maxDirectoryEntries
  · exact .inl ⟨_, bind_err (reject_err hfull m)⟩
  rw [bind_ok (reject_ok hfull m), bind_ok (read_apply _ _)]
  have hsequence := nextSequence_lt m.segments.keys hourStartMs
  generalize nextSequence m.segments.keys hourStartMs = sequence at hsequence
  by_cases hexists : segmentName hourStartMs sequence ∈ m.segments.keys
  · exact .inl ⟨_, bind_err (reject_err hexists m)⟩
  have habsent : m.segments[segmentName hourStartMs sequence]? = none := by
    cases hthere : m.segments[segmentName hourStartMs sequence]? with
    | none => rfl
    | some content => exact absurd ((NatMap.mem_keys_iff _ _).mpr ⟨content, hthere⟩) hexists
  refine .inr ⟨segmentName hourStartMs sequence,
    grown (m.segments.insert (segmentName hourStartMs sequence) []) (segmentName hourStartMs sequence)
      (encodeSegmentHeader ⟨hourStartMs, UInt32.ofNat sequence⟩), UInt32.ofNat sequence,
    parseSegmentName_segmentName hourStartMs hsequence, habsent, fun a => ?_, ?_⟩
  · rw [grown_get ((NatMap.get_insert _ _ _ _).trans (if_pos rfl)), NatMap.get_insert]
    split
    · rw [List.nil_append]
    · rfl
  · rw [bind_ok (reject_ok hexists m), bind_ok (update_apply _ _)]
    exact bind_ok (writeAll_whole hwrites)

/-- The current segment can take the record, and the others are as they were. -/
structure Receives (limits : StorageLimits) (appended : List (Nat × MinuteRecord))
    (record : MinuteRecord) (size : Nat) (current : CurrentSegment)
    (before : Std.ExtTreeMap Nat Bytes) (m : MetricsState) : Prop where
  writes : ∀ w ∈ m.writes, w = .whole
  shelved : Shelved limits appended m.segments
  opened : m.storage.current = some current
  hour : current.hourStartMs = hourStart record.timestampMs
  name : current.hourStartMs.toNat = (parseSegmentName current.path).1
  bytes : m.segments[current.path]?.map List.length = some current.bytes
  fits : current.bytes + size ≤ limits.maxSegmentBytes
  last : ∀ r ∈ heldIn appended current.path, r.timestampMs ≤ record.timestampMs
  stays : ∀ (path : Nat) (content : Bytes), before[path]? = some content →
    m.segments[path]? = some content
  old : ∀ (path : Nat) (content : Bytes), m.segments[path]? = some content →
    path ≠ current.path → before[path]? = some content

theorem le_getLast {records : List MinuteRecord} {timestampMs : UInt64}
    (hordered : records.Pairwise fun a b => a.timestampMs ≤ b.timestampMs)
    (hlast : ¬ (records.getLast?.map MinuteRecord.timestampMs).any (timestampMs < ·) = true) :
    ∀ r ∈ records, r.timestampMs ≤ timestampMs := by
  intro r hr
  obtain ⟨front, last, rfl⟩ : ∃ front last, records = front ++ [last] :=
    ⟨_, _, (List.dropLast_append_getLast (List.ne_nil_of_mem hr)).symm⟩
  rw [List.getLast?_concat, Option.map_some, Option.any_some, decide_eq_true_eq,
    UInt64.not_lt] at hlast
  rcases List.mem_append.mp hr with hfront | hsame
  · exact UInt64.le_trans
      ((List.pairwise_append.mp hordered).2.2 r hfront last (List.mem_singleton_self _)) hlast
  · rw [List.mem_singleton.mp hsame]
    exact hlast

theorem Shelved.created {segments segments' : Std.ExtTreeMap Nat Bytes} {path : Nat}
    {sequence : UInt32} (h : Shelved limits appended segments)
    (hfits : segmentHeaderSize ≤ limits.maxSegmentBytes)
    (hname : (parseSegmentName path).1 = hourStartMs.toNat) (habsent : segments[path]? = none)
    (hget : ∀ a : Nat, segments'[a]? =
      if path = a then some (encodeSegmentHeader ⟨hourStartMs, sequence⟩) else segments[a]?) :
    Shelved limits appended segments' where
  orderly := by
    intro other content hthere
    rw [hget] at hthere
    split at hthere
    · rename_i hsame
      subst hsame
      cases hthere
      rw [h.heldIn_nil habsent]
      exact ⟨hourStartMs, hname.symm, .fresh hfits sequence, fun _ hr => (by cases hr),
        List.Pairwise.nil⟩
    · exact h.orderly other content hthere
  there := by
    intro a ha
    obtain ⟨content, hthere⟩ := h.there a ha
    rw [hget]
    split
    · exact ⟨_, rfl⟩
    · exact ⟨content, hthere⟩

theorem Retained.renew {record : MinuteRecord} (h : Retained limits appended m)
    (hfits : segmentHeaderSize + size ≤ limits.maxSegmentBytes) :
    (∃ e, renew limits (hourStart record.timestampMs) record.timestampMs size m = (.err e, m)) ∨
    ∃ current m', renew limits (hourStart record.timestampMs) record.timestampMs size m =
        (.ok (), m') ∧
      Receives limits appended record size current m.segments m' := by
  unfold Metric.renew
  rw [bind_ok (read_apply _ _)]
  split
  · rcases createSegment_cases limits (hourStart record.timestampMs) h.writes with ⟨e, hcreate⟩ |
      ⟨path, segments, sequence, hname, habsent, hget, hcreate⟩
    · exact .inl ⟨e, bind_err hcreate⟩
    · refine .inr ⟨⟨hourStart record.timestampMs, path, segmentHeaderSize⟩, _, bind_ok hcreate, ?_⟩
      have hnew := (hget path).trans (if_pos rfl)
      refine ⟨fun w hw => h.writes w (List.mem_of_mem_tail hw),
        h.shelved.created (by omega) hname habsent hget, rfl, rfl, hname.symm, ?_, hfits, ?_, ?_, ?_⟩
      · dsimp only
        rw [hnew, Option.map_some, length_encodeSegmentHeader]
      · intro r hr
        rw [h.shelved.heldIn_nil habsent] at hr
        cases hr
      · intro other content hother
        refine (hget other).trans ((if_neg ?_).trans hother)
        rintro rfl
        cases habsent.symm.trans hother
      · intro other content hother hne
        exact (if_neg fun hsame => hne hsame.symm).symm.trans ((hget other).symm.trans hother)
  · rename_i hold
    rw [Bool.not_eq_true] at hold
    cases hcurrent : m.storage.current with
    | none =>
      rw [needsNew, hcurrent] at hold
      cases hold
    | some current =>
      have hknown := h.known current hcurrent
      rw [needsNew, hcurrent, Option.all_some, Bool.or_eq_false_iff, Bool.or_eq_false_iff,
        decide_eq_false_iff_not, decide_eq_false_iff_not] at hold
      obtain ⟨⟨hhour, hroom⟩, hlast⟩ := hold
      obtain ⟨content, hthere, -⟩ := Option.map_eq_some_iff.mp hknown.bytes
      obtain ⟨_, -, -, -, hordered⟩ := h.shelved.orderly current.path content hthere
      refine .inr ⟨current, m, rfl, h.writes, h.shelved, hcurrent, Decidable.not_not.mp hhour,
        hknown.hour, hknown.bytes, Nat.le_of_not_lt hroom, le_getLast hordered ?_,
        fun _ _ => id, fun _ _ hother _ => hother⟩
      rw [hknown.last, hlast]
      exact Bool.false_ne_true

end choose

section append

variable {limits : StorageLimits} {appended : List (Nat × MinuteRecord)} {m : MetricsState}
  {record : MinuteRecord} {bytes : Bytes}

/-- The record is written behind the others. -/
theorem Receives.store {current : CurrentSegment} {before : Std.ExtTreeMap Nat Bytes}
    (h : Receives limits appended record bytes.length current before m)
    (hframe : frameRecord record limits.maxRecordBytes = .ok bytes) :
    ∃ m' current', store bytes record.timestampMs m = (.ok (), m') ∧
      m'.storage.current = some current' ∧ current'.path = current.path ∧
      m'.segments = grown m.segments current.path bytes ∧
      Retained limits ((current.path, record) :: appended) m' ∧
      ∃ content, m'.segments[current.path]? = some content ∧
        content.length ≤ limits.maxSegmentBytes := by
  obtain ⟨content, hthere, hlength⟩ := Option.map_eq_some_iff.mp h.bytes
  obtain ⟨hourStartMs, hname, hreads, hhours, hordered⟩ := h.shelved.orderly current.path content hthere
  have hsame : hourStartMs = hourStart record.timestampMs := by
    apply UInt64.toNat_inj.mp
    rw [hname, ← h.name, h.hour]
  subst hsame
  have hfits := h.fits
  have hlater := hreads.append (by omega) (cut_framed hframe)
  have hget := grown_get hthere bytes
  have hnew := (hget current.path).trans (if_pos rfl)
  have hstore : Metric.store bytes record.timestampMs m = (.ok (), { m with
      segments := grown m.segments current.path bytes
      storage := ⟨some { current with bytes := current.bytes + bytes.length },
        some record.timestampMs⟩
      writes := m.writes.tail }) := by
    unfold Metric.store
    rw [bind_ok (read_apply _ _), h.opened, unwrap_some, bind_ok (pure_apply _ _),
      bind_ok (writeAll_whole h.writes)]
    rfl
  refine ⟨_, _, hstore, rfl, rfl, rfl, ⟨fun w hw => h.writes w (List.mem_of_mem_tail hw), ⟨?_, ?_⟩,
    ?_⟩, _, hnew, ?_⟩
  · intro path content' hpath
    rw [hget] at hpath
    split at hpath
    · rename_i hmine
      subst hmine
      cases hpath
      rw [heldIn_cons]
      refine ⟨_, hname, hlater, ?_, List.pairwise_append.mpr ⟨hordered, List.pairwise_singleton _ _,
        fun a ha b hb => ?_⟩⟩
      · intro r hr
        rcases List.mem_append.mp hr with hr | hr
        · exact hhours r hr
        · rw [List.mem_singleton.mp hr]
      · rw [List.mem_singleton.mp hb]
        exact h.last a ha
    · rename_i hother
      rw [heldIn_cons_of_ne hother]
      exact h.shelved.orderly path content' hpath
  · intro a ha
    dsimp only
    rw [hget]
    split
    · exact ⟨_, rfl⟩
    · rename_i hother
      rcases List.mem_cons.mp ha with rfl | ha
      · exact absurd rfl hother
      · exact h.shelved.there a ha
  · intro other hother
    cases hother
    refine ⟨h.name, ?_, ?_⟩
    · dsimp only
      rw [hnew, Option.map_some, List.length_append, hlength]
    · rw [heldIn_cons, List.getLast?_concat]
      rfl
  · rw [List.length_append]
    omega

theorem heldIn_kept {path : Nat} {content : Bytes} (h : m.segments[path]? = some content) :
    heldIn (kept appended m) path = heldIn appended path := by
  have hfilter : (kept appended m).filter (·.1 = path) = appended.filter (·.1 = path) := by
    rw [kept, List.filter_filter]
    refine List.filter_congr fun a _ => ?_
    by_cases hpath : a.1 = path
    · rw [hpath, (NatMap.contains_iff _ _).mpr ⟨content, h⟩, Bool.and_true]
    · rw [decide_eq_false hpath, Bool.false_and]
  rw [heldIn, hfilter, heldIn]

/-- The records of the segments that are evicted go with them. -/
theorem Retained.evicted {current : CurrentSegment} {segments : Std.ExtTreeMap Nat Bytes}
    (h : Retained limits appended m) (hcurrent : m.storage.current = some current)
    (hevicted : Evicted current.path m.segments segments) :
    Retained limits (kept appended { m with segments }) { m with segments } where
  writes := h.writes
  shelved := by
    refine ⟨fun path content hthere => ?_, fun a ha => ?_⟩
    · rw [heldIn_kept hthere]
      exact h.shelved.orderly path content (hevicted.same path content hthere)
    · exact (NatMap.contains_iff _ _).mp (List.mem_filter.mp ha).2
  known := by
    intro other hother
    cases hcurrent.symm.trans hother
    have hknown := h.known current hcurrent
    obtain ⟨content, hthere, hlength⟩ := Option.map_eq_some_iff.mp hknown.bytes
    have hkept := hevicted.kept hthere
    refine ⟨hknown.hour, ?_, ?_⟩
    · dsimp only
      rw [hkept, Option.map_some, hlength]
    · rw [heldIn_kept hkept]
      exact hknown.last

/-- What an append that returns leaves: the record is in the current segment, the limits are met,
and none but the oldest of the other segments are gone. -/
structure Rotated (limits : StorageLimits) (record : MinuteRecord) (current : CurrentSegment)
    (appended appended' : List (Nat × MinuteRecord)) (before after : Std.ExtTreeMap Nat Bytes) :
    Prop where
  met : Met limits after
  stored : heldIn appended' current.path = heldIn appended current.path ++ [record]
  there : ∃ content, after[current.path]? = some content
  same : ∀ (path : Nat) (content : Bytes), after[path]? = some content → path ≠ current.path →
    before[path]? = some content
  oldest : ∀ (path : Nat) (content : Bytes), before[path]? = some content → after[path]? = none →
    path ≠ current.path ∧ ∀ (other : Nat) (kept : Bytes), after[other]? = some kept →
      other ≠ current.path → path < other

theorem grown_get_of_ne {segments : Std.ExtTreeMap Nat Bytes} {path other : Nat}
    (h : path ≠ other) (bytes : Bytes) : (grown segments path bytes)[other]? = segments[other]? := by
  rw [grown, NatMap.get_alter, if_neg h]

theorem kept_of_there {segments : Std.ExtTreeMap Nat Bytes} (h : Shelved limits appended segments) :
    appended.filter (fun a => segments.contains a.1) = appended :=
  List.filter_eq_self.mpr fun a ha => (NatMap.contains_iff _ _).mpr (h.there a ha)

theorem Retained.append (h : Retained limits appended m) (record : MinuteRecord) (hsegments : 1 ≤ limits.maxSegments)
    (hlimits : limits.maxSegmentBytes ≤ limits.maxTotalBytes) :
    (∃ e m', append limits record m = (.err e, m') ∧ Retained limits (kept appended m') m') ∨
    ∃ current m', append limits record m = (.ok (), m') ∧ m'.storage.current = some current ∧
      Retained limits (kept ((current.path, record) :: appended) m') m' ∧
      Rotated limits record current appended (kept ((current.path, record) :: appended) m')
        m.segments m'.segments := by
  have hfailed : ∀ {m' : MetricsState}, Retained limits appended m' →
      Retained limits (kept appended m') m' := by
    intro m' h'
    rw [kept, kept_of_there h'.shelved]
    exact h'
  unfold Metric.append
  cases hframe : frameRecord record limits.maxRecordBytes with
  | error e => exact .inl ⟨_, m, rfl, hfailed h⟩
  | ok bytes =>
    rw [bind_ok (show (lift ((Except.ok bytes : Except _ _).mapError _) : MetricsProgram Bytes) m =
      (.ok bytes, m) from rfl)]
    by_cases hlarge : bytes.length + segmentHeaderSize > limits.maxSegmentBytes ∨
        bytes.length + segmentHeaderSize > limits.maxTotalBytes
    · exact .inl ⟨_, m, bind_err (reject_err hlarge m), hfailed h⟩
    rw [bind_ok (reject_ok hlarge m)]
    have hfits : segmentHeaderSize + bytes.length ≤ limits.maxSegmentBytes := by omega
    obtain ⟨storage, hresume, hresumed⟩ : ∃ storage, Metric.resume limits (hourStart record.timestampMs)
        record.timestampMs bytes.length m = (.ok (), { m with storage }) ∧
        Retained limits appended { m with storage } := h.resume
    rw [bind_ok hresume]
    rcases hresumed.renew hfits with ⟨e, hrenew⟩ | ⟨current, m', hrenew, hreceives⟩
    · exact .inl ⟨e, _, bind_err hrenew, hfailed hresumed⟩
    rw [bind_ok hrenew]
    obtain ⟨m'', current', hstore, hcurrent, hpath, hgrown, hretained, content, hthere, hsize⟩ :=
      hreceives.store hframe
    rw [bind_ok hstore]
    rw [← hpath] at hgrown hretained hthere
    obtain ⟨segments, hrotate, hmet, hevicted⟩ := rotateLoop_meets (Nat.lt_succ_self _) hcurrent
      hthere hsegments (Nat.le_trans hsize hlimits)
    have hkept := hevicted.kept hthere
    refine .inr ⟨current', { m'' with segments }, ?_, hcurrent, hretained.evicted hcurrent hevicted,
      hmet, ?_, ⟨content, hkept⟩, fun path content' hpath' hne => ?_, fun path content' hold hgone => ?_⟩
    · unfold rotate segmentPaths
      rw [bind_ok (read_apply _ _), Std.ExtTreeMap.length_keys]
      exact hrotate
    · have hheld : heldIn (kept ((current'.path, record) :: appended) { m'' with segments })
          current'.path = heldIn ((current'.path, record) :: appended) current'.path :=
        heldIn_kept hkept
      rw [hheld, heldIn_cons]
    · have hgone := hevicted.same path content' hpath'
      rw [hgrown, grown_get_of_ne hne.symm] at hgone
      exact hreceives.old path content' hgone fun hsame => hne (hsame.trans hpath.symm)
    · have hstays := hreceives.stays path content' hold
      by_cases hmine : current'.path = path
      · subst hmine
        cases hkept.symm.trans hgone
      · refine hevicted.oldest path content' ?_ hgone
        rw [hgrown, grown_get_of_ne hmine]
        exact hstays

end append

section runs

variable {limits : StorageLimits}

/-- No write fails. -/
def StorageRun.Unfailing (_ : StorageRun) : StorageAction → Prop
  | .append _ writes => ∀ w ∈ writes, w = .whole
  | _ => True

structure StorageRun.Sound (limits : StorageLimits) (s : StorageRun) : Prop where
  retained : Retained limits s.appended s.metrics
  valid : s.opened = true → 1 ≤ limits.maxSegments

theorem Retained.closed {appended : List (Nat × MinuteRecord)} {m : MetricsState}
    (h : Retained limits appended m) : Retained limits appended { m with storage := {} } :=
  ⟨h.writes, h.shelved, fun _ hcurrent => by cases hcurrent⟩

theorem openStorage_cases (limits : StorageLimits) (m : MetricsState) :
    (∃ e, openStorage limits m = (.err e, m)) ∨
      (1 ≤ limits.maxSegments ∧ openStorage limits m = (.ok (), { m with storage := {} })) := by
  unfold openStorage entryCount
  cases hvalid : validateLimits limits with
  | error e => exact .inl ⟨e, rfl⟩
  | ok u =>
    have hlimits := rejectIf_eq_ok.mp hvalid
    rw [bind_ok (show (lift (Except.ok u) : MetricsProgram Unit) m = (.ok (), m) from rfl),
      bind_ok (read_apply _ _)]
    by_cases hfull : m.segments.size + m.others > limits.maxDirectoryEntries
    · exact .inl ⟨_, bind_err (reject_err hfull m)⟩
    · exact .inr ⟨by omega, bind_ok (reject_ok hfull m)⟩

theorem sound_start (s : StorageRun) (h : s.Start) : s.Sound limits := by
  rw [h]
  refine ⟨⟨fun _ hw => (by cases hw), ⟨fun path content hthere => ?_, fun _ ha => (by cases ha)⟩,
    fun _ hcurrent => (by cases hcurrent)⟩, fun hopened => (by cases hopened)⟩
  rw [Std.ExtTreeMap.getElem?_empty] at hthere
  cases hthere

theorem sound_step (hlimits : limits.maxSegmentBytes ≤ limits.maxTotalBytes) (s : StorageRun)
    (a : StorageAction) (s' : StorageRun) (h : s.Sound limits) (hwhole : s.Unfailing a)
    (hstep : s.step limits a = some s') : s'.Sound limits := by
  cases a with
  | open_ =>
    dsimp only [StorageRun.step] at hstep
    split at hstep
    · cases hstep
    · rcases openStorage_cases limits s.metrics with ⟨e, hopen⟩ | ⟨hvalid, hopen⟩
      · rw [hopen] at hstep
        cases hstep
        exact h
      · rw [hopen] at hstep
        cases hstep
        exact ⟨h.retained.closed, fun _ => hvalid⟩
  | append record writes =>
    dsimp only [StorageRun.step] at hstep
    split at hstep
    · rename_i hopened
      have hbefore : Retained limits s.appended { s.metrics with writes } :=
        ⟨hwhole, h.retained.shelved, h.retained.known⟩
      rcases hbefore.append record (h.valid hopened) hlimits with
        ⟨e, m, happend, hretained⟩ | ⟨current, m, happend, hcurrent, hretained, -⟩
      · rw [happend] at hstep
        cases hstep
        exact ⟨hretained, h.valid⟩
      · rw [happend] at hstep
        dsimp only at hstep
        rw [hcurrent] at hstep
        cases hstep
        exact ⟨hretained, h.valid⟩
    · cases hstep
  | load =>
    dsimp only [StorageRun.step] at hstep
    split at hstep
    · rw [h.retained.shelved.load] at hstep
      cases hstep
      exact h
    · cases hstep
  | close =>
    dsimp only [StorageRun.step] at hstep
    split at hstep
    · cases hstep
      exact ⟨h.retained.closed, fun hopened => by cases hopened⟩
    · cases hstep

/-- After any appends, loads and re-opens: the segments hold what was appended to them in the order
of time, a load returns all of it, and an append that returns meets the limits by removing the
oldest of the other segments. The rotation ends when each segment could have been removed. -/
theorem metrics_retained (hlimits : limits.maxSegmentBytes ≤ limits.maxTotalBytes) (s : StorageRun)
    (h : Along (StorageRun.step limits) StorageRun.Unfailing StorageRun.Start s) :
    (∀ (path : Nat) (content : Bytes), s.metrics.segments[path]? = some content →
      Orderly limits path content (heldIn s.appended path)) ∧
    (∀ a ∈ s.appended, ∃ content, s.metrics.segments[a.1]? = some content) ∧
    load limits s.metrics = (.ok {
      records := (s.metrics.segments.keys.flatMap (heldIn s.appended)).mergeSort
        (fun a b => a.timestampMs ≤ b.timestampMs)
      skippedSegments := 0
      repairedTails := 0 }, s.metrics) ∧
    (∀ record writes s', s.Unfailing (.append record writes) →
      s.step limits (.append record writes) = some s' →
      (append limits record { s.metrics with writes }).1 = .ok () →
      ∃ current, s'.metrics.storage.current = some current ∧
        Rotated limits record current s.appended s'.appended s.metrics.segments
          s'.metrics.segments) ∧
    ∀ m rounds, m.segments.size < rounds → rotateLoop limits rounds m = rotate limits m := by
  have hs : s.Sound limits := h.invariant sound_start (sound_step hlimits)
  refine ⟨hs.retained.shelved.orderly, hs.retained.shelved.there, hs.retained.shelved.load, ?_, ?_⟩
  · intro record writes s' hwhole hstep hreturns
    dsimp only [StorageRun.step] at hstep
    split at hstep
    · rename_i hopened
      have hbefore : Retained limits s.appended { s.metrics with writes } :=
        ⟨hwhole, hs.retained.shelved, hs.retained.known⟩
      rcases hbefore.append record (hs.valid hopened) hlimits with
        ⟨e, m, happend, -⟩ | ⟨current, m, happend, hcurrent, -, hrotated⟩
      · rw [happend] at hreturns
        cases hreturns
      · rw [happend] at hstep
        dsimp only at hstep
        rw [hcurrent] at hstep
        cases hstep
        exact ⟨current, hcurrent, hrotated⟩
    · cases hstep
  · intro m rounds hrounds
    unfold rotate segmentPaths
    rw [bind_ok (read_apply _ _), Std.ExtTreeMap.length_keys]
    exact rotateLoop_enough m hrounds (Nat.lt_succ_self _)

/-- The first append to a new storage. -/
theorem sample_retained : ∃ s : StorageRun, (0, sample 1) ∈ s.appended ∧
    (∀ (path : Nat) (content : Bytes), s.metrics.segments[path]? = some content →
      Orderly {} path content (heldIn s.appended path)) ∧
    ∃ report, load {} s.metrics = (.ok report, s.metrics) ∧ report.skippedSegments = 0 := by
  obtain ⟨s, hstep, happended⟩ := sample_appended
  have hopen : newStorage.Unfailing .open_ := trivial
  have hwhole : StorageRun.Unfailing { newStorage with opened := true } (.append (sample 1) []) :=
    fun _ hw => by cases hw
  have hrun := (Along.start newStorage_start).step hopen newStorage_open |>.step hwhole hstep
  obtain ⟨horderly, -, hload, -⟩ := metrics_retained (Nat.le_refl _) s hrun
  exact ⟨s, happended, horderly, _, hload, rfl⟩

end runs

end Metric

end PersistShell

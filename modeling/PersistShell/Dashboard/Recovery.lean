import PersistShell.Dashboard.Segments

/-! What the storage knows of its segments, and what a load reads and repairs of them. -/

namespace PersistShell
open Program

namespace Metric

section files

variable (limits : StorageLimits)

/-- The content of a segment of this path, read as its name says. -/
def Readable (path : Nat) (content : Bytes) (records : List MinuteRecord) (torn : Bytes) : Prop :=
  ∃ hourStartMs : UInt64, hourStartMs.toNat = (parseSegmentName path).1 ∧
    SegmentReads limits hourStartMs content records torn

/-- The header of the segment was not written whole, or the segment can be read. -/
def Proper (path : Nat) (content : Bytes) : Prop :=
  content.length < segmentHeaderSize ∨ ∃ records torn, Readable limits path content records torn

/-- The segments hold the records that were appended to them. -/
structure Files (appended : List (Nat × MinuteRecord)) (segments : Std.ExtTreeMap Nat Bytes) :
    Prop where
  proper : ∀ path content, segments[path]? = some content → Proper limits path content
  holds : ∀ a ∈ appended, ∃ content records torn, segments[a.1]? = some content ∧
    Readable limits a.1 content records torn ∧ a.2 ∈ records

/-- The segment that is appended to has the bytes that were counted, and then torn ones. -/
def Follows (current : CurrentSegment) (segments : Std.ExtTreeMap Nat Bytes) : Prop :=
  current.hourStartMs.toNat = (parseSegmentName current.path).1 ∧
    ∃ content records torn, segments[current.path]? = some content ∧
      Readable limits current.path content records torn ∧
      content.length = current.bytes + torn.length

/-- There are no other bytes in the file than those that were counted. -/
def Untorn (current : CurrentSegment) (segments : Std.ExtTreeMap Nat Bytes) : Prop :=
  segments[current.path]?.map List.length = some current.bytes

structure Holds (appended : List (Nat × MinuteRecord)) (m : MetricsState) : Prop where
  files : Files limits appended m.segments
  current : ∀ current, m.storage.current = some current → Follows limits current m.segments

end files

variable {limits : StorageLimits} {appended : List (Nat × MinuteRecord)} {path : Nat}
  {content content' torn : Bytes} {records : List MinuteRecord}
  {segments segments' : Std.ExtTreeMap Nat Bytes} {current : CurrentSegment}

namespace Readable

variable {records' : List MinuteRecord} {torn' : Bytes}

theorem records_unique (h : Readable limits path content records torn)
    (h' : Readable limits path content records' torn') : records = records' := by
  obtain ⟨_, -, hreads⟩ := h
  obtain ⟨_, -, hreads'⟩ := h'
  exact hreads.records_unique hreads'

theorem torn_unique (h : Readable limits path content records torn)
    (h' : Readable limits path content records' torn') : torn.length = torn'.length := by
  obtain ⟨_, -, hreads⟩ := h
  obtain ⟨_, -, hreads'⟩ := h'
  exact hreads.torn_unique hreads'

theorem long (h : Readable limits path content records torn) :
    segmentHeaderSize ≤ content.length := by
  obtain ⟨_, -, hreads⟩ := h
  exact hreads.long

end Readable

/-- A file takes another content; what was read from it is still read. -/
theorem Files.replace (h : Files limits appended segments)
    (hsegments : ∀ a : Nat, segments'[a]? = if path = a then some content' else segments[a]?)
    (hproper : Proper limits path content')
    (hkept : ∀ content records torn, segments[path]? = some content →
      Readable limits path content records torn →
      ∃ records' torn', Readable limits path content' records' torn' ∧ records ⊆ records') :
    Files limits appended segments' where
  proper := by
    intro other content hthere
    rw [hsegments] at hthere
    split at hthere
    · rename_i hsame
      cases hthere
      exact hsame ▸ hproper
    · exact h.proper other content hthere
  holds := by
    intro a ha
    obtain ⟨content, records, torn, hthere, hreads, hmem⟩ := h.holds a ha
    rw [hsegments]
    split
    · rename_i hsame
      subst hsame
      obtain ⟨records', torn', hreads', hsub⟩ := hkept content records torn hthere hreads
      exact ⟨content', records', torn', rfl, hreads', hsub hmem⟩
    · exact ⟨content, records, torn, hthere, hreads, hmem⟩

/-- A file that nothing was read from takes another content. -/
theorem Files.put (h : Files limits appended segments)
    (hsegments : ∀ a : Nat, segments'[a]? = if path = a then some content' else segments[a]?)
    (hproper : Proper limits path content')
    (hshort : ∀ content, segments[path]? = some content → content.length < segmentHeaderSize) :
    Files limits appended segments' := by
  refine h.replace hsegments hproper fun content records torn hthere hreads => ?_
  have := hshort content hthere
  have := hreads.long
  omega

theorem Files.mono {fewer : List (Nat × MinuteRecord)} (h : Files limits appended segments)
    (hsub : fewer ⊆ appended) : Files limits fewer segments where
  proper := h.proper
  holds a ha := h.holds a (hsub ha)

/-- A record that is read from a segment has been appended to it. -/
theorem Files.cons {record : MinuteRecord} (h : Files limits appended segments)
    (hthere : segments[path]? = some content) (hreads : Readable limits path content records torn)
    (hmem : record ∈ records) : Files limits ((path, record) :: appended) segments where
  proper := h.proper
  holds := by
    intro a ha
    rcases List.mem_cons.mp ha with rfl | ha
    · exact ⟨content, records, torn, hthere, hreads, hmem⟩
    · exact h.holds a ha

theorem Follows.other (h : Follows limits current segments)
    (hsame : segments'[current.path]? = segments[current.path]?) :
    Follows limits current segments' := by
  obtain ⟨hhour, content, records, torn, hthere, hread⟩ := h
  exact ⟨hhour, content, records, torn, hsame.trans hthere, hread⟩

theorem Follows.untorn (h : Follows limits current segments) (huntorn : Untorn current segments) :
    ∃ content records, segments[current.path]? = some content ∧
      Readable limits current.path content records [] ∧ content.length = current.bytes := by
  obtain ⟨-, content, records, torn, hthere, hreads, hlength⟩ := h
  rw [Untorn, hthere, Option.map_some, Option.some.injEq] at huntorn
  have hnil : torn = [] := List.eq_nil_of_length_eq_zero (by omega)
  subst hnil
  exact ⟨content, records, hthere, hreads, huntorn⟩

section repair

theorem repairSegment_apply (m : MetricsState) :
    repairSegment limits path m = match m.segments[path]? with
      | none => (.err .notFound, m)
      | some content => match readSegment limits content with
        | .error e => (.err e, m)
        | .ok (records, torn) => (.ok (records, torn ≠ 0),
            { m with segments := m.segments.alter path fun c =>
                c.map (·.take (content.length - torn)) }) := by
  cases hthere : m.segments[path]? with
  | none =>
    unfold repairSegment
    rw [bind_ok (read_apply _ _), hthere]
    rfl
  | some content =>
    unfold repairSegment
    rw [bind_ok (read_apply _ _), hthere]
    dsimp only
    cases readSegment limits content with
    | error e => rfl
    | ok found => rfl

/-- A repaired segment has no torn bytes; one that cannot be read has no records. -/
theorem triple_repairSegment (limits : StorageLimits) (appended : List (Nat × MinuteRecord))
    (path : Nat) (storage : MetricStorage) :
    Triple (fun m => Holds limits appended m ∧ m.storage = storage) (repairSegment limits path)
      (fun r m => (Holds limits appended m ∧ m.storage = storage) ∧
        ∃ content, m.segments[path]? = some content ∧ Readable limits path content r.1 [])
      (fun _ m => (Holds limits appended m ∧ m.storage = storage) ∧
        ∀ content records torn, m.segments[path]? = some content →
          ¬ Readable limits path content records torn) := by
  rintro m ⟨h, hstorage⟩
  rw [repairSegment_apply]
  cases hthere : m.segments[path]? with
  | none => exact ⟨⟨h, hstorage⟩, fun _ _ _ hsome => by cases hthere.symm.trans hsome⟩
  | some content =>
    dsimp only
    rcases h.files.proper path content hthere with hshort | ⟨records, torn, hreads⟩
    · have herror : ∃ e, readSegment limits content = .error e := by
        unfold readSegment rejectIf
        rw [if_pos hshort]
        split
        · exact ⟨_, rfl⟩
        · exact ⟨_, rfl⟩
      obtain ⟨e, herror⟩ := herror
      rw [herror]
      refine ⟨⟨h, hstorage⟩, fun content' records torn hthere' hreads => ?_⟩
      cases hthere.symm.trans hthere'
      have := hreads.long
      omega
    · obtain ⟨hourStartMs, hhour, hread⟩ := hreads
      rw [hread.readSegment]
      have hreads : Readable limits path content records torn := ⟨hourStartMs, hhour, hread⟩
      have hrepaired : Readable limits path (content.take (content.length - torn.length))
          records [] := ⟨hourStartMs, hhour, hread.repair⟩
      have hget : ∀ a : Nat, (m.segments.alter path fun c =>
          c.map (·.take (content.length - torn.length)))[a]? =
            if path = a then some (content.take (content.length - torn.length))
            else m.segments[a]? := by
        intro a
        rw [NatMap.get_alter, hthere]
        rfl
      refine ⟨⟨⟨?_, ?_⟩, hstorage⟩, _, (hget path).trans (if_pos rfl), hrepaired⟩
      · refine h.files.replace hget (.inr ⟨records, [], hrepaired⟩) ?_
        intro content' records' torn' hthere' hreads'
        cases hthere.symm.trans hthere'
        exact ⟨records, [], hrepaired, by rw [hreads'.records_unique hreads]; exact List.Subset.refl _⟩
      · intro current hcurrent
        have hfollows := h.current current hcurrent
        by_cases hsame : path = current.path
        · subst hsame
          obtain ⟨hname, content', records', torn', hthere', hreads', hlength⟩ := hfollows
          cases hthere.symm.trans hthere'
          refine ⟨hname, _, records, [], (hget _).trans (if_pos rfl), hrepaired, ?_⟩
          have := hreads.torn_unique hreads'
          rw [List.length_take, List.length_nil]
          omega
        · exact hfollows.other ((hget _).trans (if_neg hsame))

end repair

section load

/-- What the loop of `load` has read and has still to read. -/
def Loading (limits : StorageLimits) (appended : List (Nat × MinuteRecord)) (paths : List Nat)
    (report : LoadReport) (m : MetricsState) : Prop :=
  Holds limits appended m ∧ ∀ a ∈ appended, a.1 ∈ paths ∨ a.2 ∈ report.records

theorem triple_loadSegment (limits : StorageLimits) (appended : List (Nat × MinuteRecord))
    (path : Nat) (paths : List Nat) (report : LoadReport) :
    Triple (Loading limits appended (path :: paths) report) (loadSegment limits report path)
      (Loading limits appended paths) (fun _ _ => False) := by
  refine Triple.each fun m ⟨h, hleft⟩ => ?_
  have hrepair := triple_repairSegment limits appended path m.storage
  refine Triple.bind ((hrepair.pre fun m' hm' => ?_).attempt) fun r => ?_
  · subst hm'
    exact ⟨h, rfl⟩
  · cases r with
    | error e =>
      refine Triple.pure fun m' ⟨⟨h', _⟩, hunread⟩ => ⟨h', fun a ha => ?_⟩
      rcases hleft a ha with hpath | hmem
      · rcases List.mem_cons.mp hpath with hsame | hpath
        · obtain ⟨content, records, torn, hthere, hreads, -⟩ := h'.files.holds a ha
          rw [hsame] at hthere hreads
          exact absurd hreads (hunread _ _ _ hthere)
        · exact .inl hpath
      · exact .inr hmem
    | ok found =>
      obtain ⟨records, repaired⟩ := found
      refine Triple.pure fun m' ⟨⟨h', _⟩, content, hthere, hreads⟩ => ⟨h', fun a ha => ?_⟩
      rcases hleft a ha with hpath | hmem
      · rcases List.mem_cons.mp hpath with hsame | hpath
        · obtain ⟨content', records', torn', hthere', hreads', hmem⟩ := h'.files.holds a ha
          rw [hsame] at hthere' hreads'
          cases hthere.symm.trans hthere'
          rw [hreads'.records_unique hreads] at hmem
          exact .inr (List.mem_append_right _ hmem)
        · exact .inl hpath
      · exact .inr (List.mem_append_left _ hmem)

theorem triple_load (limits : StorageLimits) (appended : List (Nat × MinuteRecord)) :
    Triple (Holds limits appended) (load limits)
      (fun report m => Holds limits appended m ∧ ∀ a ∈ appended, a.2 ∈ report.records)
      (fun _ _ => False) := by
  refine Triple.each fun m h => ?_
  refine Triple.bind (Q := fun paths m' => m' = m ∧ paths = m.segments.keys) ?_ fun paths => ?_
  · refine Triple.read fun m' hm' => ?_
    subst hm'
    exact ⟨rfl, rfl⟩
  · refine Triple.bind ((Triple.foldlM (triple_loadSegment limits appended) paths {}).pre ?_) fun report => ?_
    · rintro m' ⟨rfl, rfl⟩
      refine ⟨h, fun a ha => .inl ?_⟩
      obtain ⟨content, _, _, hthere, -⟩ := h.files.holds a ha
      exact (NatMap.mem_keys_iff _ _).mpr ⟨content, hthere⟩
    · refine Triple.pure fun m' ⟨h', hread⟩ => ⟨h', fun a ha => ?_⟩
      exact List.mem_mergeSort.mpr ((hread a ha).resolve_left List.not_mem_nil)

/-- A load reads all the records that have been appended. -/
theorem load_returns {m : MetricsState} (h : Holds limits appended m) :
    ∃ report m', load limits m = (.ok report, m') ∧ Holds limits appended m' ∧
      ∀ a ∈ appended, a.2 ∈ report.records := by
  have hload := triple_load limits appended m h
  revert hload
  rcases load limits m with ⟨report | e | _, m'⟩
  · exact fun h => ⟨report, m', rfl, h⟩
  · exact False.elim
  · exact False.elim

end load

end Metric

end PersistShell

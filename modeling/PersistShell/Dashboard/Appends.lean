import PersistShell.Dashboard.Recovery

/-! What an append leaves of the records that were appended before, however its writes end. -/

namespace PersistShell
open Program

namespace Metric

variable {limits : StorageLimits} {appended : List (Nat × MinuteRecord)}

section write

/-- The bytes that a write leaves at the end of a file. -/
def grown (segments : Std.ExtTreeMap Nat Bytes) (path : Nat) (bytes : Bytes) :
    Std.ExtTreeMap Nat Bytes :=
  segments.alter path fun content => content.map (· ++ bytes)

theorem grown_get {segments : Std.ExtTreeMap Nat Bytes} {path : Nat} {content : Bytes}
    (hthere : segments[path]? = some content) (bytes : Bytes) (a : Nat) :
    (grown segments path bytes)[a]? =
      if path = a then some (content ++ bytes) else segments[a]? := by
  rw [grown, NatMap.get_alter, hthere]
  rfl

variable {path : Nat} {bytes : Bytes} {P J : MetricsState → Prop} {Q : Unit → MetricsState → Prop}

/-- A write ends whole, or it leaves some of the bytes. -/
theorem within_writeAll (hbytes : 0 < bytes.length)
    (whole : ∀ m writes, P m →
      Q () { m with segments := grown m.segments path bytes, writes })
    (fails : ∀ m writes written, P m → written < bytes.length →
      J { m with segments := grown m.segments path (bytes.take written), writes })
    (dies : ∀ m writes written, P m → J { m with
      segments := grown m.segments path (bytes.take written), writes, storage := {} }) :
    Within P (writeAll path bytes) Q J := by
  intro m hm
  unfold writeAll
  dsimp only
  cases m.writes.headD .whole with
  | whole => exact whole m _ hm
  | fails written => exact fails m _ _ hm (by omega)
  | dies written => exact dies m _ written hm

end write

section create

variable {hourStartMs : UInt64}

/-- The segment that the next record goes to. -/
def Chosen (limits : StorageLimits) (hourStartMs : UInt64) (size : Nat) (current : CurrentSegment)
    (segments : Std.ExtTreeMap Nat Bytes) : Prop :=
  Follows limits current segments ∧ Untorn current segments ∧ current.hourStartMs = hourStartMs ∧
    current.bytes + size ≤ limits.maxSegmentBytes

theorem nextSequence_lt (paths : List Nat) (hourStartMs : UInt64) :
    nextSequence paths hourStartMs < 2 ^ 32 := by
  unfold nextSequence
  split
  · decide
  · omega

theorem parseSegmentName_segmentName (hourStartMs : UInt64) {sequence : Nat} (h : sequence < 2 ^ 32) :
    (parseSegmentName (segmentName hourStartMs sequence)).1 = hourStartMs.toNat := by
  change (hourStartMs.toNat * 2 ^ 32 + sequence) / 2 ^ 32 = hourStartMs.toNat
  omega

/-- The state in which a segment has been created, and its header is to be written. -/
structure Created (limits : StorageLimits) (appended : List (Nat × MinuteRecord)) (path : Nat)
    (m : MetricsState) : Prop where
  holds : Holds limits appended m
  empty : m.segments[path]? = some []
  other : ∀ current, m.storage.current = some current → current.path ≠ path

theorem Holds.create {path : Nat} {m : MetricsState} (h : Holds limits appended m)
    (habsent : path ∉ m.segments.keys) :
    Created limits appended path { m with segments := m.segments.insert path [] } := by
  have hget : ∀ a : Nat, (m.segments.insert path [])[a]? =
      if path = a then some [] else m.segments[a]? := fun a => NatMap.get_insert _ _ _ _
  have hnew : ∀ content, m.segments[path]? ≠ some content := fun content hthere =>
    habsent ((NatMap.mem_keys_iff _ _).mpr ⟨content, hthere⟩)
  have hother : ∀ current, m.storage.current = some current → current.path ≠ path := by
    rintro current hcurrent rfl
    obtain ⟨-, content, _, _, hthere, -⟩ := h.current current hcurrent
    exact hnew content hthere
  refine ⟨⟨?_, fun current hcurrent => ?_⟩, (hget path).trans (if_pos rfl), hother⟩
  · refine h.files.put hget (.inl (by decide)) fun content hthere => absurd hthere (hnew content)
  · exact (h.current current hcurrent).other
      ((hget _).trans (if_neg (hother current hcurrent).symm))

/-- The header is written to a new segment. -/
theorem Created.write {path : Nat} {m : MetricsState} (h : Created limits appended path m)
    {bytes : Bytes} (hproper : Proper limits path bytes) :
    Files limits appended (grown m.segments path bytes) ∧
      (∀ current, m.storage.current = some current →
        Follows limits current (grown m.segments path bytes)) := by
  have hget := grown_get h.empty bytes
  refine ⟨h.holds.files.put hget hproper fun content hthere => ?_, fun current hcurrent => ?_⟩
  · cases h.empty.symm.trans hthere
    decide
  · exact (h.holds.current current hcurrent).other
      ((hget _).trans (if_neg (h.other current hcurrent).symm))

theorem proper_header (hourStartMs : UInt64) {sequence : Nat} (hsequence : sequence < 2 ^ 32)
    (hfits : segmentHeaderSize ≤ limits.maxSegmentBytes) (written : Nat) :
    Proper limits (segmentName hourStartMs sequence)
      ((encodeSegmentHeader ⟨hourStartMs, UInt32.ofNat sequence⟩).take written) := by
  by_cases hpart : written < segmentHeaderSize
  · left
    rw [List.length_take]
    omega
  · right
    rw [List.take_of_length_le (by rw [length_encodeSegmentHeader]; omega)]
    exact ⟨[], [], hourStartMs, (parseSegmentName_segmentName _ hsequence).symm, .fresh hfits _⟩

theorem within_createSegment {size : Nat}
    (hfits : segmentHeaderSize + size ≤ limits.maxSegmentBytes) :
    Within (Holds limits appended) (createSegment limits hourStartMs)
      (fun current m => Holds limits appended m ∧
        Chosen limits hourStartMs size current m.segments)
      (Holds limits appended) := by
  have hheader : segmentHeaderSize ≤ limits.maxSegmentBytes := by omega
  unfold createSegment entryCount segmentPaths
  refine Within.read_bind fun m h => ?_
  refine (Within.bind (Within.reject (fun _ hm => hm ▸ h) _ _) fun _ => ?_)
  refine Within.read_bind fun m' ⟨hm', _⟩ => ?_
  subst hm'
  have hsequence := nextSequence_lt m'.segments.keys hourStartMs
  generalize nextSequence m'.segments.keys hourStartMs = sequence at hsequence
  dsimp only
  refine Within.bind (Within.reject (fun _ hm => hm ▸ h) _ _) fun _ => ?_
  refine Within.bind (Q := fun _ m =>
    Created limits appended (segmentName hourStartMs sequence) m) ?_ fun _ => ?_
  · refine Within.update fun m ⟨hm, habsent⟩ => ?_
    subst hm
    exact h.create habsent
  · refine Within.bind (within_writeAll (Q := fun _ m => Holds limits appended m ∧
      m.segments[segmentName hourStartMs sequence]? =
        some (encodeSegmentHeader ⟨hourStartMs, UInt32.ofNat sequence⟩)) ?_ ?_ ?_ ?_) fun _ => ?_
    · rw [length_encodeSegmentHeader]
      decide
    · intro m writes hcreated
      have hproper := proper_header hourStartMs hsequence hheader segmentHeaderSize
      rw [List.take_of_length_le (Nat.le_of_eq (length_encodeSegmentHeader _))] at hproper
      obtain ⟨hfiles, hcurrent⟩ := hcreated.write hproper
      exact ⟨⟨hfiles, hcurrent⟩, (grown_get hcreated.empty _ _).trans (if_pos rfl)⟩
    · intro m writes written hcreated _
      obtain ⟨hfiles, hcurrent⟩ := hcreated.write (proper_header _ hsequence hheader written)
      exact ⟨hfiles, hcurrent⟩
    · intro m writes written hcreated
      obtain ⟨hfiles, -⟩ := hcreated.write (proper_header _ hsequence hheader written)
      exact ⟨hfiles, fun current hcurrent => by cases hcurrent⟩
    · refine Within.pure fun m ⟨hm, hthere⟩ => ⟨hm, ?_, ?_, rfl, hfits⟩
      · have hname := parseSegmentName_segmentName hourStartMs hsequence
        exact ⟨hname.symm, _, [], [], hthere, ⟨hourStartMs, hname.symm, .fresh hheader _⟩,
          length_encodeSegmentHeader _⟩
      · rw [Untorn, hthere, Option.map_some, length_encodeSegmentHeader]

end create

section choose

variable {hourStartMs timestampMs : UInt64} {size : Nat}

/-- The segment that the next record goes to has no torn bytes. -/
def Tidy (limits : StorageLimits) (hourStartMs timestampMs : UInt64) (size : Nat)
    (m : MetricsState) : Prop :=
  ∀ current, m.storage.current = some current →
    needsNew limits m.storage hourStartMs timestampMs size = false → Untorn current m.segments

/-- A segment is resumed as it was repaired. -/
theorem within_resumeFrom (storage : MetricStorage) (paths : List Nat) :
    Within (fun m => Holds limits appended m ∧ m.storage = storage)
      (resumeFrom limits hourStartMs timestampMs size paths)
      (fun found m => (Holds limits appended m ∧ m.storage = storage) ∧
        ∀ current last, found = some (current, last) →
          Follows limits current m.segments ∧ Untorn current m.segments)
      (Holds limits appended) := by
  induction paths with
  | nil => exact Within.pure fun _ hm => ⟨hm, fun _ _ h => by cases h⟩
  | cons path older ih =>
    unfold resumeFrom
    split
    · exact ih
    rename_i hname
    refine Within.bind (Q := fun r m => (Holds limits appended m ∧ m.storage = storage) ∧
      ∀ found, r = .ok found → ∃ content, m.segments[path]? = some content ∧
        Readable limits path content found.1 []) ?_ fun r => ?_
    · refine (triple_repairSegment limits appended path storage).attempt_within.post ?_
      rintro (e | found) m ⟨hm, hfound⟩
      · exact ⟨hm, fun _ h => by cases h⟩
      · exact ⟨hm, fun _ h => by cases h; exact hfound⟩
    · cases r with
      | error e => exact ih.pre fun _ hm => hm.1
      | ok found =>
        refine Within.read_bind fun m ⟨hm, hfound⟩ => ?_
        obtain ⟨content, hthere, hreads⟩ := hfound found rfl
        split
        · refine Within.pure fun m' hm' => ?_
          subst hm'
          exact ⟨hm, fun _ _ h => by cases h⟩
        · refine Within.pure fun m' hm' => ?_
          subst hm'
          refine ⟨hm, fun current last h => ?_⟩
          cases h
          refine ⟨⟨(Decidable.not_not.mp hname).symm, content, found.1, [], hthere, hreads, ?_⟩, ?_⟩
          · rw [hthere]
            rfl
          · rw [Untorn, hthere]
            rfl

theorem within_resume :
    Within (fun m => Holds limits appended m ∧ Tidy limits hourStartMs timestampMs size m)
      (resume limits hourStartMs timestampMs size)
      (fun _ m => Holds limits appended m ∧ Tidy limits hourStartMs timestampMs size m)
      (Holds limits appended) := by
  unfold resume
  refine Within.read_bind fun m hm => ?_
  cases hcurrent : m.storage.current with
  | some current =>
    refine Within.pure fun m' hm' => ?_
    subst hm'
    exact hm
  | none =>
    unfold resumeSegment segmentPaths
    refine Within.bind (Q := fun found m' => (Holds limits appended m' ∧ m'.storage = m.storage) ∧
      ∀ current last, found = some (current, last) →
        Follows limits current m'.segments ∧ Untorn current m'.segments) ?_ fun found => ?_
    · refine Within.read_bind fun m' hm' => ?_
      subst hm'
      refine (within_resumeFrom m'.storage _).pre fun m'' hm'' => ?_
      subst hm''
      exact ⟨hm.1, rfl⟩
    · cases found with
      | none =>
        refine Within.pure fun m' ⟨⟨h', hstorage⟩, _⟩ => ⟨h', fun current hsome => ?_⟩
        rw [hstorage, hcurrent] at hsome
        cases hsome
      | some found =>
        obtain ⟨current, last⟩ := found
        refine Within.update fun m' ⟨⟨h', hstorage⟩, hfound⟩ => ?_
        obtain ⟨hfollows, huntorn⟩ := hfound current last rfl
        refine ⟨⟨h'.files, fun other hother => ?_⟩, fun other hother _ => ?_⟩
        · cases hother
          exact hfollows
        · cases hother
          exact huntorn

/-- The storage is ready to write a record. -/
structure Ready (limits : StorageLimits) (appended : List (Nat × MinuteRecord))
    (hourStartMs : UInt64) (size : Nat) (m : MetricsState) : Prop where
  holds : Holds limits appended m
  chosen : ∃ current, m.storage.current = some current ∧
    Chosen limits hourStartMs size current m.segments

theorem within_renew (hfits : segmentHeaderSize + size ≤ limits.maxSegmentBytes) :
    Within (fun m => Holds limits appended m ∧ Tidy limits hourStartMs timestampMs size m)
      (renew limits hourStartMs timestampMs size)
      (fun _ => Ready limits appended hourStartMs size) (Holds limits appended) := by
  unfold renew
  refine Within.read_bind fun m ⟨h, htidy⟩ => ?_
  split
  · refine Within.bind ((within_createSegment hfits).pre fun m' hm' => ?_) fun current => ?_
    · subst hm'
      exact h
    · refine Within.update fun m' ⟨h', hchosen⟩ => ?_
      refine ⟨⟨h'.files, fun other hother => ?_⟩, current, rfl, hchosen⟩
      cases hother
      exact hchosen.1
  · rename_i hold
    refine Within.pure fun m' hm' => ?_
    subst hm'
    have hgoes := Bool.eq_false_iff.mpr hold
    cases hcurrent : m'.storage.current with
    | none =>
      rw [needsNew, hcurrent] at hgoes
      cases hgoes
    | some current =>
      have huntorn := htidy current hcurrent hgoes
      rw [needsNew, hcurrent, Option.all_some, Bool.or_eq_false_iff, Bool.or_eq_false_iff,
        decide_eq_false_iff_not, decide_eq_false_iff_not] at hgoes
      exact ⟨h, current, hcurrent, h.current current hcurrent, huntorn,
        Decidable.not_not.mp hgoes.1.1, Nat.le_of_not_lt hgoes.1.2⟩

end choose

section store

variable {record : MinuteRecord} {bytes : Bytes}

/-- A record is written to a segment that has no torn bytes. -/
theorem Chosen.write {current : CurrentSegment} {segments : Std.ExtTreeMap Nat Bytes}
    (hfiles : Files limits appended segments)
    (hchosen : Chosen limits (hourStart record.timestampMs) bytes.length current segments)
    (hframe : frameRecord record limits.maxRecordBytes = .ok bytes) :
    (∃ content records, (grown segments current.path bytes)[current.path]? = some content ∧
      Readable limits current.path content (records ++ [record]) [] ∧
      content.length = current.bytes + bytes.length ∧
      Files limits appended (grown segments current.path bytes)) ∧
    ∀ written, written < bytes.length →
      Files limits appended (grown segments current.path (bytes.take written)) ∧
      Follows limits current (grown segments current.path (bytes.take written)) := by
  obtain ⟨hfollows, huntorn, hhour, hfits⟩ := hchosen
  obtain ⟨content, records, hthere, hreads, hlength⟩ := hfollows.untorn huntorn
  obtain ⟨hourStartMs, hname, hread⟩ := hreads
  have hsame : hourStartMs = hourStart record.timestampMs := by
    apply UInt64.toNat_inj.mp
    rw [hname, ← hfollows.1, hhour]
  subst hsame
  -- what was read from the segment is still read behind the write
  have hkept : ∀ {more records' torn'}, more.length ≤ bytes.length →
      (recordFormat limits (hourStart record.timestampMs)).framing.cut more =
        ⟨records', torn', none⟩ →
      Readable limits current.path (content ++ more) (records ++ records') torn' ∧
        Files limits appended (grown segments current.path more) := by
    intro more records' torn' hmore hcut
    have hlater : Readable limits current.path (content ++ more) (records ++ records') torn' :=
      ⟨_, hname, hread.append (by omega) hcut⟩
    refine ⟨hlater, hfiles.replace (grown_get hthere more) (.inr ⟨_, _, hlater⟩) ?_⟩
    intro content' records'' torn'' hthere' hreads'
    cases hthere.symm.trans hthere'
    refine ⟨_, _, hlater, ?_⟩
    rw [hreads'.records_unique ⟨_, hname, hread⟩]
    exact List.subset_append_left _ _
  constructor
  · obtain ⟨hlater, hgrown⟩ := hkept (Nat.le_refl _) (cut_framed hframe)
    refine ⟨_, records, (grown_get hthere _ _).trans (if_pos rfl), hlater, ?_, hgrown⟩
    rw [List.length_append, hlength]
  · intro written hpart
    have htake : (bytes.take written).length ≤ bytes.length := by
      rw [List.length_take]
      omega
    obtain ⟨hlater, hgrown⟩ := hkept htake (cut_framed_take hframe hpart)
    refine ⟨hgrown, hfollows.1, _, _, _, (grown_get hthere _ _).trans (if_pos rfl), hlater, ?_⟩
    rw [List.length_append, hlength]

/-- The record has been appended to the segment that is gone on with. -/
def Appended (limits : StorageLimits) (appended : List (Nat × MinuteRecord))
    (record : MinuteRecord) (m : MetricsState) : Prop :=
  ∃ current, m.storage.current = some current ∧
    Holds limits ((current.path, record) :: appended) m

theorem within_store (hframe : frameRecord record limits.maxRecordBytes = .ok bytes) :
    Within (Ready limits appended (hourStart record.timestampMs) bytes.length)
      (store bytes record.timestampMs) (fun _ => Appended limits appended record)
      (Holds limits appended) := by
  have hbytes : 0 < bytes.length := by
    obtain ⟨-, -, -, rfl⟩ := frameRecord_eq_ok.mp hframe
    rw [length_framed]
    exact Nat.lt_of_lt_of_le (by decide) (Nat.le_add_right _ _)
  unfold store
  refine Within.read_bind fun m ⟨h, current, hcurrent, hchosen⟩ => ?_
  have hwrite := hchosen.write h.files hframe
  -- another segment than the one that is written to is not gone on with
  have honly : ∀ {P : CurrentSegment → Prop}, P current →
      ∀ other, m.storage.current = some other → P other := by
    intro P hP other hother
    cases hcurrent.symm.trans hother
    exact hP
  obtain ⟨⟨content, records, hthere, hreads, hlength, hgrown⟩, hpart⟩ := hwrite
  rw [hcurrent]
  refine Within.bind (Q := fun a m' => a = current ∧ m' = m)
    (Within.pure fun _ hm => ⟨rfl, hm⟩) fun a => ?_
  refine Within.bind (Q := fun _ m' => a = current ∧
    m'.segments = grown m.segments current.path bytes) (within_writeAll hbytes ?_ ?_ ?_) fun _ => ?_
  · rintro _ writes ⟨rfl, rfl⟩
    exact ⟨rfl, rfl⟩
  · rintro _ writes written ⟨rfl, rfl⟩ hshort
    exact ⟨(hpart written hshort).1, honly (hpart written hshort).2⟩
  · rintro _ writes written ⟨rfl, rfl⟩
    refine ⟨?_, fun other hother => by cases hother⟩
    by_cases hshort : written < bytes.length
    · exact (hpart written hshort).1
    · rw [List.take_of_length_le (Nat.le_of_not_lt hshort)]
      exact hgrown
  · refine Within.update fun m' ⟨ha, hsegments⟩ => ?_
    subst ha
    refine ⟨_, rfl, ?_, fun other hother => ?_⟩
    · change Files _ _ m'.segments
      rw [hsegments]
      exact hgrown.cons hthere hreads List.mem_concat_self
    · cases hother
      change Follows _ _ m'.segments
      rw [hsegments]
      exact ⟨hchosen.1.1, content, _, [], hthere, hreads, hlength⟩

end store

section rotate

/-- The records whose segments have not been evicted. -/
def kept (appended : List (Nat × MinuteRecord)) (m : MetricsState) : List (Nat × MinuteRecord) :=
  appended.filter fun a => m.segments.contains a.1

theorem Holds.kept {m : MetricsState} (h : Holds limits appended m) :
    Holds limits (kept appended m) m :=
  ⟨h.files.mono (List.filter_sublist.subset), h.current⟩

theorem Holds.of_cons_kept {m : MetricsState} {a : Nat × MinuteRecord}
    (h : Holds limits (Metric.kept (a :: appended) m) m) :
    Holds limits (Metric.kept appended m) m :=
  ⟨h.files.mono (List.filter_subset _ (List.subset_cons_self _ _)), h.current⟩

/-- The oldest segment goes, with the records that were appended to it. -/
theorem Holds.erase {m : MetricsState} {oldest : Nat}
    (h : Holds limits (Metric.kept appended m) m)
    (hother : ∀ current, m.storage.current = some current → oldest ≠ current.path) :
    Holds limits (Metric.kept appended { m with segments := m.segments.erase oldest })
      { m with segments := m.segments.erase oldest } where
  files := by
    have hget := NatMap.get_erase m.segments oldest
    constructor
    · intro path content hthere
      rw [hget] at hthere
      split at hthere
      · cases hthere
      · exact h.files.proper path content hthere
    · intro a ha
      obtain ⟨hmem, hcontains⟩ := List.mem_filter.mp ha
      obtain ⟨content, hthere⟩ := (NatMap.contains_iff _ _).mp hcontains
      rw [hget] at hthere
      split at hthere
      · cases hthere
      · rename_i hne
        have hold := h.files.holds a
          (List.mem_filter.mpr ⟨hmem, (NatMap.contains_iff _ _).mpr ⟨content, hthere⟩⟩)
        rw [hget, if_neg hne]
        exact hold
  current current hcurrent := (h.current current hcurrent).other
    ((NatMap.get_erase _ _ _).trans (if_neg (hother current hcurrent)))

theorem leaves_rotateLoop (rounds : Nat) (current : Option CurrentSegment) :
    Leaves (fun m => m.storage.current = current ∧ Holds limits (kept appended m) m)
      (rotateLoop limits rounds) := by
  induction rounds with
  | zero => exact Leaves.pure ()
  | succ rounds ih =>
    intro m hm
    unfold rotateLoop
    rw [bind_ok (read_apply _ _)]
    dsimp only [id]
    split
    · exact hm
    · cases hfind : m.segments.keys.find? fun path =>
          decide (m.storage.current.map CurrentSegment.path ≠ some path) with
      | none => exact hm
      | some oldest =>
        have hne : m.storage.current.map CurrentSegment.path ≠ some oldest := by
          have := List.find?_some hfind
          exact of_decide_eq_true this
        refine ih _ ⟨hm.1, hm.2.erase fun current hcurrent => ?_⟩
        rintro rfl
        exact hne (congrArg (Option.map CurrentSegment.path) hcurrent)

theorem leaves_rotate (current : Option CurrentSegment) :
    Leaves (fun m => m.storage.current = current ∧ Holds limits (kept appended m) m)
      (rotate limits) :=
  Leaves.bind (Leaves.read _) fun _ => leaves_rotateLoop _ current

end rotate

/-- The segment that the record would be written to has no torn bytes. -/
def CleanAppend (limits : StorageLimits) (record : MinuteRecord) (m : MetricsState) : Prop :=
  ∀ bytes, frameRecord record limits.maxRecordBytes = .ok bytes →
    Tidy limits (hourStart record.timestampMs) record.timestampMs bytes.length m

theorem within_append {record : MinuteRecord} :
    Within (fun m => Holds limits appended m ∧ CleanAppend limits record m) (append limits record)
      (fun _ m => ∃ current, m.storage.current = some current ∧
        Holds limits (kept ((current.path, record) :: appended) m) m)
      (fun m => Holds limits (kept appended m) m) := by
  unfold append
  refine Within.bind (Q := fun bytes m => frameRecord record limits.maxRecordBytes = .ok bytes ∧
    Holds limits appended m ∧ CleanAppend limits record m)
    (Within.lift (fun bytes hbytes m hm => ⟨?_, hm⟩) fun m hm => hm.1.kept) fun bytes => ?_
  · cases hframe : frameRecord record limits.maxRecordBytes with
    | error e =>
      rw [hframe] at hbytes
      cases hbytes
    | ok bytes' =>
      rw [hframe] at hbytes
      cases hbytes
      rfl
  refine Within.each fun m ⟨hframe, h, hclean⟩ => ?_
  have htidy := hclean bytes hframe
  refine Within.bind (Within.reject (fun _ hm => hm ▸ h.kept) _ _) fun _ => ?_
  refine Within.each fun m' ⟨hm', hfits⟩ => ?_
  subst hm'
  have hsize : segmentHeaderSize + bytes.length ≤ limits.maxSegmentBytes := by omega
  dsimp only
  refine Within.bind ((within_resume.weaken fun _ hm => hm.kept).pre fun m hm => ?_) fun _ =>
    Within.bind ((within_renew hsize).weaken fun _ hm => hm.kept) fun _ =>
    Within.bind ((within_store hframe).weaken fun _ hm => hm.kept) fun _ => ?_
  · subst hm
    exact ⟨h, htidy⟩
  refine Within.each fun m ⟨current, hcurrent, hstored⟩ => ?_
  intro m' hm'
  subst hm'
  have hrotated := leaves_rotate (some current) _ ⟨hcurrent, hstored.kept⟩
  revert hrotated
  rcases rotate limits m' with ⟨_ | _ | _, m''⟩
  · exact fun hm => ⟨current, hm⟩
  · exact fun hm => hm.2.of_cons_kept
  · exact fun hm => hm.2.of_cons_kept

end Metric

end PersistShell

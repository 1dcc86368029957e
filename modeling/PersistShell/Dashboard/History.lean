import Mathlib.Data.List.Sort
import PersistShell.Dashboard.Trend

/-! The history of the samples: it is bounded in its bytes, in its frames and in their age. -/

namespace PersistShell
namespace Dashboard

/-- `sort_unstable_by_key`: some order of the same elements in which the keys do not decrease. -/
structure UnstableSort {α : Type} (key : α → Nat) where
  run : List α → List α
  perm : ∀ l, (run l).Perm l
  sorted : ∀ l, (run l).Pairwise fun a b => key a ≤ key b

def sessionKey (session : DerivedSession) : Nat := session.metrics.sessionId.toNat

/-- What the compiler and the standard library decide: the sizes of the types, how much room
`with_capacity` reserves, and how the sort places equal keys. -/
structure HistoryLayout where
  selfBytes : Nat
  boxBytes : Nat
  sampleBytes : Nat
  sessionBytes : Nat
  session_pos : 0 < sessionBytes
  capacity : Nat → Nat
  le_capacity : ∀ n, n ≤ capacity n
  sortSessions : UnstableSort sessionKey

/-- The frames with the oldest one first. Sizes are those of values that are in memory at one
time, so that no sum of them overflows. -/
structure BoundedHistory where
  frames : List DerivedSample
  memoryBytes : Nat
  baseBytes : Nat
  maxBytes : Nat
  maxAgeMs : Nat
  maxFrames : Nat

section history

variable (layout : HistoryLayout)

/-- The sessions of a sample that has been limited have no room to spare. -/
def sampleBytes (sample : DerivedSample) : Nat :=
  layout.sampleBytes + sample.sessions.length * layout.sessionBytes

/-- `with_limits`; it asserts that there is room for a sample. -/
def withLimits (maxBytes maxAgeMs maxFrames : Nat) : Option BoundedHistory :=
  let maxFrames := max maxFrames 1
  let baseBytes := layout.selfBytes + layout.capacity maxFrames * layout.boxBytes
  if maxBytes ≥ baseBytes + layout.sampleBytes then
    some { frames := [], memoryBytes := baseBytes, baseBytes, maxBytes, maxAgeMs, maxFrames }
  else none

def limitSample (history : BoundedHistory) (sample : DerivedSample) : DerivedSample :=
  let sessions := layout.sortSessions.run sample.sessions
  let available := history.maxBytes - history.baseBytes - layout.sampleBytes
  let maxSessions := available / layout.sessionBytes
  if sessions.length > maxSessions then
    { sample with sessions := sessions.take maxSessions, completeness := .partial_ }
  else { sample with sessions }

/-- `while condition { pop_front }`, which ends when there is no frame left to be popped. -/
def popWhile (condition : BoundedHistory → Bool) (history : BoundedHistory) :
    List DerivedSample → BoundedHistory
  | [] => { history with frames := [] }
  | sample :: frames =>
    let current := { history with frames := sample :: frames }
    if condition current then
      popWhile condition
        { history with memoryBytes := history.memoryBytes - sampleBytes layout sample } frames
    else current

/-- The loop before the sample is put in. -/
def makeRoom (bytes : Nat) (history : BoundedHistory) : BoundedHistory :=
  popWhile layout (fun history => history.frames.length ≥ history.maxFrames ∨
    history.memoryBytes + bytes > history.maxBytes) history history.frames

/-- The loop after the sample was put in. -/
def dropOld (newest : Nat) (history : BoundedHistory) : BoundedHistory :=
  popWhile layout (fun history => history.frames.head?.any fun oldest =>
    newest - oldest.monotonicMs.toNat > history.maxAgeMs) history history.frames

def push (history : BoundedHistory) (sample : DerivedSample) : BoundedHistory :=
  let sample := limitSample layout history sample
  let bytes := sampleBytes layout sample
  let history := makeRoom layout bytes history
  dropOld layout sample.monotonicMs.toNat { history with
    memoryBytes := history.memoryBytes + bytes, frames := history.frames ++ [sample] }

end history

section invariant

variable {layout : HistoryLayout} {history : BoundedHistory} {pushed : List DerivedSample}
  {sample : DerivedSample}

/-- What is left of a sample: its sessions are in the order of their ids, and those of the
highest ids may be missing. -/
structure Kept (pushed kept : DerivedSample) : Prop where
  sampledAtMs : kept.sampledAtMs = pushed.sampledAtMs
  monotonicMs : kept.monotonicMs = pushed.monotonicMs
  daemon : kept.daemon = pushed.daemon
  sorted : kept.sessions.Pairwise fun a b => sessionKey a ≤ sessionKey b
  sessions : kept.sessions.Perm pushed.sessions ∧ kept.completeness = pushed.completeness ∨
    ∃ cut, cut ≠ [] ∧ (kept.sessions ++ cut).Perm pushed.sessions ∧
      (∀ a ∈ kept.sessions, ∀ b ∈ cut, sessionKey a ≤ sessionKey b) ∧
      kept.completeness = .partial_

/-- The bytes that the frames are counted with. -/
def framesBytes (layout : HistoryLayout) (frames : List DerivedSample) : Nat :=
  (frames.map (sampleBytes layout)).sum

/-- The limits that the constructor accepts. -/
structure Roomy (layout : HistoryLayout) (history : BoundedHistory) : Prop where
  sample : history.baseBytes + layout.sampleBytes ≤ history.maxBytes
  frame : 1 ≤ history.maxFrames

/-- What holds of a history after the samples that were pushed. -/
structure Bounded (layout : HistoryLayout) (pushed : List DerivedSample)
    (history : BoundedHistory) : Prop where
  roomy : Roomy layout history
  accounted : history.memoryBytes = history.baseBytes + framesBytes layout history.frames
  bytes : history.memoryBytes ≤ history.maxBytes
  frames : history.frames.length ≤ history.maxFrames
  suffix : ∃ kept, kept <:+ pushed ∧ List.Forall₂ Kept kept history.frames
  ordered : history.frames.Pairwise fun a b => a.monotonicMs ≤ b.monotonicMs
  newest : pushed ≠ [] → history.frames ≠ []
  young : ∀ newest ∈ pushed.getLast?, ∀ frame ∈ history.frames,
    newest.monotonicMs.toNat - frame.monotonicMs.toNat ≤ history.maxAgeMs

theorem framesBytes_cons (sample : DerivedSample) (frames : List DerivedSample) :
    framesBytes layout (sample :: frames) =
      sampleBytes layout sample + framesBytes layout frames := by
  rw [framesBytes, List.map_cons, List.sum_cons, ← framesBytes]

theorem framesBytes_append (frames : List DerivedSample) (sample : DerivedSample) :
    framesBytes layout (frames ++ [sample]) =
      framesBytes layout frames + sampleBytes layout sample := Summary.sum_append _ _ _

/-- The loop leaves a suffix of the frames, and counts what it leaves. -/
theorem popWhile_spec {condition : BoundedHistory → Bool} {frames : List DerivedSample}
    (haccounted : history.memoryBytes = history.baseBytes + framesBytes layout frames) :
    ∃ kept, kept <:+ frames ∧
      popWhile layout condition history frames = { history with
        frames := kept, memoryBytes := history.baseBytes + framesBytes layout kept } ∧
      (kept = [] ∨ condition (popWhile layout condition history frames) = false) := by
  induction frames generalizing history with
  | nil =>
    refine ⟨[], List.suffix_rfl, ?_, Or.inl rfl⟩
    rw [popWhile, ← haccounted]
  | cons sample frames ih =>
    rw [popWhile]
    split
    · have hless : history.memoryBytes - sampleBytes layout sample =
          history.baseBytes + framesBytes layout frames := by
        rw [haccounted, framesBytes_cons]
        omega
      obtain ⟨kept, hsuffix, hresult, hdone⟩ := @ih { history with
        memoryBytes := history.memoryBytes - sampleBytes layout sample } hless
      exact ⟨kept, hsuffix.trans (List.suffix_cons _ _), hresult, hdone⟩
    · rename_i hcondition
      refine ⟨sample :: frames, List.suffix_rfl, ?_, Or.inr (Bool.eq_false_of_not_eq_true hcondition)⟩
      rw [← haccounted]

theorem popWhile_ne_nil {condition : BoundedHistory → Bool} {last : DerivedSample}
    (hlast : ∀ history : BoundedHistory, history.frames = [last] → condition history = false)
    (frames : List DerivedSample) :
    (popWhile layout condition history (frames ++ [last])).frames ≠ [] := by
  induction frames generalizing history with
  | nil =>
    rw [List.nil_append, popWhile, hlast { history with frames := [last] } rfl]
    exact List.cons_ne_nil _ _
  | cons sample frames ih =>
    rw [List.cons_append, popWhile]
    split
    · exact ih
    · exact List.cons_ne_nil _ _

/-- A sample that has been limited fits into an empty history. -/
theorem sampleBytes_limitSample (h : Roomy layout history) :
    history.baseBytes + sampleBytes layout (limitSample layout history sample) ≤
      history.maxBytes := by
  have hroom := h.sample
  have hfit : ∀ n, n ≤ (history.maxBytes - history.baseBytes - layout.sampleBytes) /
      layout.sessionBytes → history.baseBytes + (layout.sampleBytes + n * layout.sessionBytes) ≤
        history.maxBytes := by
    intro n hn
    have hmul := (Nat.le_div_iff_mul_le layout.session_pos).mp hn
    omega
  unfold limitSample sampleBytes
  dsimp only
  split
  · exact hfit _ (List.length_take_le _ _)
  · rename_i hfew
    exact hfit _ (Nat.le_of_not_lt hfew)

theorem kept_limitSample : Kept sample (limitSample layout history sample) := by
  have hperm := layout.sortSessions.perm sample.sessions
  have hsorted := layout.sortSessions.sorted sample.sessions
  unfold limitSample
  dsimp only
  split
  · rename_i hmany
    generalize (history.maxBytes - history.baseBytes - layout.sampleBytes) / layout.sessionBytes = n
      at hmany ⊢
    have hsplit := List.take_append_drop n (layout.sortSessions.run sample.sessions)
    rw [← hsplit] at hperm hsorted
    rw [List.pairwise_append] at hsorted
    refine ⟨rfl, rfl, rfl, hsorted.1, Or.inr ⟨_, ?_, hperm, hsorted.2.2, rfl⟩⟩
    intro hnil
    have hlength := congrArg List.length hnil
    rw [List.length_drop, List.length_nil] at hlength
    omega
  · exact ⟨rfl, rfl, rfl, hsorted, Or.inl ⟨hperm, rfl⟩⟩

theorem forall₂_suffix {R : DerivedSample → DerivedSample → Prop} {l l' part : List DerivedSample}
    (h : List.Forall₂ R l l') (hpart : part <:+ l') : ∃ part', part' <:+ l ∧
      List.Forall₂ R part' part := by
  rw [List.suffix_iff_eq_drop.mp hpart]
  exact ⟨_, List.drop_suffix _ _, List.forall₂_drop _ h⟩

theorem Bounded.monotonicMs_of_mem (h : Bounded layout pushed history) {frame : DerivedSample}
    (hframe : frame ∈ history.frames) : ∃ p ∈ pushed, frame.monotonicMs = p.monotonicMs := by
  obtain ⟨kept, hsuffix, hkept⟩ := h.suffix
  obtain ⟨i, hi, rfl⟩ := List.getElem_of_mem hframe
  have hlength := hkept.length_eq
  exact ⟨kept[i], hsuffix.mem (List.getElem_mem _), (hkept.get (by omega) hi).monotonicMs⟩

/-- Before the sample is put in, there is room for it and for its bytes. -/
theorem makeRoom_spec (h : Bounded layout pushed history) (sample : DerivedSample) :
    ∃ kept, kept <:+ history.frames ∧
      makeRoom layout (sampleBytes layout (limitSample layout history sample)) history =
        { history with
          frames := kept, memoryBytes := history.baseBytes + framesBytes layout kept } ∧
      kept.length < history.maxFrames ∧
      history.baseBytes + framesBytes layout kept +
        sampleBytes layout (limitSample layout history sample) ≤ history.maxBytes := by
  obtain ⟨kept, hsuffix, hresult, hdone⟩ := @popWhile_spec layout _
    (fun current => current.frames.length ≥ current.maxFrames ∨
      current.memoryBytes + sampleBytes layout (limitSample layout history sample) >
        current.maxBytes) _ h.accounted
  refine ⟨kept, hsuffix, hresult, ?_⟩
  rcases hdone with rfl | hdone
  · exact ⟨h.roomy.frame, sampleBytes_limitSample h.roomy⟩
  · rw [hresult, decide_eq_false_iff_not, not_or] at hdone
    exact ⟨Nat.lt_of_not_le hdone.1, Nat.le_of_not_lt hdone.2⟩

/-- What the history is before the old frames are dropped. -/
theorem Bounded.put (h : Bounded layout pushed history) {kept : List DerivedSample}
    (hsuffix : kept <:+ history.frames) (hcount : kept.length < history.maxFrames)
    (hbytes : history.baseBytes + framesBytes layout kept +
      sampleBytes layout (limitSample layout history sample) ≤ history.maxBytes)
    (hlater : ∀ p ∈ pushed, p.monotonicMs ≤ sample.monotonicMs) :
    let frames := kept ++ [limitSample layout history sample]
    history.baseBytes + framesBytes layout frames ≤ history.maxBytes ∧
      frames.length ≤ history.maxFrames ∧
      (∃ part, part <:+ pushed ++ [sample] ∧ List.Forall₂ Kept part frames) ∧
      frames.Pairwise fun a b => a.monotonicMs ≤ b.monotonicMs := by
  refine ⟨?_, ?_, ?_, ?_⟩
  · rw [framesBytes_append]
    omega
  · rw [List.length_append, List.length_singleton]
    exact hcount
  · obtain ⟨whole, hwhole, hkept⟩ := h.suffix
    obtain ⟨part, hpart, hkept⟩ := forall₂_suffix hkept hsuffix
    obtain ⟨front, hfront⟩ := hpart.trans hwhole
    refine ⟨part ++ [sample], ⟨front, by rw [← List.append_assoc, hfront]⟩, ?_⟩
    exact List.rel_append hkept (.cons kept_limitSample .nil)
  · refine List.pairwise_append.mpr ⟨h.ordered.sublist hsuffix.sublist, List.pairwise_singleton _ _,
      fun a ha b hb => ?_⟩
    obtain ⟨p, hp, heq⟩ := h.monotonicMs_of_mem (hsuffix.mem ha)
    have hlimited : (limitSample layout history sample).monotonicMs = sample.monotonicMs :=
      kept_limitSample.monotonicMs
    rw [List.mem_singleton.mp hb, heq, hlimited]
    exact hlater p hp

theorem Bounded.push (h : Bounded layout pushed history)
    (hlater : ∀ p ∈ pushed, p.monotonicMs ≤ sample.monotonicMs) :
    Bounded layout (pushed ++ [sample]) (push layout history sample) := by
  obtain ⟨kept, hsuffix, hroom, hcount, hbytes⟩ := makeRoom_spec h sample
  obtain ⟨hfits, hfew, ⟨part, hpart, hkept⟩, hordered⟩ := h.put hsuffix hcount hbytes hlater
  have hlimited : (limitSample layout history sample).monotonicMs = sample.monotonicMs :=
    kept_limitSample.monotonicMs
  -- the loop over the old frames begins with a history that is counted as it should be
  let full : BoundedHistory := { history with
    frames := kept ++ [limitSample layout history sample]
    memoryBytes := history.baseBytes + framesBytes layout kept +
      sampleBytes layout (limitSample layout history sample) }
  have hpush : Dashboard.push layout history sample =
      dropOld layout sample.monotonicMs.toNat full := by
    rw [Dashboard.push, hroom, hlimited]
  have haccounted : full.memoryBytes = full.baseBytes + framesBytes layout full.frames := by
    rw [framesBytes_append, ← Nat.add_assoc]
  obtain ⟨left, hleft, hresult, hdone⟩ := @popWhile_spec layout _
    (fun history => history.frames.head?.any fun oldest =>
      sample.monotonicMs.toNat - oldest.monotonicMs.toNat > history.maxAgeMs) _ haccounted
  have hnewest : (dropOld layout sample.monotonicMs.toNat full).frames ≠ [] := by
    refine popWhile_ne_nil (fun history hframes => ?_) kept
    rw [hframes, List.head?_cons, Option.any_some, decide_eq_false_iff_not, hlimited, Nat.sub_self]
    exact Nat.not_lt_zero _
  have hframes : (dropOld layout sample.monotonicMs.toNat full).frames = left :=
    congrArg BoundedHistory.frames hresult
  rw [hframes] at hnewest
  rw [hpush]
  change Bounded layout _ (popWhile layout _ full full.frames)
  rw [hresult]
  rw [hresult] at hdone
  have hless : framesBytes layout left ≤ framesBytes layout full.frames :=
    (hleft.sublist.map _).sum_le_sum fun _ _ => Nat.zero_le _
  refine ⟨⟨h.roomy.sample, h.roomy.frame⟩, rfl, (Nat.add_le_add_left hless _).trans hfits,
    hleft.length_le.trans hfew, ?_, hordered.sublist hleft.sublist, fun _ => hnewest, ?_⟩
  · obtain ⟨part', hpart', hkept'⟩ := forall₂_suffix hkept hleft
    exact ⟨part', hpart'.trans hpart, hkept'⟩
  · intro newest hlast frame hframe
    rw [List.getLast?_append, List.getLast?_singleton, Option.some_or, Option.mem_some] at hlast
    subst hlast
    -- the oldest frame that is left is young enough, and the others are younger
    cases left with
    | nil => cases hframe
    | cons oldest later =>
      have hyoung := hdone.resolve_left (List.cons_ne_nil _ _)
      rw [List.head?_cons, Option.any_some, decide_eq_false_iff_not, Nat.not_lt] at hyoung
      have hage : oldest.monotonicMs ≤ frame.monotonicMs := by
        rcases List.mem_cons.mp hframe with rfl | hmem
        · exact UInt64.le_refl _
        · exact (List.pairwise_cons.mp (hordered.sublist hleft.sublist)).1 frame hmem
      have hnat := UInt64.le_iff_toNat_le.mp hage
      dsimp only at hyoung ⊢
      omega

theorem bounded_withLimits {maxBytes maxAgeMs maxFrames : Nat}
    (h : withLimits layout maxBytes maxAgeMs maxFrames = some history) :
    Bounded layout [] history ∧ history.maxBytes = maxBytes ∧ history.maxAgeMs = maxAgeMs ∧
      history.maxFrames = max maxFrames 1 := by
  unfold withLimits at h
  dsimp only at h
  split at h
  · rename_i hroom
    cases h
    refine ⟨⟨⟨hroom, Nat.le_max_right _ _⟩, rfl, by dsimp only; omega, Nat.zero_le _,
      ⟨[], List.suffix_rfl, .nil⟩, List.Pairwise.nil, fun h => absurd rfl h, ?_⟩, rfl, rfl, rfl⟩
    exact fun newest h => (by cases h)
  · cases h

theorem popWhile_limits {condition : BoundedHistory → Bool} (frames : List DerivedSample) :
    (popWhile layout condition history frames).baseBytes = history.baseBytes ∧
      (popWhile layout condition history frames).maxBytes = history.maxBytes ∧
      (popWhile layout condition history frames).maxAgeMs = history.maxAgeMs ∧
      (popWhile layout condition history frames).maxFrames = history.maxFrames := by
  induction frames generalizing history with
  | nil => exact ⟨rfl, rfl, rfl, rfl⟩
  | cons sample frames ih =>
    rw [popWhile]
    split
    · exact ih
    · exact ⟨rfl, rfl, rfl, rfl⟩

/-- The limits stay what the constructor made them. -/
theorem foldl_push_limits (samples : List DerivedSample) :
    (samples.foldl (push layout) history).baseBytes = history.baseBytes ∧
      (samples.foldl (push layout) history).maxBytes = history.maxBytes ∧
      (samples.foldl (push layout) history).maxAgeMs = history.maxAgeMs ∧
      (samples.foldl (push layout) history).maxFrames = history.maxFrames := by
  induction samples generalizing history with
  | nil => exact ⟨rfl, rfl, rfl, rfl⟩
  | cons sample samples ih =>
    have hput : ∀ bytes frames, let full : BoundedHistory := { makeRoom layout
        (sampleBytes layout (limitSample layout history sample)) history with
          memoryBytes := bytes, frames }
        full.baseBytes = history.baseBytes ∧ full.maxBytes = history.maxBytes ∧
          full.maxAgeMs = history.maxAgeMs ∧ full.maxFrames = history.maxFrames :=
      fun _ _ => popWhile_limits history.frames
    obtain ⟨hbase, hbytes, hage, hframes⟩ := @ih (push layout history sample)
    obtain ⟨hbase', hbytes', hage', hframes'⟩ := hput
      ((makeRoom layout (sampleBytes layout (limitSample layout history sample))
        history).memoryBytes + sampleBytes layout (limitSample layout history sample))
      ((makeRoom layout (sampleBytes layout (limitSample layout history sample))
        history).frames ++ [limitSample layout history sample])
    obtain ⟨hbase'', hbytes'', hage'', hframes''⟩ :
        (push layout history sample).baseBytes = _ ∧ (push layout history sample).maxBytes = _ ∧
          (push layout history sample).maxAgeMs = _ ∧
          (push layout history sample).maxFrames = _ := popWhile_limits _
    rw [List.foldl_cons]
    exact ⟨hbase.trans (hbase''.trans hbase'), hbytes.trans (hbytes''.trans hbytes'),
      hage.trans (hage''.trans hage'), hframes.trans (hframes''.trans hframes')⟩

theorem Bounded.run {initial : BoundedHistory} (h : Bounded layout [] initial)
    {samples : List DerivedSample}
    (hordered : samples.Pairwise fun a b => a.monotonicMs ≤ b.monotonicMs) :
    Bounded layout samples (samples.foldl (Dashboard.push layout) initial) := by
  induction samples using List.reverseRecOn with
  | nil => exact h
  | append_singleton samples sample ih =>
    rw [List.pairwise_append] at hordered
    rw [List.foldl_append, List.foldl_cons, List.foldl_nil]
    exact (ih hordered.1).push fun p hp => hordered.2.2 p hp sample List.mem_cons_self

end invariant

/-- The history is counted exactly and within its limits, and it has the newest samples. -/
theorem history_bounded {layout : HistoryLayout} {maxBytes maxAgeMs maxFrames : Nat}
    {initial : BoundedHistory} (h : withLimits layout maxBytes maxAgeMs maxFrames = some initial)
    {samples : List DerivedSample}
    (hordered : samples.Pairwise fun a b => a.monotonicMs ≤ b.monotonicMs) :
    let history := samples.foldl (push layout) initial
    history.memoryBytes = initial.baseBytes + framesBytes layout history.frames ∧
      history.memoryBytes ≤ maxBytes ∧ history.frames.length ≤ max maxFrames 1 ∧
      (∀ newest ∈ samples.getLast?, ∀ frame ∈ history.frames,
        newest.monotonicMs.toNat - frame.monotonicMs.toNat ≤ maxAgeMs) ∧
      ∃ kept, kept <:+ samples ∧ List.Forall₂ Kept kept history.frames ∧
        ∀ newest ∈ samples.getLast?, kept.getLast? = some newest := by
  obtain ⟨hinitial, hbytes, hage, hframes⟩ := bounded_withLimits h
  obtain ⟨hbase', hbytes', hage', hframes'⟩ := @foldl_push_limits layout initial samples
  have hbounded := hinitial.run hordered
  refine ⟨?_, ?_, ?_, ?_, ?_⟩
  · rw [← hbase']
    exact hbounded.accounted
  · rw [← hbytes, ← hbytes']
    exact hbounded.bytes
  · rw [← hframes, ← hframes']
    exact hbounded.frames
  · rw [← hage, ← hage']
    exact hbounded.young
  · obtain ⟨kept, ⟨front, hfront⟩, hkept⟩ := hbounded.suffix
    refine ⟨kept, ⟨front, hfront⟩, hkept, fun newest hnewest => ?_⟩
    have hsome : samples ≠ [] := by
      rintro rfl
      cases hnewest
    have hne : kept ≠ [] := by
      rintro rfl
      exact hbounded.newest hsome (List.forall₂_nil_left_iff.mp hkept)
    rw [← hfront, List.getLast?_append_of_ne_nil _ hne] at hnewest
    exact hnewest

/-- A sort that keeps the order of equal keys. -/
def stableSort {α : Type} (key : α → Nat) : UnstableSort key where
  run l := l.insertionSort fun a b => key a ≤ key b
  perm l := l.perm_insertionSort _
  sorted l := by
    have : Std.Total fun a b : α => key a ≤ key b := ⟨fun a b => Nat.le_total _ _⟩
    have : IsTrans α fun a b => key a ≤ key b := ⟨fun _ _ _ => Nat.le_trans⟩
    exact l.pairwise_insertionSort _

/-- Sizes as they are with 64 bits. -/
def wordLayout : HistoryLayout where
  selfBytes := 72
  boxBytes := 8
  sampleBytes := 136
  sessionBytes := 80
  session_pos := by decide
  capacity := id
  le_capacity _ := Nat.le_refl _
  sortSessions := stableSort sessionKey

def idleFrame (ms : UInt64) : DerivedSample where
  sampledAtMs := ms
  monotonicMs := ms
  completeness := .complete
  daemon := derivedDaemon ⟨1, {}, 0, 0, 0, 0⟩ {}
  sessions := []

def twoFrames : BoundedHistory where
  frames := []
  memoryBytes := 88
  baseBytes := 88
  maxBytes := 1000
  maxAgeMs := 60000
  maxFrames := 2

theorem history_bounded_two :
    ([idleFrame 1, idleFrame 2].foldl (push wordLayout) twoFrames).memoryBytes ≤ 1000 :=
  (history_bounded
    (show withLimits wordLayout 1000 60000 2 = some twoFrames from rfl)
    (show [idleFrame 1, idleFrame 2].Pairwise fun a b => a.monotonicMs ≤ b.monotonicMs from
      .cons (by decide) (List.pairwise_singleton _ _))).2.1

end Dashboard
end PersistShell

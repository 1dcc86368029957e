import PersistShell.Dashboard.Runs

/-! The segments that a rotation removes: the oldest ones, and never the current one, until the
limits are met. -/

namespace PersistShell
open Program

namespace Metric

/-- The sizes of the segments together. -/
def totalBytes (segments : Std.ExtTreeMap Nat Bytes) : Nat :=
  (segments.toList.map fun segment => segment.2.length).sum

section evicted

/-- What is left when the oldest segments are removed, and the current one is not. -/
structure Evicted (current : Nat) (before after : Std.ExtTreeMap Nat Bytes) : Prop where
  same : ∀ (path : Nat) (content : Bytes), after[path]? = some content →
    before[path]? = some content
  oldest : ∀ (path : Nat) (content : Bytes), before[path]? = some content → after[path]? = none →
    path ≠ current ∧ ∀ (other : Nat) (kept : Bytes), after[other]? = some kept →
      other ≠ current → path < other

variable {current path : Nat} {before after later : Std.ExtTreeMap Nat Bytes}

theorem Evicted.refl (current : Nat) (segments : Std.ExtTreeMap Nat Bytes) :
    Evicted current segments segments where
  same _ _ h := h
  oldest path content h hgone := by cases h.symm.trans hgone

theorem Evicted.kept {content : Bytes} (h : Evicted current before after)
    (hcurrent : before[current]? = some content) : after[current]? = some content := by
  cases hafter : after[current]? with
  | none => exact absurd rfl (h.oldest current content hcurrent hafter).1
  | some content' => exact (h.same current content' hafter).symm.trans hcurrent

/-- The oldest segment but the current one goes first. -/
theorem Evicted.erase (hpath : path ≠ current)
    (holdest : ∀ (other : Nat) (content : Bytes), before[other]? = some content → other ≠ current → path ≤ other)
    (h : Evicted current (before.erase path) later) : Evicted current before later := by
  have hget := NatMap.get_erase before path
  have hsame : ∀ (other : Nat) (content : Bytes), later[other]? = some content →
      before[other]? = some content ∧ path ≠ other := by
    intro other content hother
    have hleft := h.same other content hother
    rw [hget] at hleft
    split at hleft
    · cases hleft
    · exact ⟨hleft, ‹_›⟩
  refine ⟨fun other content hother => (hsame other content hother).1,
    fun other content hother hgone => ?_⟩
  by_cases hfirst : path = other
  · subst hfirst
    refine ⟨hpath, fun kept content' hkept hne => ?_⟩
    obtain ⟨hbefore, hother⟩ := hsame kept content' hkept
    exact Nat.lt_of_le_of_ne (holdest kept content' hbefore hne) hother
  · exact h.oldest other content ((hget other).trans ((if_neg hfirst).trans hother)) hgone

end evicted

section rotate

variable {limits : StorageLimits} {m : MetricsState}

/-- The first of the segments that is not the current one is the oldest of them. -/
theorem find_oldest {segments : Std.ExtTreeMap Nat Bytes} {current : Option Nat} {oldest : Nat}
    (h : segments.keys.find? (fun path => current ≠ some path) = some oldest) :
    (∃ content, segments[oldest]? = some content) ∧ current ≠ some oldest ∧
      ∀ (other : Nat) (content : Bytes), segments[other]? = some content → current ≠ some other → oldest ≤ other := by
  have hne := List.find?_some h
  refine ⟨(NatMap.mem_keys_iff _ _).mp (List.mem_of_find?_eq_some h), of_decide_eq_true hne, ?_⟩
  intro other content hother hcurrent
  have hmem := (NatMap.mem_keys_iff segments other).mpr ⟨content, hother⟩
  obtain ⟨-, newer, later, hkeys, hnewer⟩ := List.find?_eq_some_iff_append.mp h
  have hordered : segments.keys.Pairwise (· < ·) :=
    Std.ExtTreeMap.ordered_keys.imp fun hlt => Nat.compare_eq_lt.mp hlt
  rw [hkeys] at hmem hordered
  rcases List.mem_append.mp hmem with hmem | hmem
  · have := hnewer other hmem
    rw [Bool.not_eq_true', decide_eq_false_iff_not] at this
    exact absurd hcurrent this
  · rcases List.mem_cons.mp hmem with rfl | hmem
    · exact Nat.le_refl _
    · exact Nat.le_of_lt ((List.pairwise_cons.mp (List.pairwise_append.mp hordered).2.1).1 other hmem)

theorem size_erase {segments : Std.ExtTreeMap Nat Bytes} {path : Nat} {content : Bytes}
    (h : segments[path]? = some content) : (segments.erase path).size + 1 = segments.size := by
  have hcontains : segments.contains path = true := (NatMap.contains_iff _ _).mpr ⟨content, h⟩
  have hpos : segments.size ≠ 0 := by
    intro hzero
    rw [Std.ExtTreeMap.eq_empty_iff_size_eq_zero.mpr hzero, Std.ExtTreeMap.contains_empty]
      at hcontains
    cases hcontains
  rw [Std.ExtTreeMap.size_erase, if_pos hcontains]
  omega

/-- The limits are met. -/
def Met (limits : StorageLimits) (segments : Std.ExtTreeMap Nat Bytes) : Prop :=
  segments.size ≤ limits.maxSegments ∧ totalBytes segments ≤ limits.maxTotalBytes

theorem rotateLoop_met (h : Met limits m.segments) (rounds : Nat) :
    rotateLoop limits rounds m = (.ok (), m) := by
  cases rounds with
  | zero => rfl
  | succ rounds =>
    unfold rotateLoop
    rw [bind_ok (read_apply _ _)]
    dsimp only [id]
    rw [if_pos (by rw [Std.ExtTreeMap.length_keys]; exact h)]
    rfl

theorem rotateLoop_stuck {rounds : Nat} (h : ¬ Met limits m.segments)
    (hnone : m.segments.keys.find? (fun path =>
      m.storage.current.map CurrentSegment.path ≠ some path) = none) :
    rotateLoop limits (rounds + 1) m =
      (.err (.invalidData "active metric segment exceeds total limit"), m) := by
  unfold rotateLoop
  rw [bind_ok (read_apply _ _)]
  dsimp only [id]
  rw [if_neg (by rw [Std.ExtTreeMap.length_keys]; exact h), hnone]
  rfl

theorem rotateLoop_step {rounds oldest : Nat} (h : ¬ Met limits m.segments)
    (hsome : m.segments.keys.find? (fun path =>
      m.storage.current.map CurrentSegment.path ≠ some path) = some oldest) :
    rotateLoop limits (rounds + 1) m =
      rotateLoop limits rounds { m with segments := m.segments.erase oldest } := by
  rw [rotateLoop, bind_ok (read_apply _ _)]
  dsimp only [id]
  rw [if_neg (by rw [Std.ExtTreeMap.length_keys]; exact h), hsome]
  rfl

/-- One more round than there are segments is as good as any number of them. -/
theorem rotateLoop_enough (m : MetricsState) {rounds more : Nat} (hrounds : m.segments.size < rounds)
    (hmore : m.segments.size < more) : rotateLoop limits rounds m = rotateLoop limits more m := by
  induction rounds generalizing m more with
  | zero => omega
  | succ rounds ih =>
    obtain ⟨more, rfl⟩ : ∃ n, more = n + 1 := ⟨more - 1, by omega⟩
    by_cases hmet : Met limits m.segments
    · rw [rotateLoop_met hmet, rotateLoop_met hmet]
    · cases hfind : m.segments.keys.find? fun path =>
          decide (m.storage.current.map CurrentSegment.path ≠ some path) with
      | none => rw [rotateLoop_stuck hmet hfind, rotateLoop_stuck hmet hfind]
      | some oldest =>
        obtain ⟨⟨content, hthere⟩, -, -⟩ := find_oldest hfind
        have hsize := size_erase hthere
        rw [rotateLoop_step hmet hfind, rotateLoop_step hmet hfind]
        exact ih _ (by dsimp only; omega) (by dsimp only; omega)

/-- The current segment on its own is within the limits. -/
theorem met_alone {segments : Std.ExtTreeMap Nat Bytes} {current : Nat} {content : Bytes}
    (hthere : segments[current]? = some content) (hsegments : 1 ≤ limits.maxSegments)
    (hbytes : content.length ≤ limits.maxTotalBytes)
    (hall : ∀ (path : Nat) (content : Bytes), segments[path]? = some content → path = current) :
    Met limits segments := by
  have hitem : ∀ item ∈ segments.toList, item = (current, content) := by
    rintro ⟨path, bytes⟩ hmem
    have hsome := Std.ExtTreeMap.mem_toList_iff_getElem?_eq_some.mp hmem
    cases hall path bytes hsome
    cases hthere.symm.trans hsome
    rfl
  have hordered := segments.ordered_keys_toList
  unfold Met totalBytes
  rw [← Std.ExtTreeMap.length_toList]
  revert hitem hordered
  generalize segments.toList = items
  intro hitem hordered
  cases items with
  | nil => exact ⟨Nat.zero_le _, Nat.zero_le _⟩
  | cons item items =>
    have hitem' := hitem item List.mem_cons_self
    subst hitem'
    cases items with
    | nil => exact ⟨hsegments, hbytes⟩
    | cons next rest =>
      have hlt := (List.pairwise_cons.mp hordered).1 next List.mem_cons_self
      rw [hitem next (List.mem_cons_of_mem _ List.mem_cons_self)] at hlt
      exact absurd (Nat.compare_eq_lt.mp hlt) (Nat.lt_irrefl _)

/-- The rotation ends with the limits met. -/
theorem rotateLoop_meets {current : CurrentSegment} {content : Bytes} {rounds : Nat}
    (hrounds : m.segments.size < rounds) (hcurrent : m.storage.current = some current)
    (hthere : m.segments[current.path]? = some content) (hsegments : 1 ≤ limits.maxSegments)
    (hbytes : content.length ≤ limits.maxTotalBytes) :
    ∃ segments, rotateLoop limits rounds m = (.ok (), { m with segments }) ∧
      Met limits segments ∧ Evicted current.path m.segments segments := by
  induction rounds generalizing m with
  | zero => omega
  | succ rounds ih =>
    by_cases hmet : Met limits m.segments
    · exact ⟨m.segments, rotateLoop_met hmet _, hmet, .refl _ _⟩
    have hne : ∀ path : Nat,
        m.storage.current.map CurrentSegment.path ≠ some path ↔ path ≠ current.path := by
      intro path
      rw [hcurrent, Option.map_some, Ne, Option.some.injEq]
      exact ne_comm
    cases hfind : m.segments.keys.find? fun path =>
        decide (m.storage.current.map CurrentSegment.path ≠ some path) with
    | none =>
      refine absurd (met_alone hthere hsegments hbytes fun path bytes hpath => ?_) hmet
      have hnot := List.find?_eq_none.mp hfind path
        ((NatMap.mem_keys_iff _ _).mpr ⟨bytes, hpath⟩)
      exact Decidable.not_not.mp fun hother => hnot (decide_eq_true ((hne path).mpr hother))
    | some oldest =>
      obtain ⟨⟨bytes, hsome⟩, hother, holdest⟩ := find_oldest hfind
      have hpath := (hne oldest).mp hother
      have hsize := size_erase hsome
      have hkept : (m.segments.erase oldest)[current.path]? = some content := by
        rw [NatMap.get_erase, if_neg hpath]
        exact hthere
      obtain ⟨segments, hloop, hmet', hevicted⟩ :=
        ih (m := { m with segments := m.segments.erase oldest }) (by dsimp only; omega) hcurrent hkept
      refine ⟨segments, (rotateLoop_step hmet hfind).trans hloop, hmet', ?_⟩
      exact hevicted.erase hpath fun path content hpath hother =>
        holdest path content hpath ((hne path).mpr hother)

end rotate

end Metric

end PersistShell

import PersistShell.Dashboard.Appends

/-! The storage of the metrics over the life of a machine: processes open it, append, load and
close it, and die in between. A record that was appended is read again unless its segment was
evicted, as long as nothing is written behind the torn bytes of an append that failed. -/

namespace PersistShell
open Program Run

namespace Metric

/-- The storage and the process that has it open, if one has. -/
structure StorageRun where
  metrics : MetricsState
  opened : Bool
  /-- The records whose append returned, with the segments they are in; an evicted segment
  takes its records away. -/
  appended : List (Nat × MinuteRecord)

inductive StorageAction where
  | open_
  /-- How the writes of the append end. -/
  | append (record : MinuteRecord) (writes : List WriteEnd)
  | load
  | close

def StorageRun.step (limits : StorageLimits) (s : StorageRun) : StorageAction → Option StorageRun
  | .open_ =>
    if s.opened then none else match openStorage limits s.metrics with
      | (.ok _, m) => some { s with metrics := m, opened := true }
      | (_, m) => some { s with metrics := m }
  | .append record writes =>
    if s.opened then match append limits record { s.metrics with writes } with
      | (.ok _, m) =>
        let segment := m.storage.current.map CurrentSegment.path
        some { s with metrics := m
                      appended := kept ((segment.map (·, record)).toList ++ s.appended) m }
      | (.err _, m) => some { s with metrics := m, appended := kept s.appended m }
      | (.panic, m) => some { metrics := m, opened := false, appended := kept s.appended m }
    else none
  | .load => if s.opened then some { s with metrics := (load limits s.metrics).2 } else none
  | .close =>
    if s.opened then some { s with opened := false, metrics := { s.metrics with storage := {} } }
    else none

/-- There is no segment yet. -/
def StorageRun.Start (s : StorageRun) : Prop :=
  s = { metrics := { others := s.metrics.others }, opened := false, appended := [] }

/-- Nothing is appended to a segment in which a failed append has left bytes. -/
def StorageRun.Clean (limits : StorageLimits) (s : StorageRun) : StorageAction → Prop
  | .append record _ => CleanAppend limits record s.metrics
  | _ => True

variable {limits : StorageLimits}

theorem step_holds (s : StorageRun) (a : StorageAction) (s' : StorageRun)
    (h : Holds limits s.appended s.metrics) (hclean : s.Clean limits a)
    (hstep : s.step limits a = some s') : Holds limits s'.appended s'.metrics := by
  cases a with
  | open_ =>
    have hopen : Leaves (Holds limits s.appended) (openStorage limits) :=
      Leaves.bind (Leaves.lift _) fun _ => Leaves.bind (Leaves.read _) fun _ =>
        Leaves.bind (Leaves.reject _ _) fun _ =>
        Leaves.update fun m hm => ⟨hm.files, fun _ hcurrent => by cases hcurrent⟩
    have hm := hopen _ h
    dsimp only [StorageRun.step] at hstep
    by_cases hopened : s.opened
    · rw [if_pos hopened] at hstep
      cases hstep
    · rw [if_neg hopened] at hstep
      revert hm hstep
      rcases openStorage limits s.metrics with ⟨_ | _ | _, m⟩ <;> intro hstep hm <;> cases hstep
      · exact hm
      · exact hm
      · exact hm
  | append record writes =>
    have hm := within_append { s.metrics with writes } ⟨⟨h.files, h.current⟩, hclean⟩
    dsimp only [StorageRun.step] at hstep
    by_cases hopened : s.opened
    · rw [if_pos hopened] at hstep
      revert hm hstep
      rcases append limits record { s.metrics with writes } with ⟨_ | _ | _, m⟩ <;>
        intro hstep hm <;> cases hstep
      · obtain ⟨current, hcurrent, hm⟩ := hm
        dsimp only
        rw [hcurrent]
        exact hm
      · exact hm
      · exact hm
    · rw [if_neg hopened] at hstep
      cases hstep
  | load =>
    obtain ⟨report, m, hload, hm, -⟩ := load_returns h
    dsimp only [StorageRun.step] at hstep
    split at hstep
    · cases hstep
      rw [hload]
      exact hm
    · cases hstep
  | close =>
    dsimp only [StorageRun.step] at hstep
    split at hstep
    · cases hstep
      exact ⟨h.files, fun _ hcurrent => by cases hcurrent⟩
    · cases hstep

theorem holds_start (s : StorageRun) (h : s.Start) : Holds limits s.appended s.metrics := by
  rw [h]
  refine ⟨⟨fun path content hthere => ?_, fun a ha => by cases ha⟩, fun _ hcurrent => by
    cases hcurrent⟩
  rw [Std.ExtTreeMap.getElem?_empty] at hthere
  cases hthere

/-- A failed append harms no other record. -/
theorem appended_loaded (s : StorageRun)
    (h : Along (StorageRun.step limits) (StorageRun.Clean limits) StorageRun.Start s) :
    ∃ report m, load limits s.metrics = (.ok report, m) ∧
      ∀ a ∈ s.appended, a.2 ∈ report.records := by
  have hs : Holds limits s.appended s.metrics := h.invariant holds_start step_holds
  obtain ⟨report, m, hload, -, hread⟩ := load_returns hs
  exact ⟨report, m, hload, hread⟩

section torn

def sample (minute : UInt64) : MinuteRecord :=
  { timestampMs := minute * 60000, completeness := .complete, sessions := []
    daemon := {
      timestampMs := minute * 60000, cpuAvgMilliPercent := 0, cpuPeakMilliPercent := 0
      rssAvgKib := 0, rssPeakKib := 0, readBytes := 0, writeBytes := 0, processCountPeak := 0
      sessionCount := 0, runtimeCount := 0, activeWriterCount := 0, readonlyClientCount := 0 } }

def newStorage : StorageRun := { metrics := {}, opened := false, appended := [] }

theorem newStorage_start : newStorage.Start := rfl

/-- The second append fails when ten bytes have been written, and the third one returns. -/
def tornRun : List StorageAction :=
  [.open_, .append (sample 1) [], .append (sample 2) [.fails 10], .append (sample 3) []]

/-- The first record is there no longer. -/
theorem tornRun_loses : ((exec (StorageRun.step {}) newStorage tornRun).elim false fun s =>
    s.appended.contains (0, sample 1) && match (load {} s.metrics).1 with
      | .ok report => report.records.isEmpty
      | _ => false) = true := by
  decide +kernel

theorem failed_append_harms : ¬ ∀ s, Reachable (StorageRun.step {}) StorageRun.Start s →
    ∃ report m, load {} s.metrics = (.ok report, m) ∧ ∀ a ∈ s.appended, a.2 ∈ report.records := by
  intro hclaim
  have hlost := tornRun_loses
  cases hrun : exec (StorageRun.step {}) newStorage tornRun with
  | none =>
    rw [hrun] at hlost
    cases hlost
  | some s =>
    have hreachable : Reachable (StorageRun.step {}) StorageRun.Start s :=
      Along.exec (.start newStorage_start) hrun
    obtain ⟨report, m, hload, hread⟩ := hclaim s hreachable
    rw [hrun, Option.elim_some, hload, Bool.and_eq_true, List.contains_iff_mem] at hlost
    have hmem := hread _ hlost.1
    rw [List.isEmpty_iff.mp hlost.2] at hmem
    cases hmem

theorem newStorage_open : newStorage.step {} .open_ = some { newStorage with opened := true } := rfl

theorem sample_appended : ∃ s : StorageRun, StorageRun.step {} { newStorage with opened := true }
    (.append (sample 1) []) = some s ∧ (0, sample 1) ∈ s.appended := by
  have happend : ((StorageRun.step {} { newStorage with opened := true }
      (.append (sample 1) [])).elim false fun s => s.appended.contains (0, sample 1)) = true := by
    decide +kernel
  cases hs : StorageRun.step {} { newStorage with opened := true } (.append (sample 1) []) with
  | none =>
    rw [hs] at happend
    cases happend
  | some s =>
    rw [hs, Option.elim_some, List.contains_iff_mem] at happend
    exact ⟨s, rfl, happend⟩

/-- The first append to a storage that has just been opened writes to no old segment. -/
theorem sample_loaded : ∃ s : StorageRun, (0, sample 1) ∈ s.appended ∧
    ∃ report m, load {} s.metrics = (.ok report, m) ∧ ∀ a ∈ s.appended, a.2 ∈ report.records := by
  obtain ⟨s, hstep, happended⟩ := sample_appended
  refine ⟨s, happended, appended_loaded s ?_⟩
  have hclean : newStorage.Clean {} .open_ := trivial
  refine .step (.step (.start newStorage_start) hclean newStorage_open) ?_ hstep
  exact fun _ _ current hcurrent => by cases hcurrent

end torn

end Metric

end PersistShell

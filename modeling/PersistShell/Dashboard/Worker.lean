import PersistShell.Dashboard.History

/-! The sampling worker: a sample goes into the history, and when its minute is a later one, a
record is made of the minute before. A lock that cannot be taken, after a panic of another
thread, is left out. -/

namespace PersistShell
namespace Dashboard

/-- `sampled_at_ms / 60_000 * 60_000`. -/
def minuteOf (ms : UInt64) : UInt64 := ms / 60000 * 60000

def minuteSeries (history : BoundedHistory) (scope : TrendScope) (startMs : UInt64) :
    TrendSeries :=
  aggregateWall history.frames scope startMs (saturatingAdd64 startMs 60000) 1

/-- `Vec::dedup`. -/
def dedup : List UInt32 → List UInt32
  | a :: b :: ids => if a = b then dedup (b :: ids) else a :: dedup (b :: ids)
  | ids => ids

def sessionIdsWall (history : BoundedHistory) (startMs endMs : UInt64) : List UInt32 :=
  let ids := (history.frames.filter fun sample =>
    startMs < sample.sampledAtMs ∧ sample.sampledAtMs ≤ endMs).flatMap fun sample =>
      sample.sessions.map (·.metrics.sessionId)
  dedup (ids.insertionSort fun a b => a ≤ b)

/-- The part of a minute record for a session; there is none without a point. -/
def sessionMinute (history : BoundedHistory) (startMs endMs : UInt64) (sessionId : UInt32) :
    Option SessionMinuteRecord :=
  let series := minuteSeries history (.session sessionId) startMs
  series.points.head?.map fun point =>
    { sessionId, completeness := series.completeness, point := { point with timestampMs := endMs } }

def buildMinuteRecord (history : BoundedHistory) (startMs : UInt64) : Option MinuteRecord := do
  let endMs := saturatingAdd64 startMs 60000
  let daemonSeries := minuteSeries history .daemon startMs
  let daemon ← daemonSeries.points.head?
  let sessions := (sessionIdsWall history startMs endMs).filterMap
    (sessionMinute history startMs endMs)
  return {
    timestampMs := endMs
    completeness :=
      if daemonSeries.completeness = .complete ∧ sessions.any (·.completeness ≠ .complete) then
        .partial_
      else daemonSeries.completeness
    daemon := { daemon with timestampMs := endMs }
    sessions }

/-- The minute that is begun, and the record of the one that is completed. -/
def completedMinute (history : BoundedHistory) (minuteStart : Option UInt64)
    (currentMinute : UInt64) : Option UInt64 × Option MinuteRecord :=
  match minuteStart with
  | none => (some currentMinute, none)
  | some previousMinute =>
    if currentMinute ≤ previousMinute then
      (if currentMinute < previousMinute then some currentMinute else some previousMinute, none)
    else (some currentMinute, buildMinuteRecord history previousMinute)

/-- The worker's variables, and the records that it handed to the writer. -/
structure WorkerState where
  history : BoundedHistory
  previous : Option RawSample := none
  minuteStart : Option UInt64 := none
  records : List MinuteRecord := []

section worker

variable (layout : HistoryLayout)

/-- A round of `run_worker`, from the raw sample on. -/
def takeSample (worker : WorkerState) (raw : RawSample) : WorkerState :=
  let derived := deriveSample worker.previous raw
  let history := push layout worker.history derived
  let (minuteStart, record) := completedMinute history worker.minuteStart (minuteOf raw.sampledAtMs)
  { history, previous := some raw, minuteStart, records := worker.records ++ record.toList }

def runWorker (initial : BoundedHistory) (samples : List RawSample) : WorkerState :=
  samples.foldl (takeSample layout) { history := initial }

end worker

section run

variable {layout : HistoryLayout} {initial : BoundedHistory} {front : List RawSample}
  {raw : RawSample}

theorem runWorker_append : runWorker layout initial (front ++ [raw]) =
    takeSample layout (runWorker layout initial front) raw := by
  rw [runWorker, List.foldl_append]
  rfl

theorem previous_runWorker (samples : List RawSample) :
    (runWorker layout initial samples).previous = samples.getLast? := by
  induction samples using List.reverseRecOn with
  | nil => rfl
  | append_singleton samples raw _ =>
    rw [runWorker_append, List.getLast?_append, List.getLast?_singleton]
    rfl

/-- Whatever the order of the times, the minute that is begun is that of the last sample. -/
theorem minuteStart_runWorker (samples : List RawSample) :
    (runWorker layout initial samples).minuteStart =
      samples.getLast?.map fun raw => minuteOf raw.sampledAtMs := by
  have hminute : ∀ history minuteStart currentMinute,
      (completedMinute history minuteStart currentMinute).1 = some currentMinute := by
    intro history minuteStart currentMinute
    unfold completedMinute
    split
    · rfl
    · rename_i previousMinute
      split
      · rename_i hle
        dsimp only
        split
        · rfl
        · rename_i hlt
          rw [UInt64.le_antisymm hle (UInt64.not_lt.mp hlt)]
      · rfl
  induction samples using List.reverseRecOn with
  | nil => rfl
  | append_singleton samples raw _ =>
    rw [runWorker_append, List.getLast?_append, List.getLast?_singleton]
    exact hminute _ _ _

theorem history_runWorker : (runWorker layout initial (front ++ [raw])).history =
    push layout (runWorker layout initial front).history
      (deriveSample front.getLast? raw) := by
  rw [runWorker_append, takeSample, previous_runWorker]

end run

end Dashboard
end PersistShell

import PersistShell.Dashboard.Storage
import PersistShell.Ipc.DashboardCodecs
import PersistShell.Program.BinarySearch

/-! The service that answers the dashboard: a summary is a page of the sessions of the newest
sample, and a trend is made of the samples in memory or of the records on the disk. Poisoned locks
are left out. -/

namespace PersistShell
namespace Dashboard

inductive DashboardQueryError where
  | invalidRequest
  | invalidCursor
  | unavailable
  deriving DecidableEq, Repr

def metricsKey (session : SessionMetrics) : Nat := session.sessionId.toNat

/-- What the service finds when it answers: the history, whether the worker runs, the status of the
writer and what it loads when it answers in time, the wall clock and the id of the process. -/
structure ServiceView where
  history : BoundedHistory
  running : Bool
  writerAvailable : Bool
  writeFailures : Nat
  loaded : Option Metric.LoadReport
  wallTimeMs : UInt64
  pid : UInt32

/-- `SAMPLE_INTERVAL`, in milliseconds. -/
def sampleInterval : Nat := 5000

namespace BoundedHistory

def latest (history : BoundedHistory) : Option DerivedSample := history.frames.getLast?

def trend (history : BoundedHistory) (scope : TrendScope) (nowMs windowMs : UInt64)
    (maxPoints : UInt16) : TrendSeries :=
  if windowMs = 0 ∨ maxPoints = 0 ∨ maxPoints.toNat > maxTrendPoints then
    { completeness := .unavailable, points := [] }
  else aggregate history.frames scope (UInt64.ofNat (nowMs.toNat - windowMs.toNat)) nowMs
    maxPoints.toNat

end BoundedHistory

def unavailableSummary (pid : UInt32) : DashboardSummaryResponse where
  sampledAtMs := 0
  completeness := .unavailable
  daemon := {
    pid, ratesAvailable := false, cpuMilliPercent := 0, rssKib := 0, readBytesPerSec := 0
    writeBytesPerSec := 0, sessionCount := 0, runtimeCount := 0, activeWriterCount := 0
    readonlyClientCount := 0 }
  sessions := []
  nextCursor := none

def unavailableTrend : DashboardTrendResponse where
  sampledAtMs := 0
  completeness := .unavailable
  points := []

def summaryCompleteness (view : ServiceView) (sampledAtMs : UInt64) (completeness : Completeness) :
    Completeness :=
  if completeness = .unavailable then completeness
  else if !view.running || view.wallTimeMs.toNat - sampledAtMs.toNat > sampleInterval * 3 then .stale
  else completeness

def pageStart (sessions : List SessionMetrics) (cursor : UInt32) :
    Except DashboardQueryError Nat :=
  if cursor = 0 then .ok 0
  else match BinarySearch.search metricsKey cursor.toNat sessions with
    | some index => .ok (index + 1)
    | none => .error .invalidCursor

section service

variable (sort : UnstableSort metricsKey) (view : ServiceView)

/-- The sessions that the pages are cut from. -/
def sortedSessions (latest : DerivedSample) : List SessionMetrics :=
  sort.run (latest.sessions.map (·.metrics))

def summary (request : DashboardSummaryRequest) :
    Except DashboardQueryError DashboardSummaryResponse := do
  rejectIf (request.limit = 0 ∨ request.limit.toNat > maxSummaryPage)
    DashboardQueryError.invalidRequest
  match view.history.latest with
  | none => if request.cursor = 0 then return unavailableSummary view.pid else throw .invalidCursor
  | some latest =>
    let sessions := sortedSessions sort latest
    let start ← pageStart sessions request.cursor
    let stop := min (start + request.limit.toNat) sessions.length
    return {
      sampledAtMs := latest.sampledAtMs
      completeness := summaryCompleteness view latest.sampledAtMs latest.completeness
      daemon := latest.daemon.metrics
      sessions := (sessions.drop start).take (stop - start)
      nextCursor :=
        if stop < sessions.length then (sessions[stop - 1]?).map (·.sessionId) else none }

def memoryTrend (request : DashboardTrendRequest) (windowMs : UInt64) : DashboardTrendResponse :=
  match view.history.latest with
  | none => unavailableTrend
  | some latest =>
    let series := view.history.trend request.scope latest.monotonicMs windowMs request.maxPoints
    { sampledAtMs := latest.sampledAtMs
      completeness := summaryCompleteness view latest.sampledAtMs series.completeness
      points := series.points }

def diskTrend (request : DashboardTrendRequest) :
    Except DashboardQueryError DashboardTrendResponse :=
  match view.loaded with
  | none => .error .unavailable
  | some report =>
    let writerDegraded := !view.writerAvailable || view.writeFailures > 0
    .ok (aggregateDiskTrend report.records request.scope view.wallTimeMs request.maxPoints.toNat
      (report.skippedSegments > 0 || writerDegraded))

def trend (request : DashboardTrendRequest) :
    Except DashboardQueryError DashboardTrendResponse := do
  rejectIf (request.maxPoints = 0 ∨ request.maxPoints.toNat > maxTrendPoints)
    DashboardQueryError.invalidRequest
  match request.range with
  | .fifteenMinutes => return memoryTrend view request (15 * 60 * 1000)
  | .hour => return memoryTrend view request (60 * 60 * 1000)
  | .day => diskTrend view request

end service

/-- A reader follows the cursors: its `k`-th request and the ones behind it are answered with the
pages, of which the last one has no cursor. -/
inductive Follows (answer : Nat → DashboardSummaryRequest →
    Except DashboardQueryError DashboardSummaryResponse) (limits : Nat → UInt16) :
    Nat → UInt32 → List DashboardSummaryResponse → Prop
  | last {k cursor page} (h : answer k { cursor, limit := limits k } = .ok page)
      (hlast : page.nextCursor = none) : Follows answer limits k cursor [page]
  | more {k cursor page next pages} (h : answer k { cursor, limit := limits k } = .ok page)
      (hnext : page.nextCursor = some next) (hrest : Follows answer limits (k + 1) next pages) :
      Follows answer limits k cursor (page :: pages)

section pages

variable {sort : UnstableSort metricsKey} {view : ServiceView} {latest : DerivedSample}
  {limit : UInt16} {limits : Nat → UInt16}

/-- No two sessions have one id, and no id and no pid is 0. -/
structure ProperSample (sample : DerivedSample) : Prop where
  ids : (sample.sessions.map (·.metrics.sessionId)).Nodup
  id_ne : ∀ session ∈ sample.sessions, session.metrics.sessionId ≠ 0
  pid_ne : ∀ session ∈ sample.sessions, session.metrics.foregroundPid ≠ some 0

theorem mem_sortedSessions {session : SessionMetrics} :
    session ∈ sortedSessions sort latest ↔ ∃ derived ∈ latest.sessions,
      derived.metrics = session := by
  rw [sortedSessions, (sort.perm _).mem_iff, List.mem_map]

theorem sortedSessions_pairwise (sort : UnstableSort metricsKey) (h : ProperSample latest) :
    (sortedSessions sort latest).Pairwise fun a b => metricsKey a < metricsKey b := by
  have hnodup : ((sortedSessions sort latest).map (·.sessionId)).Nodup := by
    rw [sortedSessions, ((sort.perm _).map _).nodup_iff, List.map_map]
    exact h.ids
  rw [List.Nodup, List.pairwise_map] at hnodup
  exact ((sort.sorted _).and hnodup).imp fun ⟨hle, hne⟩ =>
    Nat.lt_of_le_of_ne hle fun heq => hne (UInt32.toNat_inj.mp heq)

/-- The cursor of the page that starts at an index: none for the first one, and the id before
the page for a later one. -/
def CursorAt (sessions : List SessionMetrics) (start : Nat) (cursor : UInt32) : Prop :=
  start = 0 ∧ cursor = 0 ∨
    ∃ session, 0 < start ∧ sessions[start - 1]? = some session ∧ session.sessionId = cursor

theorem pageStart_eq (h : ProperSample latest) {start : Nat} {cursor : UInt32}
    (hcursor : CursorAt (sortedSessions sort latest) start cursor) :
    pageStart (sortedSessions sort latest) cursor = .ok start := by
  rcases hcursor with ⟨rfl, rfl⟩ | ⟨session, hstart, hsession, rfl⟩
  · exact if_pos rfl
  · obtain ⟨derived, hderived, hmetrics⟩ :=
      mem_sortedSessions.mp (List.mem_of_getElem? hsession)
    have hid : session.sessionId ≠ 0 := hmetrics ▸ h.id_ne derived hderived
    have hfound := BinarySearch.search_eq (sortedSessions_pairwise sort h) hsession
    rw [pageStart, if_neg hid]
    change (match BinarySearch.search metricsKey (metricsKey session) _ with
      | some index => Except.ok (index + 1)
      | none => .error DashboardQueryError.invalidCursor) = _
    rw [hfound]
    exact congrArg Except.ok (Nat.sub_add_cancel hstart)

/-- A page has what comes behind the cursor, up to the limit, and the next cursor goes on from
where it ends. -/
structure PageFrom (all : List SessionMetrics) (start limit : Nat)
    (page : DashboardSummaryResponse) : Prop where
  sessions : page.sessions = (all.drop start).take limit
  next : page.nextCursor = none ∧ all.length ≤ start + limit ∨
    ∃ next, page.nextCursor = some next ∧ start + limit < all.length ∧
      CursorAt all (start + limit) next

theorem take_to_stop {α : Type} (l : List α) (start limit : Nat) :
    (l.drop start).take (min (start + limit) l.length - start) = (l.drop start).take limit := by
  rw [List.take_eq_take_iff, List.length_drop]
  omega

theorem summary_eq_ok (hlatest : view.history.latest = some latest) (h : ProperSample latest)
    (hlimit : 0 < limit.toNat ∧ limit.toNat ≤ maxSummaryPage) {start : Nat} {cursor : UInt32}
    (hcursor : CursorAt (sortedSessions sort latest) start cursor) :
    ∃ page, summary sort view { cursor, limit } = .ok page ∧
      PageFrom (sortedSessions sort latest) start limit.toNat page := by
  have hproper : ¬ (limit = 0 ∨ limit.toNat > maxSummaryPage) := by
    rintro (hzero | hmany)
    · rw [hzero] at hlimit
      exact absurd hlimit.1 (Nat.lt_irrefl 0)
    · exact absurd hlimit.2 (Nat.not_le_of_gt hmany)
  rw [summary, rejectIf, if_neg hproper, hlatest]
  dsimp only
  rw [pageStart_eq h hcursor]
  refine ⟨_, rfl, take_to_stop .., ?_⟩
  dsimp only
  split
  · rename_i hmore
    have hstop : min (start + limit.toNat) (sortedSessions sort latest).length =
        start + limit.toNat := by omega
    rw [hstop] at hmore ⊢
    have hlast : start + limit.toNat - 1 < (sortedSessions sort latest).length := by omega
    have hfound := List.getElem?_eq_getElem hlast
    rw [hfound]
    exact .inr ⟨_, rfl, hmore, .inr ⟨_, by omega, hfound, rfl⟩⟩
  · rename_i hend
    exact .inl ⟨rfl, by omega⟩

theorem PageFrom.encodable (h : ProperSample latest) {start limit : Nat}
    (hlimit : limit ≤ maxSummaryPage) {page : DashboardSummaryResponse}
    (hpage : PageFrom (sortedSessions sort latest) start limit page) : SummaryEncodable page where
  few := by
    rw [hpage.sessions]
    exact (List.length_take_le _ _).trans hlimit
  cursor := by
    rcases hpage.next with ⟨hnone, -⟩ | ⟨next, hnext, hmore, hzero | ⟨session, hpos, hsession, rfl⟩⟩
    · rw [hnone]
      exact fun h => (by cases h)
    · rw [hnext, hzero.2]
      exact fun h => absurd h (by decide)
    · -- there is a session behind the cursor, and its id is a larger one
      obtain ⟨hlast, hget⟩ := List.getElem?_eq_some_iff.mp hsession
      have hless := List.pairwise_iff_getElem.mp (sortedSessions_pairwise sort h)
        _ _ hlast hmore (by omega)
      rw [hget] at hless
      rw [hnext]
      intro heq
      have hid := Option.some.inj heq
      have hbound := UInt32.toNat_lt (sortedSessions sort latest)[start + limit].sessionId
      unfold metricsKey at hless
      rw [hid, noValue, show (4294967295 : UInt32).toNat = 4294967295 from rfl] at hless
      omega
  ids := by
    intro session hsession
    rw [hpage.sessions] at hsession
    obtain ⟨derived, hderived, rfl⟩ :=
      mem_sortedSessions.mp (List.mem_of_mem_drop (List.mem_of_mem_take hsession))
    exact h.id_ne derived hderived
  pids := by
    intro session hsession
    rw [hpage.sessions] at hsession
    obtain ⟨derived, hderived, rfl⟩ :=
      mem_sortedSessions.mp (List.mem_of_mem_drop (List.mem_of_mem_take hsession))
    exact h.pid_ne derived hderived

variable {views : Nat → ServiceView}

/-- The pages from a cursor on. -/
theorem Follows.pages (hlatest : ∀ k, (views k).history.latest = some latest)
    (h : ProperSample latest)
    (hlimits : ∀ k, 0 < (limits k).toNat ∧ (limits k).toNat ≤ maxSummaryPage) {k start : Nat}
    {cursor : UInt32} {pages : List DashboardSummaryResponse}
    (hfollows : Follows (fun k => summary sort (views k)) limits k cursor pages)
    (hcursor : CursorAt (sortedSessions sort latest) start cursor) :
    pages.flatMap (·.sessions) = (sortedSessions sort latest).drop start ∧
      ∀ page ∈ pages, SummaryEncodable page := by
  induction hfollows generalizing start with
  | @last k cursor page hanswer hlast =>
    obtain ⟨found, hfound, hpage⟩ := summary_eq_ok (hlatest k) h (hlimits k) hcursor
    cases hanswer.symm.trans hfound
    refine ⟨?_, fun page hmem => ?_⟩
    · rcases hpage.next with ⟨-, hend⟩ | ⟨next, hnext, -⟩
      · rw [List.flatMap_cons, List.flatMap_nil, List.append_nil, hpage.sessions,
          List.take_of_length_le (by rw [List.length_drop]; omega)]
      · rw [hlast] at hnext
        cases hnext
    · rw [List.mem_singleton.mp hmem]
      exact hpage.encodable h (hlimits k).2
  | @more k cursor page next pages hanswer hnext hrest ih =>
    obtain ⟨found, hfound, hpage⟩ := summary_eq_ok (hlatest k) h (hlimits k) hcursor
    cases hanswer.symm.trans hfound
    rcases hpage.next with ⟨hnone, -⟩ | ⟨next', hnext', -, hcursor'⟩
    · rw [hnone] at hnext
      cases hnext
    · cases hnext.symm.trans hnext'
      obtain ⟨hsessions, hencodable⟩ := ih hcursor'
      refine ⟨?_, fun page hmem => ?_⟩
      · rw [List.flatMap_cons, hsessions, hpage.sessions, ← List.drop_drop,
          List.take_append_drop]
      · rcases List.mem_cons.mp hmem with rfl | hmem
        · exact hpage.encodable h (hlimits k).2
        · exact hencodable page hmem

/-- What is left of the sessions gets less with every page. -/
theorem exists_follows (hlatest : ∀ k, (views k).history.latest = some latest)
    (h : ProperSample latest)
    (hlimits : ∀ k, 0 < (limits k).toNat ∧ (limits k).toNat ≤ maxSummaryPage) {left k start : Nat}
    {cursor : UInt32} (hleft : (sortedSessions sort latest).length - start ≤ left)
    (hcursor : CursorAt (sortedSessions sort latest) start cursor) :
    ∃ pages, Follows (fun k => summary sort (views k)) limits k cursor pages := by
  induction left generalizing k start cursor with
  | zero =>
    obtain ⟨page, hpage, hfrom⟩ := summary_eq_ok (hlatest k) h (hlimits k) hcursor
    rcases hfrom.next with ⟨hnone, -⟩ | ⟨_, _, hmore, -⟩
    · exact ⟨[page], .last hpage hnone⟩
    · omega
  | succ left ih =>
    obtain ⟨page, hpage, hfrom⟩ := summary_eq_ok (hlatest k) h (hlimits k) hcursor
    rcases hfrom.next with ⟨hnone, -⟩ | ⟨next, hnext, hmore, hcursor'⟩
    · exact ⟨[page], .last hpage hnone⟩
    · have hlimit := (hlimits k).1
      obtain ⟨pages, hpages⟩ := ih (k := k + 1) (by omega) hcursor'
      exact ⟨page :: pages, .more hpage hnext hpages⟩

theorem points_trend_le {request : DashboardTrendRequest} {response : DashboardTrendResponse}
    (h : trend view request = .ok response) : response.points.length ≤ maxTrendPoints := by
  unfold trend at h
  by_cases hproper : request.maxPoints = 0 ∨ request.maxPoints.toNat > maxTrendPoints
  · rw [rejectIf, if_pos hproper] at h
    cases h
  rw [rejectIf, if_neg hproper] at h
  push Not at hproper
  have hpos : 0 < request.maxPoints.toNat :=
    Nat.pos_of_ne_zero fun hzero => hproper.1 (UInt16.toNat_inj.mp hzero)
  have hmemory : ∀ windowMs, (memoryTrend view request windowMs).points.length ≤
      maxTrendPoints := by
    intro windowMs
    unfold memoryTrend
    split
    · exact Nat.zero_le _
    rename_i latest _
    dsimp only
    unfold BoundedHistory.trend
    split
    · exact Nat.zero_le _
    · have hstart : UInt64.ofNat (latest.monotonicMs.toNat - windowMs.toNat) ≤
          latest.monotonicMs := by
        rw [UInt64.le_iff_toNat_le, UInt64.toNat_ofNat_of_lt'
          (Nat.lt_of_le_of_lt (Nat.sub_le _ _) (UInt64.toNat_lt _))]
        exact Nat.sub_le _ _
      exact (aggregateBy_aggregates hpos hstart).few.trans hproper.2
  cases hrange : request.range with
  | fifteenMinutes =>
    rw [hrange] at h
    cases h
    exact hmemory _
  | hour =>
    rw [hrange] at h
    cases h
    exact hmemory _
  | day =>
    rw [hrange] at h
    change diskTrend view request = _ at h
    unfold diskTrend at h
    split at h
    · cases h
    · cases h
      exact (aggregateDiskTrend_aggregates hpos).few.trans hproper.2

/-- The pages of a summary have every session once, in the order of the ids; they and the trends
are read as they were written, and so is all that the encoders accept. -/
theorem dashboard_pages (sort : UnstableSort metricsKey) {views : Nat → ServiceView}
    {sample : DerivedSample} {limits : Nat → UInt16}
    (hlatest : ∀ k, (views k).history.latest = some sample) (hproper : ProperSample sample)
    (hlimits : ∀ k, 0 < (limits k).toNat ∧ (limits k).toNat ≤ maxSummaryPage) :
    (∃ pages, Follows (fun k => summary sort (views k)) limits 0 0 pages) ∧
    (∀ pages, Follows (fun k => summary sort (views k)) limits 0 0 pages →
      (pages.flatMap (·.sessions)).Perm (sample.sessions.map (·.metrics)) ∧
      (pages.flatMap (·.sessions)).Pairwise (fun a b => a.sessionId < b.sessionId) ∧
      ∀ page ∈ pages, encodeSummaryResponse page ≠ [] ∧
        decodeSummaryResponse (encodeSummaryResponse page) = some page) ∧
    (∀ view request response, trend view request = .ok response →
      encodeTrendResponse response ≠ [] ∧
        decodeTrendResponse (encodeTrendResponse response) = some response) ∧
    (∀ request, encodeSummaryRequest request ≠ [] →
      ExactCodec encodeSummaryRequest decodeSummaryRequest request) ∧
    (∀ request, encodeTrendRequest request ≠ [] →
      ExactCodec encodeTrendRequest decodeTrendRequest request) ∧
    (∀ response, encodeSummaryResponse response ≠ [] →
      ExactCodec encodeSummaryResponse decodeSummaryResponse response) ∧
    ∀ response, encodeTrendResponse response ≠ [] →
      ExactCodec encodeTrendResponse decodeTrendResponse response := by
  have hstart : CursorAt (sortedSessions sort sample) 0 0 := .inl ⟨rfl, rfl⟩
  refine ⟨exists_follows hlatest hproper hlimits (Nat.le_refl _) hstart,
    fun pages hfollows => ?_, fun view request response hresponse => ?_,
    fun _ => summaryRequest_exact, fun _ => trendRequest_exact,
    fun _ h => (summaryEncodable_of_ne_nil h).exact,
    fun _ h => trendResponse_exact (encodeTrendResponse_ne_nil.mp h)⟩
  · obtain ⟨hsessions, hencodable⟩ := hfollows.pages hlatest hproper hlimits hstart
    rw [List.drop_zero] at hsessions
    rw [hsessions]
    refine ⟨sort.perm _, ?_, fun page hpage => ?_⟩
    · exact (sortedSessions_pairwise sort hproper).imp UInt32.lt_iff_toNat_lt.mpr
    · exact ⟨(hencodable page hpage).ne_nil, (hencodable page hpage).exact.roundTrip⟩
  · have hfew := points_trend_le hresponse
    exact ⟨encodeTrendResponse_ne_nil.mpr hfew, (trendResponse_exact hfew).roundTrip⟩

end pages

section witness

def listedSession (sessionId : UInt32) : DerivedSession :=
  derivedSession ⟨sessionId, {}, some 1, false, .complete⟩ {}

/-- The newest sample has three sessions, of which the one with the largest id has the largest id
there is. -/
def threeSessions : DerivedSample :=
  { idleFrame 1 with sessions := [listedSession 4294967295, listedSession 3, listedSession 5] }

def threeView : ServiceView where
  history := { twoFrames with frames := [idleFrame 0, threeSessions] }
  running := true
  writerAvailable := true
  writeFailures := 0
  loaded := none
  wallTimeMs := 1
  pid := 1

theorem dashboard_pages_three :
    ∃ pages, Follows (fun _ => summary (stableSort metricsKey) threeView) (fun _ => 2) 0 0 pages :=
  (@dashboard_pages (stableSort metricsKey) (fun _ => threeView) threeSessions (fun _ => 2)
    (fun _ => rfl) ⟨by decide, by decide, by decide⟩ fun _ => ⟨by decide, by decide⟩).1

end witness

end Dashboard

end PersistShell

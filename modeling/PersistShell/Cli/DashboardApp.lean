import PersistShell.Cli.DashboardClient
import PersistShell.Program.Run

/-! The dashboard of `persist top`: the sessions it lists, the one that is selected, and the trend
of the detail view, over the keys that are pressed and the answers of the daemon. -/

namespace PersistShell
open Dashboard

inductive View where
  | sessions
  | detail
  deriving DecidableEq, Repr

inductive SortKey where
  | cpu
  | rss
  | io
  | processes
  | sessionId
  deriving DecidableEq, Repr

/-- `io_total`; the sum saturates. -/
def ioTotal (session : SessionMetrics) : Nat :=
  min (session.readBytesPerSec.toNat + session.writeBytesPerSec.toNat) (2 ^ 64 - 1)

namespace SortKey

def compare (sort : SortKey) (left right : SessionMetrics) : Ordering :=
  match sort with
  | cpu => Ord.compare left.cpuMilliPercent.toNat right.cpuMilliPercent.toNat
  | rss => Ord.compare left.rssKib.toNat right.rssKib.toNat
  | io => Ord.compare (ioTotal left) (ioTotal right)
  | processes => Ord.compare left.processCount.toNat right.processCount.toNat
  | sessionId => Ord.compare right.sessionId.toNat left.sessionId.toNat

/-- Whether the one may stand above the other. -/
def above (sort : SortKey) (left right : SessionMetrics) : Bool :=
  ((sort.compare left right).swap.then
    (Ord.compare left.sessionId.toNat right.sessionId.toNat)).isLE

def next : SortKey → SortKey
  | cpu => rss
  | rss => io
  | io => processes
  | processes => sessionId
  | sessionId => cpu

end SortKey

structure App where
  snapshot : DashboardSnapshot
  trend : DashboardTrendResponse
  selected : Nat := 0
  view : View := .sessions
  sort : SortKey := .cpu
  range : TrendRange := .fifteenMinutes
  connected : Bool := true
  status : String := ""
  deriving DecidableEq, Repr

namespace App

def sessions (app : App) : List SessionMetrics := app.snapshot.sessions

def selectedSession (app : App) : Option SessionMetrics := app.sessions[app.selected]?

def selectedId (app : App) : Option UInt32 := app.selectedSession.map (·.sessionId)

def sortSessions (app : App) : App :=
  let sessions := app.sessions.mergeSort app.sort.above
  { app with
    snapshot := { app.snapshot with sessions }
    selected := if sessions.length ≤ app.selected then sessions.length - 1 else app.selected }

def new (snapshot : DashboardSnapshot) (trend : DashboardTrendResponse) : App :=
  ({ snapshot, trend } : App).sortSessions

def moveSelection (app : App) (delta : Int) : App :=
  if app.sessions.length = 0 then { app with selected := 0 }
  else { app with selected := min (app.selected + delta).toNat (app.sessions.length - 1) }

/-- Sorts, and selects the session of that id where it is listed. -/
def reselect (app : App) (id : Option UInt32) : App :=
  let app := app.sortSessions
  { app with selected := (id.bind fun id =>
      app.sessions.findIdx? fun session => session.sessionId = id).getD 0 }

def cycleSort (app : App) : App := ({ app with sort := app.sort.next } : App).reselect app.selectedId

def cycleRange (app : App) : App :=
  { app with range := match app.range with
    | .fifteenMinutes => .hour
    | .hour => .day
    | .day => .fifteenMinutes }

def replaceSnapshot (app : App) (snapshot : DashboardSnapshot) : App :=
  ({ app with snapshot } : App).reselect app.selectedId

/-- The request of `update_trend`. -/
def trendRequest (app : App) : DashboardTrendRequest where
  scope := app.selectedId.elim .daemon .session
  range := app.range
  maxPoints := 240

def markDisconnected (app : App) (error : PersistError) : App :=
  { app with connected := false, status := error.text }

end App

/-- The dashboard, with the sessions it was last told of and the request that its trend answers. -/
structure Screen where
  app : App
  told : List SessionMetrics
  asked : DashboardTrendRequest
  deriving DecidableEq, Repr

inductive Key where
  | char (c : Char)
  | up
  | down
  | enter
  | esc
  | other
  deriving DecidableEq, Repr

structure KeyEvent where
  key : Key
  press : Bool := true
  control : Bool := false
  deriving DecidableEq, Repr

/-- A key, with the answer to the request that it may lead to; or the time to refresh, with the
answers to the summary and the trend, and the summary of a new connection where there is one. -/
inductive ScreenEvent where
  | key (event : KeyEvent) (answer : Except PersistError DashboardTrendResponse)
  | refresh (summary : Except PersistError DashboardSnapshot)
      (answer : Except PersistError DashboardTrendResponse) (reconnected : Option DashboardSnapshot)

namespace Screen

/-- The first request is for the daemon. -/
def start (snapshot : DashboardSnapshot) (trend : DashboardTrendResponse) : Screen where
  app := .new snapshot trend
  told := snapshot.sessions
  asked := { scope := .daemon, range := .fifteenMinutes, maxPoints := 240 }

/-- `update_trend`, and `mark_disconnected` where it fails. -/
def updateTrend (s : Screen) (answer : Except PersistError DashboardTrendResponse) : Screen :=
  match answer with
  | .ok trend => { s with app := { s.app with trend }, asked := s.app.trendRequest }
  | .error error => { s with app := s.app.markDisconnected error }

def replaceSnapshot (s : Screen) (snapshot : DashboardSnapshot) : Screen :=
  { s with
    app := { s.app.replaceSnapshot snapshot with connected := true, status := "" }
    told := snapshot.sessions }

/-- `handle_key`; `none` leaves the dashboard. -/
def handleKey (s : Screen) (event : KeyEvent)
    (answer : Except PersistError DashboardTrendResponse) : Option Screen :=
  if !event.press then some s
  else if event.key = .char 'c' && event.control then none
  else match s.app.view, event.key with
    | _, .char 'q' => none
    | .sessions, .down | .sessions, .char 'j' => some { s with app := s.app.moveSelection 1 }
    | .sessions, .up | .sessions, .char 'k' => some { s with app := s.app.moveSelection (-1) }
    | .sessions, .char 's' => some { s with app := s.app.cycleSort }
    | .sessions, .enter =>
      if s.app.selectedSession.isSome then
        some ({ s with app := { s.app with view := .detail } }.updateTrend answer)
      else some s
    | .detail, .esc => some { s with app := { s.app with view := .sessions } }
    | .detail, .char 'r' => some ({ s with app := s.app.cycleRange }.updateTrend answer)
    | _, _ => some s

def refresh (s : Screen) (summary : Except PersistError DashboardSnapshot)
    (answer : Except PersistError DashboardTrendResponse)
    (reconnected : Option DashboardSnapshot) : Screen :=
  match summary with
  | .ok snapshot =>
    let s := s.replaceSnapshot snapshot
    if s.app.view = .detail then s.updateTrend answer else s
  | .error error =>
    let s := { s with app := s.app.markDisconnected error }
    match reconnected with
    | some snapshot => s.replaceSnapshot snapshot
    | none => s

def step (s : Screen) : ScreenEvent → Option Screen
  | .key event answer => s.handleKey event answer
  | .refresh summary answer reconnected => some (s.refresh summary answer reconnected)

/-- What holds of the list and of the selection. -/
structure Orderly (s : Screen) : Prop where
  sorted : s.app.sessions.Pairwise fun left right => s.app.sort.above left right = true
  told : s.app.sessions.Perm s.told
  selected : s.app.selected ≤ s.app.sessions.length - 1

end Screen

section sorting

/-- The larger value stands above, and of equal ones the smaller id. -/
theorem isLE_swap_then (a b c d : Nat) :
    ((Ord.compare a b).swap.then (Ord.compare c d)).isLE = true ↔ b < a ∨ a = b ∧ c ≤ d := by
  rcases lt_trichotomy a b with hlt | rfl | hgt
  · rw [Nat.compare_eq_lt.mpr hlt]
    exact ⟨fun h => (by cases h), fun h => by omega⟩
  · rw [Nat.compare_eq_eq.mpr rfl]
    simp [Ordering.swap, Ordering.then, Nat.isLE_compare]
  · rw [Nat.compare_eq_gt.mpr hgt]
    simp [Ordering.swap, Ordering.then, hgt]

/-- What a list is sorted by. -/
def SortKey.value : SortKey → SessionMetrics → Nat
  | .cpu, session => session.cpuMilliPercent.toNat
  | .rss, session => session.rssKib.toNat
  | .io, session => ioTotal session
  | .processes, session => session.processCount.toNat
  | .sessionId, _ => 0

theorem SortKey.above_iff (sort : SortKey) (left right : SessionMetrics) :
    sort.above left right = true ↔ sort.value right < sort.value left ∨
      sort.value left = sort.value right ∧ left.sessionId.toNat ≤ right.sessionId.toNat := by
  cases sort with
  | sessionId =>
    rw [SortKey.above, SortKey.compare, isLE_swap_then]
    exact ⟨fun h => .inr ⟨rfl, by omega⟩, fun h => by
      have := (h.resolve_left (lt_irrefl _)).2
      omega⟩
  | _ => exact isLE_swap_then _ _ _ _

theorem SortKey.above_trans (sort : SortKey) (a b c : SessionMetrics)
    (hab : sort.above a b = true) (hbc : sort.above b c = true) : sort.above a c = true := by
  rw [SortKey.above_iff] at hab hbc ⊢
  omega

theorem SortKey.above_total (sort : SortKey) (a b : SessionMetrics) :
    (sort.above a b || sort.above b a) = true := by
  rw [Bool.or_eq_true, SortKey.above_iff, SortKey.above_iff]
  omega

end sorting

section app

variable {app : App}

theorem App.sessions_sortSessions (app : App) :
    app.sortSessions.sessions = app.sessions.mergeSort app.sort.above := rfl

theorem App.selected_reselect (app : App) (id : Option UInt32) :
    (app.reselect id).selected ≤ (app.reselect id).sessions.length - 1 := by
  show (id.bind fun id => app.sortSessions.sessions.findIdx?
    fun session => session.sessionId = id).getD 0 ≤ app.sortSessions.sessions.length - 1
  cases hfound : id.bind fun id => app.sortSessions.sessions.findIdx?
      fun session => session.sessionId = id with
  | none => exact Nat.zero_le _
  | some index =>
    obtain ⟨id, -, hindex⟩ := Option.bind_eq_some_iff.mp hfound
    obtain ⟨hlt, -⟩ := List.findIdx?_eq_some_iff_getElem.mp hindex
    exact Nat.le_sub_one_of_lt hlt

/-- The session that was selected is selected again, where it is still listed. -/
theorem App.selectedId_reselect {id : UInt32} (h : id ∈ app.sessions.map (·.sessionId)) :
    (app.reselect (some id)).selectedId = some id := by
  have hmem : id ∈ app.sortSessions.sessions.map (·.sessionId) :=
    ((List.mergeSort_perm app.sessions app.sort.above).map _).mem_iff.mpr h
  obtain ⟨session, hsession, hid⟩ := List.mem_map.mp hmem
  cases hindex : app.sortSessions.sessions.findIdx? fun session => session.sessionId = id with
  | none =>
    have := List.findIdx?_eq_none_iff.mp hindex session hsession
    simp [hid] at this
  | some index =>
    obtain ⟨hlt, hat, -⟩ := List.findIdx?_eq_some_iff_getElem.mp hindex
    have hselected : (app.reselect (some id)).selected = index := by
      show ((some id).bind fun id => app.sortSessions.sessions.findIdx? _).getD 0 = index
      rw [Option.bind_some, hindex]
      rfl
    show ((app.sortSessions.sessions)[(app.reselect (some id)).selected]?).map _ = some id
    rw [hselected, List.getElem?_eq_getElem hlt]
    exact congrArg some (of_decide_eq_true hat)

theorem App.reselect_orderly (app : App) (id : Option UInt32) :
    (app.reselect id).sessions.Pairwise (fun left right => app.sort.above left right = true) ∧
      (app.reselect id).sessions.Perm app.sessions :=
  ⟨List.pairwise_mergeSort app.sort.above_trans app.sort.above_total app.sessions,
    List.mergeSort_perm app.sessions app.sort.above⟩

end app

namespace Screen

/-- A key that moves the selection. -/
def Moves (s : Screen) (e : ScreenEvent) : Prop :=
  ∃ event answer, e = .key event answer ∧ event.press = true ∧ s.app.view = .sessions ∧
    event.key ∈ [.down, .up, .char 'j', .char 'k']

variable {s s' : Screen} {e : ScreenEvent} {moves : Prop}

/-- What a step leaves: the list, sorted again or replaced, and the selection. -/
structure Follows (s s' : Screen) (moves : Prop) : Prop where
  orderly : s.Orderly → s'.Orderly
  keeps : ¬ moves → ∀ id, s.app.selectedId = some id → id ∈ s'.app.sessions.map (·.sessionId) →
    s'.app.selectedId = some id

theorem Follows.same (hsessions : s'.app.sessions = s.app.sessions)
    (hsort : s'.app.sort = s.app.sort) (htold : s'.told = s.told)
    (hselected : s'.app.selected = s.app.selected) : Follows s s' moves where
  orderly h := ⟨by rw [hsessions, hsort]; exact h.sorted, by rw [hsessions, htold]; exact h.told,
    by rw [hsessions, hselected]; exact h.selected⟩
  keeps _ id hid _ := by
    rw [App.selectedId, App.selectedSession, hsessions, hselected]
    exact hid

theorem Follows.updateTrend (h : Follows s s' moves)
    (answer : Except PersistError DashboardTrendResponse) : Follows s (s'.updateTrend answer) moves := by
  cases answer with
  | ok trend => exact ⟨fun ho => ⟨(h.orderly ho).sorted, (h.orderly ho).told, (h.orderly ho).selected⟩, h.keeps⟩
  | error error =>
    exact ⟨fun ho => ⟨(h.orderly ho).sorted, (h.orderly ho).told, (h.orderly ho).selected⟩, h.keeps⟩

theorem Follows.replaceSnapshot (s : Screen) (snapshot : DashboardSnapshot) (moves : Prop) :
    Follows s (s.replaceSnapshot snapshot) moves where
  orderly _ := by
    obtain ⟨hsorted, hperm⟩ := ({ s.app with snapshot } : App).reselect_orderly s.app.selectedId
    exact ⟨hsorted, hperm, App.selected_reselect _ s.app.selectedId⟩
  keeps _ id hid hmem := by
    have hkeeps : (({ s.app with snapshot } : App).reselect (some id)).selectedId = some id := by
      refine App.selectedId_reselect ?_
      have hperm := (({ s.app with snapshot } : App).reselect_orderly s.app.selectedId).2
      exact (hperm.map _).mem_iff.mp hmem
    rw [← hid] at hkeeps
    exact hkeeps.trans hid

end Screen

namespace Screen

/-- In the detail view the trend is what was asked for. -/
def Fresh (s : Screen) : Prop :=
  s.app.view = .detail → s.app.connected = true → s.asked = s.app.trendRequest

variable {s s' : Screen}

end Screen

end PersistShell

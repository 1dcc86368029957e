import PersistShell.Dashboard.Service
import PersistShell.Ipc.PublicChunks

/-! The client of `persist top`: it reads the pages of a summary one after another, over frames
that the daemon answers while it goes on taking samples. -/

namespace PersistShell
open Dashboard

structure DashboardSnapshot where
  sampledAtMs : UInt64
  completeness : Completeness
  daemon : DaemonMetrics
  sessions : List SessionMetrics
  deriving DecidableEq, Repr

def maxSummarySessions : Nat := 262144

def mergeCompleteness : Completeness → Completeness → Completeness
  | .unavailable, _ | _, .unavailable => .unavailable
  | .stale, _ | _, .stale => .stale
  | .partial_, _ | _, .partial_ => .partial_
  | .complete, .complete => .complete

/-- What `collect_summary_pages` has of the pages so far. -/
structure SummaryPages where
  cursor : UInt32 := 0
  lastId : Option UInt32 := none
  sessions : List SessionMetrics := []
  seen : List UInt32 := []
  room : sessions.length ≤ maxSummarySessions := by decide

namespace SummaryPages

def takeSession (pages : SummaryPages) (session : SessionMetrics) :
    Except PersistError SummaryPages :=
  if session.sessionId ≤ pages.cursor ∨ pages.lastId.any (session.sessionId ≤ ·) ∨
      pages.seen.contains session.sessionId then
    .error (.invalidArgument "invalid dashboard summary pagination")
  else if h : pages.sessions.length + 1 > maxSummarySessions then
    .error (.invalidArgument "dashboard summary exceeds client limit")
  else .ok {
    cursor := pages.cursor
    lastId := some session.sessionId
    sessions := pages.sessions ++ [session]
    seen := session.sessionId :: pages.seen
    room := by
      rw [List.length_append, List.length_singleton]
      exact Nat.le_of_not_gt h }

def takePage (pages : SummaryPages) (page : List SessionMetrics) : Except PersistError SummaryPages :=
  page.foldlM takeSession { pages with lastId := none }

variable {pages taken : SummaryPages}

theorem takeSession_sessions {session : SessionMetrics}
    (h : pages.takeSession session = .ok taken) :
    taken.sessions = pages.sessions ++ [session] := by
  unfold takeSession at h
  split at h
  · cases h
  · split at h
    · cases h
    · cases h
      rfl

theorem foldlM_sessions {page : List SessionMetrics}
    (h : page.foldlM takeSession pages = .ok taken) : taken.sessions = pages.sessions ++ page := by
  induction page generalizing pages with
  | nil =>
    cases h
    exact (List.append_nil _).symm
  | cons session page ih =>
    rw [List.foldlM_cons, bind_eq_ok] at h
    obtain ⟨next, hnext, hrest⟩ := h
    rw [ih hrest, takeSession_sessions hnext, List.append_assoc, List.singleton_append]

theorem foldlM_lastId {page : List SessionMetrics} (h : page.foldlM takeSession pages = .ok taken) :
    taken.lastId = (page.getLast?.map (·.sessionId)).or pages.lastId := by
  induction page generalizing pages with
  | nil =>
    cases h
    rfl
  | cons session page ih =>
    rw [List.foldlM_cons, bind_eq_ok] at h
    obtain ⟨next, hnext, hrest⟩ := h
    have hlast : next.lastId = some session.sessionId := by
      unfold takeSession at hnext
      split at hnext
      · cases hnext
      · split at hnext
        · cases hnext
        · cases hnext
          rfl
    rw [ih hrest, hlast, List.getLast?_cons]
    cases page.getLast? with
    | none => rfl
    | some last => rfl

theorem takePage_sessions {page : List SessionMetrics} (h : pages.takePage page = .ok taken) :
    taken.sessions = pages.sessions ++ page :=
  @foldlM_sessions { pages with lastId := none } taken page h

theorem takePage_lastId {page : List SessionMetrics} (h : pages.takePage page = .ok taken) :
    taken.lastId = page.getLast?.map (·.sessionId) :=
  (@foldlM_lastId { pages with lastId := none } taken page h).trans Option.or_none

/-- A page with a session leaves less room. -/
theorem takePage_room {page : List SessionMetrics} (h : pages.takePage page = .ok taken)
    (hlast : taken.lastId ≠ none) :
    maxSummarySessions - taken.sessions.length < maxSummarySessions - pages.sessions.length := by
  have hroom := taken.room
  rw [takePage_lastId h] at hlast
  rw [takePage_sessions h, List.length_append] at hroom ⊢
  cases page with
  | nil => exact absurd rfl hlast
  | cons session page =>
    rw [List.length_cons] at hroom ⊢
    omega

end SummaryPages

/-- The loop of `collect_summary_pages`, with the page that was fetched last; `k` requests were
made. Every page but the last one has a session. -/
def collectFrom (fetch : Nat → DashboardSummaryRequest → Except PersistError DashboardSummaryResponse)
    (k : Nat) (pages : SummaryPages) (completeness : Completeness)
    (response : DashboardSummaryResponse) : Except PersistError DashboardSnapshot :=
  let completeness := mergeCompleteness completeness response.completeness
  match htaken : pages.takePage response.sessions with
  | .error error => .error error
  | .ok taken =>
    match response.nextCursor with
    | none => .ok {
        sampledAtMs := response.sampledAtMs
        completeness
        daemon := response.daemon
        sessions := taken.sessions }
    | some next =>
      if hnext : some next = taken.lastId ∧ next > pages.cursor then
        have _ := SummaryPages.takePage_room htaken (hnext.1 ▸ Option.some_ne_none _)
        match fetch k { cursor := next, limit := UInt16.ofNat maxSummaryPage } with
        | .error error => .error error
        | .ok response => collectFrom fetch (k + 1) { taken with cursor := next } completeness response
      else .error (.invalidArgument "invalid dashboard summary cursor")
termination_by maxSummarySessions - pages.sessions.length

def collectSummaryPages
    (fetch : Nat → DashboardSummaryRequest → Except PersistError DashboardSummaryResponse) :
    Except PersistError DashboardSnapshot := do
  let response ← fetch 0 { cursor := 0, limit := UInt16.ofNat maxSummaryPage }
  collectFrom fetch 1 {} response.completeness response

namespace SummaryPages

/-- The id that the next session comes behind. -/
def bound (pages : SummaryPages) : UInt32 := pages.lastId.getD pages.cursor

/-- Nothing behind the bound was seen. -/
structure Orderly (pages : SummaryPages) : Prop where
  last : ∀ id, pages.lastId = some id → pages.cursor < id
  seen : ∀ id ∈ pages.seen, id ≤ pages.bound

variable {pages taken : SummaryPages} {session : SessionMetrics} {page : List SessionMetrics}

/-- What `takeSession` asks of the id of a session, in one inequality. -/
theorem Orderly.refuses_iff (h : pages.Orderly) (id : UInt32) :
    (id ≤ pages.cursor ∨ pages.lastId.any (id ≤ ·) = true ∨ pages.seen.contains id = true) ↔
      id ≤ pages.bound := by
  have hseen : pages.seen.contains id = true → id ≤ pages.bound := fun hid =>
    h.seen id (List.contains_iff_mem.mp hid)
  unfold bound at hseen ⊢
  cases hlast : pages.lastId with
  | none =>
    rw [hlast] at hseen
    refine ⟨fun hrefused => ?_, .inl⟩
    rcases hrefused with hcursor | hnone | hcontains
    · exact hcursor
    · cases hnone
    · exact hseen hcontains
  | some last =>
    have hless := h.last last hlast
    rw [hlast] at hseen
    refine ⟨fun hrefused => ?_, fun hle => .inr (.inl (decide_eq_true hle))⟩
    rcases hrefused with hcursor | hany | hcontains
    · exact UInt32.le_of_lt (UInt32.lt_of_le_of_lt hcursor hless)
    · exact of_decide_eq_true hany
    · exact hseen hcontains

theorem Orderly.takeSession (h : pages.Orderly) (htaken : pages.takeSession session = .ok taken) :
    pages.bound < session.sessionId ∧ taken.Orderly ∧ taken.bound = session.sessionId ∧
      taken.cursor = pages.cursor := by
  unfold SummaryPages.takeSession at htaken
  split at htaken
  · cases htaken
  · rename_i hbehind
    have hless : pages.bound < session.sessionId :=
      UInt32.not_le.mp fun hle => hbehind ((h.refuses_iff _).mpr hle)
    split at htaken
    · cases htaken
    · cases htaken
      refine ⟨hless, ⟨fun id hid => ?_, fun id hid => ?_⟩, rfl, rfl⟩
      · cases hid
        exact UInt32.not_le.mp fun hle => hbehind (.inl hle)
      · rcases List.mem_cons.mp hid with rfl | hid
        · exact UInt32.le_refl _
        · exact UInt32.le_of_lt (UInt32.lt_of_le_of_lt (h.seen id hid) hless)

theorem Orderly.exists_takeSession (h : pages.Orderly) (hbehind : pages.bound < session.sessionId)
    (hroom : pages.sessions.length + 1 ≤ maxSummarySessions) :
    ∃ taken, pages.takeSession session = .ok taken := by
  have haccepted := mt (h.refuses_iff session.sessionId).mp (UInt32.not_le.mpr hbehind)
  unfold SummaryPages.takeSession
  rw [if_neg haccepted, dif_neg (Nat.not_lt.mpr hroom)]
  exact ⟨_, rfl⟩

/-- The ids of a page that was taken ascend from the bound. -/
theorem Orderly.foldlM (h : pages.Orderly)
    (htaken : page.foldlM SummaryPages.takeSession pages = .ok taken) :
    (pages.bound :: page.map (·.sessionId)).Pairwise (· < ·) ∧ taken.Orderly := by
  induction page generalizing pages with
  | nil =>
    cases htaken
    exact ⟨List.pairwise_singleton _ _, h⟩
  | cons session page ih =>
    rw [List.foldlM_cons, bind_eq_ok] at htaken
    obtain ⟨next, hnext, hrest⟩ := htaken
    obtain ⟨hless, horderly, hbound, -⟩ := h.takeSession hnext
    obtain ⟨hascending, htaken⟩ := ih horderly hrest
    rw [hbound] at hascending
    refine ⟨List.pairwise_cons.mpr ⟨fun id hid => ?_, hascending⟩, htaken⟩
    rcases List.mem_cons.mp hid with rfl | hid
    · exact hless
    · exact UInt32.lt_trans hless ((List.pairwise_cons.mp hascending).1 id hid)

theorem Orderly.exists_foldlM (h : pages.Orderly)
    (hascending : (pages.bound :: page.map (·.sessionId)).Pairwise (· < ·))
    (hroom : pages.sessions.length + page.length ≤ maxSummarySessions) :
    ∃ taken, page.foldlM SummaryPages.takeSession pages = .ok taken := by
  induction page generalizing pages with
  | nil => exact ⟨_, rfl⟩
  | cons session page ih =>
    rw [List.map_cons, List.pairwise_cons] at hascending
    rw [List.length_cons] at hroom
    obtain ⟨next, hnext⟩ := h.exists_takeSession (hascending.1 _ List.mem_cons_self) (by omega)
    obtain ⟨-, horderly, hbound, -⟩ := h.takeSession hnext
    obtain ⟨taken, htaken⟩ := ih horderly (hbound ▸ hascending.2) (by
      rw [takeSession_sessions hnext, List.length_append, List.length_singleton]
      omega)
    exact ⟨taken, by rw [List.foldlM_cons, hnext]; exact htaken⟩

/-- Between two pages nothing behind the cursor was seen. -/
def Between (pages : SummaryPages) : Prop := ∀ id ∈ pages.seen, id ≤ pages.cursor

theorem Between.orderly (h : pages.Between) : ({ pages with lastId := none } : SummaryPages).Orderly :=
  ⟨fun _ hid => (by cases hid), h⟩

end SummaryPages

/-- The request for the page behind a cursor. -/
def pageRequest (cursor : UInt32) : DashboardSummaryRequest where
  cursor
  limit := UInt16.ofNat maxSummaryPage

/-- The pages that requests from the `k`-th on are answered with, each one for the page behind the
last session of the page before. -/
inductive Fetched
    (fetch : Nat → DashboardSummaryRequest → Except PersistError DashboardSummaryResponse) :
    Nat → UInt32 → List DashboardSummaryResponse → Prop
  | last {k cursor page} (h : fetch k (pageRequest cursor) = .ok page)
      (hlast : page.nextCursor = none) : Fetched fetch k cursor [page]
  | more {k cursor page next pages} (h : fetch k (pageRequest cursor) = .ok page)
      (hnext : page.nextCursor = some next)
      (hlast : page.sessions.getLast?.map (·.sessionId) = some next)
      (hrest : Fetched fetch (k + 1) next pages) : Fetched fetch k cursor (page :: pages)

/-- How far a sample is from being complete. -/
def Completeness.severity : Completeness → Nat
  | .complete => 0
  | .partial_ => 1
  | .stale => 2
  | .unavailable => 3

theorem severity_merge (a b : Completeness) :
    (mergeCompleteness a b).severity = max a.severity b.severity := by
  cases a <;> cases b <;> rfl

theorem merge_cases (a b : Completeness) :
    mergeCompleteness a b = a ∨ mergeCompleteness a b = b := by
  cases a <;> cases b <;> simp [mergeCompleteness]

/-- The worst completeness of some pages. -/
structure Worst (worst : Completeness) (all : List Completeness) : Prop where
  mem : worst ∈ all
  le : ∀ c ∈ all, c.severity ≤ worst.severity

theorem worst_foldl (first : Completeness) (rest : List Completeness) :
    Worst (rest.foldl mergeCompleteness first) (first :: rest) := by
  induction rest generalizing first with
  | nil => exact ⟨List.mem_cons_self, fun c hc => by rw [List.mem_singleton.mp hc]; exact Nat.le_refl _⟩
  | cons c rest ih =>
    obtain ⟨hmem, hle⟩ := ih (mergeCompleteness first c)
    have hmerged := hle _ List.mem_cons_self
    rw [severity_merge] at hmerged
    refine ⟨?_, fun d hd => ?_⟩
    · rcases List.mem_cons.mp hmem with heq | hmem
      · rw [List.foldl_cons, heq]
        rcases merge_cases first c with hfirst | hc
        · rw [hfirst]
          exact List.mem_cons_self
        · rw [hc]
          exact List.mem_cons_of_mem _ List.mem_cons_self
      · exact List.mem_cons_of_mem _ (List.mem_cons_of_mem _ hmem)
    · rcases List.mem_cons.mp hd with rfl | hd
      · exact (Nat.le_max_left _ _).trans hmerged
      · rcases List.mem_cons.mp hd with rfl | hd
        · exact (Nat.le_max_right _ _).trans hmerged
        · exact hle d (List.mem_cons_of_mem _ hd)

section collect

variable {fetch : Nat → DashboardSummaryRequest → Except PersistError DashboardSummaryResponse}
  {k : Nat} {pages taken : SummaryPages} {completeness : Completeness}
  {response : DashboardSummaryResponse} {snapshot : DashboardSnapshot}

/-- One turn of the loop. -/
theorem collectFrom_eq_ok : collectFrom fetch k pages completeness response = .ok snapshot ↔
    ∃ taken, pages.takePage response.sessions = .ok taken ∧
      (response.nextCursor = none ∧ snapshot = {
          sampledAtMs := response.sampledAtMs
          completeness := mergeCompleteness completeness response.completeness
          daemon := response.daemon
          sessions := taken.sessions } ∨
        ∃ next response', response.nextCursor = some next ∧ taken.lastId = some next ∧
          pages.cursor < next ∧ fetch k (pageRequest next) = .ok response' ∧
          collectFrom fetch (k + 1) { taken with cursor := next }
            (mergeCompleteness completeness response.completeness) response' = .ok snapshot) := by
  constructor
  · intro h
    rw [collectFrom] at h
    split at h
    · cases h
    · rename_i taken htaken
      refine ⟨taken, htaken, ?_⟩
      split at h
      · rename_i hnone
        cases h
        exact .inl ⟨hnone, rfl⟩
      · rename_i next hnext
        split at h
        · rename_i hbehind
          split at h
          · cases h
          · rename_i response' hfetch
            exact .inr ⟨next, response', hnext, hbehind.1.symm, hbehind.2, hfetch, h⟩
        · cases h
  · rintro ⟨taken, htaken, hcases⟩
    rw [collectFrom]
    split
    · rename_i error herror
      cases herror.symm.trans htaken
    · rename_i taken' htaken'
      cases htaken'.symm.trans htaken
      rcases hcases with ⟨hnone, rfl⟩ | ⟨next, response', hnext, hlast, hless, hfetch, h⟩
      · rw [hnone]
      · rw [hnext]
        dsimp only
        rw [dif_pos ⟨hlast.symm, hless⟩]
        change fetch k { cursor := next, limit := UInt16.ofNat maxSummaryPage } = _ at hfetch
        rw [hfetch]
        exact h

end collect

/-- What the pages that were fetched come to. -/
structure Assembled (pages : List DashboardSummaryResponse) (snapshot : DashboardSnapshot) :
    Prop where
  sessions : snapshot.sessions = pages.flatMap (·.sessions)
  last : pages.getLast?.map (fun page => (page.sampledAtMs, page.daemon)) =
    some (snapshot.sampledAtMs, snapshot.daemon)
  completeness : Worst snapshot.completeness (pages.map (·.completeness))

/-- The ids of the pages, in the order in which they come. -/
def pageIds (pages : List DashboardSummaryResponse) : List UInt32 :=
  pages.flatMap fun page => page.sessions.map (·.sessionId)

/-- What comes behind the last element of an ascending list comes behind all of them. -/
theorem ascending_append {l r : List UInt32} {last : UInt32} (hl : l.Pairwise (· < ·))
    (hlast : l.getLast? = some last) (hr : (last :: r).Pairwise (· < ·)) :
    (l ++ r).Pairwise (· < ·) := by
  obtain ⟨front, rfl⟩ := List.getLast?_eq_some_iff.mp hlast
  rw [List.append_assoc, List.singleton_append]
  obtain ⟨hfront, -, hbefore⟩ := List.pairwise_append.mp hl
  refine List.pairwise_append.mpr ⟨hfront, hr, fun a ha b hb => ?_⟩
  have hless : a < last := hbefore a ha last (List.mem_singleton_self last)
  rcases List.mem_cons.mp hb with rfl | hb
  · exact hless
  · exact UInt32.lt_trans hless ((List.pairwise_cons.mp hr).1 b hb)

section collect

variable {fetch : Nat → DashboardSummaryRequest → Except PersistError DashboardSummaryResponse}
  {k : Nat} {cursor : UInt32} {pages : SummaryPages} {completeness : Completeness}
  {response : DashboardSummaryResponse} {snapshot : DashboardSnapshot}
  {list : List DashboardSummaryResponse}

theorem collectFrom_fetched (hbetween : pages.Between)
    (hfetch : fetch k (pageRequest pages.cursor) = .ok response)
    (h : collectFrom fetch (k + 1) pages completeness response = .ok snapshot) :
    ∃ list, Fetched fetch k pages.cursor list ∧
      (pages.cursor :: pageIds list).Pairwise (· < ·) ∧
      snapshot.sessions = pages.sessions ++ list.flatMap (·.sessions) ∧
      list.getLast?.map (fun page => (page.sampledAtMs, page.daemon)) =
        some (snapshot.sampledAtMs, snapshot.daemon) ∧
      snapshot.completeness = (list.map (·.completeness)).foldl mergeCompleteness completeness ∧
      list.head? = some response ∧ snapshot.sessions.length ≤ maxSummarySessions := by
  induction hn : maxSummarySessions - pages.sessions.length using Nat.strongRecOn
    generalizing k pages completeness response with
  | _ n ih =>
    obtain ⟨taken, htaken, hcases⟩ := collectFrom_eq_ok.mp h
    obtain ⟨hascending, horderly⟩ := hbetween.orderly.foldlM htaken
    have hsessions := SummaryPages.takePage_sessions htaken
    have hroom := taken.room
    rcases hcases with ⟨hnone, rfl⟩ | ⟨next, response', hnext, hlast, hless, hfetch', h'⟩
    · refine ⟨[response], .last hfetch hnone, ?_, ?_, rfl, rfl, rfl, hroom⟩
      · rw [pageIds, List.flatMap_singleton]
        exact hascending
      · rw [List.flatMap_singleton]
        exact hsessions
    · have hseen : ({ taken with cursor := next } : SummaryPages).Between := by
        intro id hid
        have hle := horderly.seen id hid
        rw [SummaryPages.bound, hlast] at hle
        exact hle
      have hfewer := SummaryPages.takePage_room htaken (hlast ▸ Option.some_ne_none _)
      obtain ⟨later, hlater, hbehind, hrest, hend, hworst, hhead, hbound⟩ :=
        ih _ (hn ▸ hfewer) hseen hfetch' h' rfl
      have hlastId := (SummaryPages.takePage_lastId htaken).symm.trans hlast
      refine ⟨response :: later, .more hfetch hnext hlastId hlater, ?_, ?_, ?_, hworst, rfl, hbound⟩
      · rw [pageIds, List.flatMap_cons, ← List.cons_append]
        refine ascending_append hascending ?_ hbehind
        rw [List.getLast?_cons, List.getLast?_map, hlastId]
        rfl
      · rw [hrest, hsessions, List.flatMap_cons, List.append_assoc]
      · cases later with
        | nil => cases hhead
        | cons page later => rw [List.getLast?_cons_cons]; exact hend

theorem collectFrom_of_fetched (hfetched : Fetched fetch k cursor list)
    (hcursor : pages.cursor = cursor) (hbetween : pages.Between)
    (hascending : (cursor :: pageIds list).Pairwise (· < ·))
    (hroom : pages.sessions.length + (list.flatMap (·.sessions)).length ≤ maxSummarySessions) :
    ∃ response, fetch k (pageRequest cursor) = .ok response ∧
      ∀ completeness, ∃ snapshot,
        collectFrom fetch (k + 1) pages completeness response = .ok snapshot := by
  induction hfetched generalizing pages with
  | @last k cursor page h hlast =>
    rw [pageIds, List.flatMap_singleton] at hascending
    rw [List.flatMap_singleton] at hroom
    obtain ⟨taken, htaken⟩ := hbetween.orderly.exists_foldlM
      (show (pages.cursor :: _).Pairwise _ by rw [hcursor]; exact hascending) hroom
    exact ⟨page, h, fun completeness =>
      ⟨_, collectFrom_eq_ok.mpr ⟨taken, htaken, .inl ⟨hlast, rfl⟩⟩⟩⟩
  | @more k cursor page next later h hnext hlast hrest ih =>
    rw [pageIds, List.flatMap_cons, ← List.cons_append] at hascending
    rw [List.flatMap_cons, List.length_append] at hroom
    obtain ⟨hpage, hlater, hbefore⟩ := List.pairwise_append.mp hascending
    obtain ⟨taken, htaken⟩ := hbetween.orderly.exists_foldlM
      (show (pages.cursor :: _).Pairwise _ by rw [hcursor]; exact hpage)
      (show pages.sessions.length + page.sessions.length ≤ _ by omega)
    have hsessions := SummaryPages.takePage_sessions htaken
    have hlastId := (SummaryPages.takePage_lastId htaken).trans hlast
    have horderly := (hbetween.orderly.foldlM htaken).2
    have hmem : next ∈ page.sessions.map (·.sessionId) :=
      List.mem_of_getLast? (by rw [List.getLast?_map]; exact hlast)
    obtain ⟨response', hfetch, hcollect⟩ := @ih { taken with cursor := next } rfl
      (fun id hid => by
        have hle := horderly.seen id hid
        rw [SummaryPages.bound, hlastId] at hle
        exact hle)
      (List.pairwise_cons.mpr
        ⟨fun id hid => hbefore next (List.mem_cons_of_mem _ hmem) id hid, hlater⟩)
      (by
        show taken.sessions.length + _ ≤ _
        rw [hsessions, List.length_append]
        omega)
    refine ⟨page, h, fun completeness => ?_⟩
    obtain ⟨snapshot, hsnapshot⟩ := hcollect (mergeCompleteness completeness page.completeness)
    refine ⟨snapshot, collectFrom_eq_ok.mpr
      ⟨taken, htaken, .inr ⟨next, response', hnext, hlastId, ?_, hfetch, hsnapshot⟩⟩⟩
    rw [hcursor]
    exact (List.pairwise_cons.mp hpage).1 next hmem

theorem Fetched.unique {other : List DashboardSummaryResponse} (h : Fetched fetch k cursor list)
    (h' : Fetched fetch k cursor other) : list = other := by
  induction h generalizing other with
  | last h hlast =>
    cases h' with
    | last h' _ => rw [Except.ok.inj (h.symm.trans h')]
    | more h' hnext _ _ =>
      cases Except.ok.inj (h.symm.trans h')
      cases hlast.symm.trans hnext
  | more h hnext _ _ ih =>
    cases h' with
    | last h' hlast =>
      cases Except.ok.inj (h.symm.trans h')
      cases hlast.symm.trans hnext
    | more h' hnext' _ hrest =>
      cases Except.ok.inj (h.symm.trans h')
      cases hnext.symm.trans hnext'
      rw [ih hrest]

theorem Completeness.severity_inj {a b : Completeness} (h : a.severity = b.severity) : a = b := by
  cases a <;> cases b <;> first | rfl | cases h

theorem Assembled.unique {other : DashboardSnapshot} (h : Assembled list snapshot)
    (h' : Assembled list other) : snapshot = other := by
  have hlast := Prod.mk.inj (Option.some.inj (h.last.symm.trans h'.last))
  have hcompleteness : snapshot.completeness = other.completeness :=
    Completeness.severity_inj (Nat.le_antisymm (h'.completeness.le _ h.completeness.mem)
      (h.completeness.le _ h'.completeness.mem))
  cases snapshot
  cases other
  rw [DashboardSnapshot.mk.injEq]
  exact ⟨hlast.1, hcompleteness, hlast.2, h.sessions.trans h'.sessions.symm⟩

/-- Whatever answers the requests, a summary is made exactly when the pages that follow one
another's cursors to an end have ascending ids, none of them 0, and no more sessions than the
client's limit; it has their sessions, what the last of them says of the daemon, and the worst
completeness of them. -/
theorem summary_collected_iff : collectSummaryPages fetch = .ok snapshot ↔
    ∃ pages, Fetched fetch 0 0 pages ∧ (0 :: pageIds pages).Pairwise (· < ·) ∧
      (pages.flatMap (·.sessions)).length ≤ maxSummarySessions ∧ Assembled pages snapshot := by
  have hbetween : ({} : SummaryPages).Between := fun id hid => by cases hid
  have hcollect : ∀ snapshot, collectSummaryPages fetch = .ok snapshot →
      ∃ pages, Fetched fetch 0 0 pages ∧ (0 :: pageIds pages).Pairwise (· < ·) ∧
        (pages.flatMap (·.sessions)).length ≤ maxSummarySessions ∧ Assembled pages snapshot := by
    intro snapshot h
    obtain ⟨response, hfetch, h⟩ := bind_eq_ok.mp h
    obtain ⟨pages, hfetched, hascending, hsessions, hlast, hworst, hhead, hroom⟩ :=
      collectFrom_fetched hbetween hfetch h
    rw [hsessions] at hroom
    refine ⟨pages, hfetched, hascending, hroom, hsessions, hlast, ?_⟩
    cases pages with
    | nil => cases hhead
    | cons page later =>
      cases hhead
      have hmerged : mergeCompleteness response.completeness response.completeness =
          response.completeness :=
        (merge_cases _ _).elim (fun h => h) fun h => h
      rw [List.map_cons, List.foldl_cons, hmerged] at hworst
      rw [hworst]
      exact worst_foldl _ _
  refine ⟨hcollect snapshot, ?_⟩
  rintro ⟨pages, hfetched, hascending, hroom, hassembled⟩
  obtain ⟨response, hfetch, hcollected⟩ := @collectFrom_of_fetched _ _ _ {} _ hfetched rfl hbetween
    hascending (by rw [show ({} : SummaryPages).sessions.length = 0 from rfl, Nat.zero_add]; exact hroom)
  obtain ⟨snapshot', hsnapshot⟩ := hcollected response.completeness
  have hok : collectSummaryPages fetch = .ok snapshot' := bind_eq_ok.mpr ⟨response, hfetch, hsnapshot⟩
  obtain ⟨pages', hfetched', -, -, hassembled'⟩ := hcollect snapshot' hok
  cases hfetched.unique hfetched'
  cases hassembled.unique hassembled'
  exact hok

end collect

section daemon

variable (sort : UnstableSort metricsKey)

/-- What `handle_client` answers a summary request with; a request that the service does not
accept is answered as if there were no samples. -/
def answerSummary (service : Option ServiceView) (pid : UInt32) (frame : Frame) : Frame where
  msgType := .dashboardSummaryResp
  flags := 0
  requestId := frame.requestId
  payload := encodeSummaryResponse (((decodeSummaryRequest frame.payload).bind fun request =>
    service.bind fun view => (summary sort view request).toOption).getD (unavailableSummary pid))

/-- What the daemon says to a request that it can read. -/
def answerTo (service : Option ServiceView) (pid : UInt32) (request : DashboardSummaryRequest) :
    DashboardSummaryResponse :=
  (service.bind fun view => (summary sort view request).toOption).getD (unavailableSummary pid)

def summaryFrame (request : DashboardSummaryRequest) (requestId : UInt32) : Frame where
  msgType := .dashboardSummary
  flags := 0
  requestId := requestId.toNat
  payload := encodeSummaryRequest request

def parseSummaryFrame (response : Frame) (requestId : UInt32) :
    Except PersistError DashboardSummaryResponse := do
  rejectIf (response.msgType ≠ .dashboardSummaryResp ∨ response.requestId ≠ requestId.toNat)
    (PersistError.invalidArgument "unexpected dashboard summary response")
  match decodeSummaryResponse response.payload with
  | none => throw (.invalidArgument "invalid dashboard summary payload")
  | some page => return page

/-- The bytes of the request, the daemon that reads them, and the bytes that it answers with. -/
def exchange (service : Option ServiceView) (pid requestId : UInt32)
    (request : DashboardSummaryRequest) : Except PersistError DashboardSummaryResponse := do
  let answer := match FrameAccumulator.tryRead ⟨(summaryFrame request requestId).bytes⟩ with
    | .ok (some (frame, _)) => (answerSummary sort service pid frame).bytes
    | _ => []
  let (response, _) ← Frame.readFrame answer
  parseSummaryFrame response requestId

/-- `request_id`: the ids wrap around, and 0 is left out. -/
def nextRequestId (id : UInt32) : UInt32 := max (id + 1) 1

/-- `DashboardClient::summary`, of a client whose next id is `first`, over the service as it is when
the `k`-th request is answered. -/
def DashboardClient.summary (first : UInt32) (services : Nat → Option ServiceView) (pid : UInt32) :
    Except PersistError DashboardSnapshot :=
  collectSummaryPages fun k => exchange sort (services k) pid (nextRequestId^[k] first)

variable {sort} {service : Option ServiceView} {cursor pid requestId : UInt32}
  {page : DashboardSummaryResponse}

/-- The newest samples that the service may have are proper. -/
def ProperService (service : Option ServiceView) : Prop :=
  ∀ view sample, service = some view → view.history.latest = some sample → ProperSample sample

/-- What comes back for the page behind a cursor: a page of the newest sample, or nothing, said to
be unavailable. -/
inductive Answered (sort : UnstableSort metricsKey) (service : Option ServiceView)
    (cursor : UInt32) (page : DashboardSummaryResponse) : Prop
  | unavailable (hworst : page.completeness = .unavailable) (hsessions : page.sessions = [])
      (hnext : page.nextCursor = none)
  | page {view : ServiceView} {sample : DerivedSample} {start : Nat} (hview : service = some view)
      (hlatest : view.history.latest = some sample)
      (hcursor : CursorAt (sortedSessions sort sample) start cursor)
      (hpage : PageFrom (sortedSessions sort sample) start maxSummaryPage page)

theorem cursorAt_of_pageStart {sessions : List SessionMetrics} {start : Nat}
    (h : pageStart sessions cursor = .ok start) : CursorAt sessions start cursor := by
  unfold pageStart at h
  split at h
  · rename_i hzero
    cases h
    exact .inl ⟨rfl, hzero⟩
  · unfold BinarySearch.search at h
    dsimp only at h
    split at h
    · rename_i index hindex
      cases h
      split at hindex
      · rename_i hfound
        cases hindex
        obtain ⟨session, hsession, hkey⟩ := (Option.any_eq_true _ _).mp hfound
        exact .inr ⟨session, Nat.succ_pos _, hsession, UInt32.toNat_inj.mp (of_decide_eq_true hkey)⟩
      · cases hindex
    · cases h

/-- The limit of the client is one that the service accepts. -/
theorem maxSummaryPage_ok : 0 < (UInt16.ofNat maxSummaryPage).toNat ∧
    (UInt16.ofNat maxSummaryPage).toNat ≤ maxSummaryPage := by decide

theorem limit_ok (cursor : UInt32) : ¬ ((pageRequest cursor).limit = 0 ∨
    (pageRequest cursor).limit.toNat > maxSummaryPage) :=
  show ¬ (UInt16.ofNat maxSummaryPage = 0 ∨ (UInt16.ofNat maxSummaryPage).toNat > maxSummaryPage)
    by decide

theorem unavailable_answered (sort : UnstableSort metricsKey) (service : Option ServiceView)
    (cursor pid : UInt32) : SummaryEncodable (unavailableSummary pid) ∧
      Answered sort service cursor (unavailableSummary pid) :=
  ⟨⟨Nat.zero_le _, fun h => (by cases h), fun _ h => (by cases h), fun _ h => (by cases h)⟩,
    .unavailable rfl rfl rfl⟩

theorem summary_answered {view : ServiceView} (hproper : ProperService (some view))
    (h : summary sort view (pageRequest cursor) = .ok page) :
    SummaryEncodable page ∧ Answered sort (some view) cursor page := by
  have h' := h
  rw [summary, rejectIf, if_neg (limit_ok cursor)] at h'
  cases hlatest : view.history.latest with
  | none =>
    rw [hlatest] at h'
    change (if cursor = 0 then Except.ok (unavailableSummary view.pid) else
      .error DashboardQueryError.invalidCursor) = _ at h'
    split at h'
    · cases h'
      exact unavailable_answered _ _ _ _
    · cases h'
  | some sample =>
    have hsample := hproper view sample rfl hlatest
    rw [hlatest] at h'
    obtain ⟨-, -, h'⟩ := bind_eq_ok.mp h'
    obtain ⟨start, hstart, -⟩ := bind_eq_ok.mp h'
    have hcursor := cursorAt_of_pageStart hstart
    obtain ⟨page', hpage', hfrom⟩ := summary_eq_ok hlatest hsample maxSummaryPage_ok hcursor
    cases Except.ok.inj (h.symm.trans hpage')
    exact ⟨hfrom.encodable hsample maxSummaryPage_ok.2, .page rfl hlatest hcursor hfrom⟩

theorem answer_answered (hproper : ProperService service) (pid : UInt32) :
    SummaryEncodable (answerTo sort service pid (pageRequest cursor)) ∧
      Answered sort service cursor (answerTo sort service pid (pageRequest cursor)) := by
  unfold answerTo
  cases service with
  | none => exact unavailable_answered _ _ _ _
  | some view =>
    rw [Option.bind_some]
    cases hanswer : summary sort view (pageRequest cursor) with
    | error error => exact unavailable_answered _ _ _ _
    | ok page => exact summary_answered hproper hanswer

theorem length_encodeSessionMetrics (session : SessionMetrics) :
    (encodeSessionMetrics session).length = 43 := by
  have hbool : ∀ value, (encodeBool value).length = 1 := fun value => by cases value <;> rfl
  have hstatus : (encodeCollectionStatus session.collectionStatus).length = 1 := by
    cases session.collectionStatus <;> rfl
  simp only [encodeSessionMetrics, Metric.putU32, Metric.putU64, List.length_append,
    length_toBeBytes, hbool, hstatus]

theorem length_sessions (sessions : List SessionMetrics) :
    (sessions.flatMap encodeSessionMetrics).length = sessions.length * 43 := by
  induction sessions with
  | nil => rfl
  | cons session sessions ih =>
    rw [List.flatMap_cons, List.length_append, ih, length_encodeSessionMetrics, List.length_cons,
      Nat.succ_mul, Nat.add_comm]

theorem length_encodeSummaryResponse (h : SummaryEncodable page) :
    (encodeSummaryResponse page).length ≤ maxControlFrame := by
  have hbool : ∀ value, (encodeBool value).length = 1 := fun value => by cases value <;> rfl
  have hfew := h.few
  rw [h.encode_eq]
  simp only [encodeDaemon, Metric.putU16, Metric.putU32, Metric.putU64, List.length_append,
    length_toBeBytes, hbool, length_sessions, Metric.FieldReader.length_encodeCompleteness]
  unfold maxSummaryPage at hfew
  unfold maxControlFrame
  omega

theorem parseSummaryFrame_eq {response : Frame} (htype : response.msgType = .dashboardSummaryResp)
    (hid : response.requestId = requestId.toNat)
    (hpage : decodeSummaryResponse response.payload = some page) :
    parseSummaryFrame response requestId = .ok page := by
  unfold parseSummaryFrame
  rw [rejectIf, if_neg (fun h => h.elim (fun h => h htype) fun h => h hid), hpage]
  rfl

/-- A request is answered over the two streams of bytes. -/
theorem exchange_eq (hproper : ProperService service) (hcursor : cursor ≠ noValue)
    (pid requestId : UInt32) : exchange sort service pid requestId (pageRequest cursor) =
      .ok (answerTo sort service pid (pageRequest cursor)) := by
  have hencodable := (@answer_answered sort service cursor hproper pid).1
  have hrequest : encodeSummaryRequest (pageRequest cursor) =
      Metric.putU32 cursor ++ Metric.putU16 (UInt16.ofNat maxSummaryPage).toNat :=
    if_neg fun h => h.elim hcursor (limit_ok cursor)
  have hread : publicFraming.tryRead ((summaryFrame (pageRequest cursor) requestId).bytes ++ []) =
      .ok (some (summaryFrame (pageRequest cursor) requestId, [])) := by
    have hcarried : (summaryFrame (pageRequest cursor) requestId).carried =
        summaryFrame (pageRequest cursor) requestId := by
      rw [Frame.carried, show (summaryFrame (pageRequest cursor) requestId).requestId % 2 ^ 32 =
        requestId.toNat from Nat.mod_eq_of_lt (UInt32.toNat_lt requestId)]
      rfl
    refine (Frame.tryRead_carried ?_ []).trans (by rw [hcarried])
    rw [show (summaryFrame (pageRequest cursor) requestId).payload = _ from hrequest,
      List.length_append, Metric.putU32, Metric.putU16, length_toBeBytes, length_toBeBytes]
    exact show 4 + 2 ≤ MessageType.dashboardSummary.limit by decide
  rw [List.append_nil] at hread
  unfold exchange
  rw [FrameAccumulator.tryRead_eq, hread]
  have hpayload : decodeSummaryRequest (summaryFrame (pageRequest cursor) requestId).payload =
      some (pageRequest cursor) :=
    (summaryRequest_exact (by rw [hrequest]; exact List.cons_ne_nil _ _)).roundTrip
  have hanswer := @Frame.readFrame_bytes (answerSummary sort service pid
    (summaryFrame (pageRequest cursor) requestId)) ⟨show 0 < 2 ^ 16 by decide, UInt32.toNat_lt requestId, by
      show (encodeSummaryResponse _).length ≤ _
      rw [hpayload]
      exact length_encodeSummaryResponse hencodable⟩ []
  rw [List.append_nil] at hanswer
  dsimp only [Except.map, Option.map]
  rw [hanswer]
  refine parseSummaryFrame_eq rfl rfl ?_
  show decodeSummaryResponse (encodeSummaryResponse _) = _
  rw [hpayload]
  exact hencodable.exact.roundTrip

/-- A page that `collect_summary_pages` accepts behind its cursor, where it has room for it. -/
structure Regular (cursor : UInt32) (page : DashboardSummaryResponse) : Prop where
  ascending : (cursor :: page.sessions.map (·.sessionId)).Pairwise (· < ·)
  next : ∀ next, page.nextCursor = some next →
    page.sessions.getLast?.map (·.sessionId) = some next ∧ next ≠ noValue

/-- The sessions behind a cursor have larger ids. -/
theorem behind_cursor {sample : DerivedSample} (h : ProperSample sample) {start : Nat}
    (hcursor : CursorAt (sortedSessions sort sample) start cursor) :
    (cursor :: ((sortedSessions sort sample).drop start).map (·.sessionId)).Pairwise (· < ·) := by
  have hsorted := sortedSessions_pairwise sort h
  refine List.pairwise_cons.mpr ⟨fun id hid => ?_, ?_⟩
  · obtain ⟨session, hsession, rfl⟩ := List.mem_map.mp hid
    rcases hcursor with ⟨-, rfl⟩ | ⟨before, hpos, hbefore, rfl⟩
    · obtain ⟨derived, hderived, rfl⟩ := mem_sortedSessions.mp (List.mem_of_mem_drop hsession)
      exact UInt32.pos_iff_ne_zero.mpr (h.id_ne derived hderived)
    · obtain ⟨hlt, hat⟩ := List.getElem?_eq_some_iff.mp hbefore
      obtain ⟨index, hindex, hget⟩ := List.getElem_of_mem hsession
      rw [List.getElem_drop] at hget
      rw [List.length_drop] at hindex
      have hless := List.pairwise_iff_getElem.mp hsorted (start - 1) (start + index) hlt (by omega)
        (by omega)
      rw [hat, hget] at hless
      exact UInt32.lt_iff_toNat_lt.mpr hless
  · rw [List.pairwise_map]
    exact (hsorted.drop).imp UInt32.lt_iff_toNat_lt.mpr

theorem Dashboard.PageFrom.last {all : List SessionMetrics} {start limit : Nat} {next : UInt32}
    (h : PageFrom all start limit page) (hlimit : 0 < limit) (hnext : page.nextCursor = some next) :
    page.sessions.getLast?.map (·.sessionId) = some next ∧
      CursorAt all (start + limit) next := by
  rcases h.next with ⟨hnone, -⟩ | ⟨next', hnext', hmore, hcursor⟩
  · cases hnone.symm.trans hnext
  · cases hnext.symm.trans hnext'
    refine ⟨?_, hcursor⟩
    rcases hcursor with ⟨hzero, -⟩ | ⟨session, -, hsession, rfl⟩
    · omega
    · have hlength : page.sessions.length = limit := by
        rw [h.sessions, List.length_take, List.length_drop]
        omega
      rw [List.getLast?_eq_getElem?, hlength, h.sessions, List.getElem?_take_of_lt (by omega),
        List.getElem?_drop, show start + (limit - 1) = start + limit - 1 by omega, hsession]
      rfl

theorem Answered.regular (hproper : ProperService service)
    (h : Answered sort service cursor page) : Regular cursor page := by
  cases h with
  | unavailable _ hsessions hnext =>
    refine ⟨?_, fun next h => ?_⟩
    · rw [hsessions]
      exact List.pairwise_singleton _ _
    · cases hnext.symm.trans h
  | @page view sample start hview hlatest hcursor hpage =>
    have hsample := hproper view sample hview hlatest
    refine ⟨?_, fun next hnext => ⟨(hpage.last (by decide) hnext).1, fun heq => ?_⟩⟩
    · rw [hpage.sessions, List.map_take]
      have hbehind := behind_cursor hsample hcursor
      exact hbehind.sublist ((List.take_sublist _ _).cons_cons cursor)
    · exact (hpage.encodable hsample (Nat.le_refl _)).cursor (heq ▸ hnext)

end daemon

section refusals

variable {fetch : Nat → DashboardSummaryRequest → Except PersistError DashboardSummaryResponse}
  {k : Nat} {pages : SummaryPages} {completeness : Completeness}
  {response : DashboardSummaryResponse} {error : PersistError}

/-- There are more sessions than the client takes. -/
def tooManySessions : PersistError := .invalidArgument "dashboard summary exceeds client limit"

theorem SummaryPages.Orderly.refused {page : List SessionMetrics} (h : pages.Orderly)
    (hascending : (pages.bound :: page.map (·.sessionId)).Pairwise (· < ·))
    (hrefused : page.foldlM SummaryPages.takeSession pages = .error error) :
    error = tooManySessions := by
  induction page generalizing pages with
  | nil => cases hrefused
  | cons session page ih =>
    rw [List.map_cons, List.pairwise_cons] at hascending
    have hbehind := hascending.1 _ List.mem_cons_self
    by_cases hroom : pages.sessions.length + 1 ≤ maxSummarySessions
    · obtain ⟨next, hnext⟩ := h.exists_takeSession hbehind hroom
      obtain ⟨-, horderly, hbound, -⟩ := h.takeSession hnext
      rw [List.foldlM_cons, hnext] at hrefused
      exact ih horderly (hbound ▸ hascending.2) hrefused
    · have hfull : pages.takeSession session = .error tooManySessions := by
        unfold SummaryPages.takeSession
        rw [if_neg (mt (h.refuses_iff _).mp (UInt32.not_le.mpr hbehind)),
          dif_pos (Nat.lt_of_not_le hroom)]
        rfl
      rw [List.foldlM_cons, hfull] at hrefused
      cases hrefused
      rfl

/-- Pages that are as they should be are only refused where there are too many sessions. -/
theorem collectFrom_refused
    (hfetch : ∀ k cursor, cursor ≠ noValue →
      ∃ page, fetch k (pageRequest cursor) = .ok page ∧ Regular cursor page)
    (hbetween : pages.Between) (hresponse : Regular pages.cursor response)
    (h : collectFrom fetch k pages completeness response = .error error) :
    error = tooManySessions := by
  induction hn : maxSummarySessions - pages.sessions.length using Nat.strongRecOn
    generalizing k pages completeness response with
  | _ n ih =>
    rw [collectFrom] at h
    split at h
    · rename_i refused hrefused
      cases h
      exact hbetween.orderly.refused hresponse.ascending hrefused
    · rename_i taken htaken
      split at h
      · cases h
      · rename_i next hnext
        obtain ⟨hlast, hproper⟩ := hresponse.next next hnext
        have hlastId := (SummaryPages.takePage_lastId htaken).trans hlast
        have horderly := (hbetween.orderly.foldlM htaken).2
        have hmem : next ∈ response.sessions.map (·.sessionId) :=
          List.mem_of_getLast? (by rw [List.getLast?_map]; exact hlast)
        have hless := (List.pairwise_cons.mp hresponse.ascending).1 next hmem
        rw [dif_pos ⟨hlastId.symm, hless⟩] at h
        obtain ⟨page, hpage, hregular⟩ := hfetch k next hproper
        change fetch k { cursor := next, limit := UInt16.ofNat maxSummaryPage } = _ at hpage
        rw [hpage] at h
        have hfewer := SummaryPages.takePage_room htaken (hlastId ▸ Option.some_ne_none _)
        refine ih _ (hn ▸ hfewer) (fun id hid => ?_) hregular h rfl
        have hle := horderly.seen id hid
        rw [SummaryPages.bound, hlastId] at hle
        exact hle

theorem collect_refused
    (hfetch : ∀ k cursor, cursor ≠ noValue →
      ∃ page, fetch k (pageRequest cursor) = .ok page ∧ Regular cursor page)
    (h : collectSummaryPages fetch = .error error) : error = tooManySessions := by
  obtain ⟨page, hpage, hregular⟩ := hfetch 0 0 (by decide)
  change fetch 0 { cursor := 0, limit := UInt16.ofNat maxSummaryPage } = _ at hpage
  rw [collectSummaryPages, hpage] at h
  exact collectFrom_refused hfetch (fun id hid => by cases hid) hregular h

end refusals

section daemon

variable {sort : UnstableSort metricsKey} {services : Nat → Option ServiceView} {pid first : UInt32}
  {k : Nat} {cursor : UInt32} {list : List DashboardSummaryResponse}

/-- The id of a session that is in the newest sample whenever the service answers. -/
def AlwaysSampled (services : Nat → Option ServiceView) (id : UInt32) : Prop :=
  ∀ k view sample, services k = some view → view.history.latest = some sample →
    id ∈ sample.sessions.map (·.metrics.sessionId)

/-- A session as some sample has it that the service answered from. -/
def Sampled (services : Nat → Option ServiceView) (session : SessionMetrics) : Prop :=
  ∃ k view sample, services k = some view ∧ view.history.latest = some sample ∧
    ∃ derived ∈ sample.sessions, derived.metrics = session

theorem exchange_answered {service : Option ServiceView} {requestId : UInt32}
    {page : DashboardSummaryResponse} (hproper : ProperService service) (hcursor : cursor ≠ noValue)
    (h : exchange sort service pid requestId (pageRequest cursor) = .ok page) :
    Answered sort service cursor page := by
  rw [exchange_eq hproper hcursor] at h
  cases h
  exact (answer_answered hproper pid).2

theorem exchanges (sort : UnstableSort metricsKey) (hproper : ∀ k, ProperService (services k))
    (pid first : UInt32) (k : Nat) (cursor : UInt32) (hcursor : cursor ≠ noValue) :
    ∃ page, exchange sort (services k) pid (nextRequestId^[k] first) (pageRequest cursor) = .ok page ∧
      Regular cursor page :=
  ⟨_, exchange_eq (hproper k) hcursor pid _, (answer_answered (hproper k) pid).2.regular (hproper k)⟩

/-- A page that is not unavailable has what is behind its cursor, up to the next one. -/
theorem Answered.covers {service : Option ServiceView} {page : DashboardSummaryResponse}
    (hproper : ProperService service) (h : Answered sort service cursor page)
    (havailable : page.completeness ≠ .unavailable) {id : UInt32} (hbehind : cursor < id)
    (hsampled : ∀ view sample, service = some view → view.history.latest = some sample →
      id ∈ sample.sessions.map (·.metrics.sessionId)) :
    id ∈ page.sessions.map (·.sessionId) ∨
      ∃ next, page.nextCursor = some next ∧ next < id := by
  cases h with
  | unavailable hworst => exact absurd hworst havailable
  | @page view sample start hview hlatest hcursor hpage =>
    have hsample := hproper view sample hview hlatest
    have hsorted := sortedSessions_pairwise sort hsample
    obtain ⟨derived, hderived, hid⟩ := List.mem_map.mp (hsampled view sample hview hlatest)
    have hsession : derived.metrics ∈ sortedSessions sort sample :=
      mem_sortedSessions.mpr ⟨derived, hderived, rfl⟩
    obtain ⟨index, hindex, hget⟩ := List.getElem_of_mem hsession
    -- the session is not in front of the cursor
    have hstart : start ≤ index := by
      rcases hcursor with ⟨rfl, -⟩ | ⟨before, hpos, hbefore, rfl⟩
      · exact Nat.zero_le _
      · by_contra hlt
        obtain ⟨hbound, hat⟩ := List.getElem?_eq_some_iff.mp hbefore
        have hle : metricsKey (sortedSessions sort sample)[index] ≤ metricsKey before := by
          rcases Nat.lt_or_eq_of_le (show index ≤ start - 1 by omega) with hlt | heq
          · rw [← hat]
            exact (List.pairwise_iff_getElem.mp hsorted _ _ hindex hbound hlt).le
          · subst heq
            rw [hat]
        rw [hget, metricsKey, hid] at hle
        exact absurd (UInt32.lt_iff_toNat_lt.mp hbehind) (Nat.not_lt.mpr hle)
    by_cases hin : index < start + maxSummaryPage
    · refine .inl (List.mem_map.mpr ⟨derived.metrics, ?_, hid⟩)
      rw [hpage.sessions, ← hget]
      refine List.mem_iff_getElem?.mpr ⟨index - start, ?_⟩
      rw [List.getElem?_take_of_lt (by omega), List.getElem?_drop,
        show start + (index - start) = index by omega, List.getElem?_eq_getElem hindex]
    · rcases hpage.next with ⟨-, hend⟩ | ⟨next, hnext, hmore, hzero | ⟨session, -, hsession, rfl⟩⟩
      · omega
      · have := hzero.1
        unfold maxSummaryPage at this
        omega
      · refine .inr ⟨_, hnext, ?_⟩
        obtain ⟨hbound, hat⟩ := List.getElem?_eq_some_iff.mp hsession
        have hpage : 0 < maxSummaryPage := by decide
        have hless := List.pairwise_iff_getElem.mp hsorted _ _ hbound hindex (by omega)
        rw [hat, hget] at hless
        exact UInt32.lt_iff_toNat_lt.mpr (hid ▸ hless)

theorem fetched_covers (hproper : ∀ k, ProperService (services k)) {id : UInt32}
    (hsampled : AlwaysSampled services id) (hcursor : cursor ≠ noValue)
    (h : Fetched (fun k => exchange sort (services k) pid (nextRequestId^[k] first)) k cursor list)
    (havailable : ∀ page ∈ list, page.completeness ≠ .unavailable) (hbehind : cursor < id) :
    id ∈ pageIds list := by
  induction h with
  | @last k cursor page h hlast =>
    have hanswered := exchange_answered (hproper k) hcursor h
    rcases hanswered.covers (hproper k) (havailable _ List.mem_cons_self) hbehind (hsampled k) with
      hmem | ⟨next, hnext, -⟩
    · rw [pageIds, List.flatMap_singleton]
      exact hmem
    · cases hlast.symm.trans hnext
  | @more k cursor page next later h hnext hlast hrest ih =>
    have hanswered := exchange_answered (hproper k) hcursor h
    rw [pageIds, List.flatMap_cons, List.mem_append]
    rcases hanswered.covers (hproper k) (havailable _ List.mem_cons_self) hbehind (hsampled k) with
      hmem | ⟨next', hnext', hless⟩
    · exact .inl hmem
    · cases hnext.symm.trans hnext'
      exact .inr (ih ((hanswered.regular (hproper k)).next next hnext).2
        (fun page hpage => havailable page (List.mem_cons_of_mem _ hpage)) hless)

theorem fetched_head (h : Fetched (fun k => exchange sort (services k) pid (nextRequestId^[k] first))
    k cursor list) : ∃ page ∈ list,
      exchange sort (services k) pid (nextRequestId^[k] first) (pageRequest cursor) = .ok page := by
  cases h with
  | last h _ => exact ⟨_, List.mem_cons_self, h⟩
  | more h _ _ _ => exact ⟨_, List.mem_cons_self, h⟩

theorem fetched_sampled (hproper : ∀ k, ProperService (services k)) (hcursor : cursor ≠ noValue)
    (h : Fetched (fun k => exchange sort (services k) pid (nextRequestId^[k] first)) k cursor list)
    {session : SessionMetrics} (hsession : session ∈ list.flatMap (·.sessions)) :
    Sampled services session := by
  have hpage : ∀ {k cursor page}, cursor ≠ noValue →
      exchange sort (services k) pid (nextRequestId^[k] first) (pageRequest cursor) = .ok page →
      session ∈ page.sessions → Sampled services session := by
    intro k cursor page hcursor hpage hmem
    cases exchange_answered (hproper k) hcursor hpage with
    | unavailable _ hnone =>
      rw [hnone] at hmem
      cases hmem
    | @page view sample start hview hlatest _ hfrom =>
      rw [hfrom.sessions] at hmem
      exact ⟨k, view, sample, hview, hlatest,
        mem_sortedSessions.mp (List.mem_of_mem_drop (List.mem_of_mem_take hmem))⟩
  induction h with
  | last h hlast =>
    rw [List.flatMap_singleton] at hsession
    exact hpage hcursor h hsession
  | @more k cursor page next later h hnext hlast hrest ih =>
    rw [List.flatMap_cons, List.mem_append] at hsession
    rcases hsession with hsession | hsession
    · exact hpage hcursor h hsession
    · have hregular := (exchange_answered (hproper k) hcursor h).regular (hproper k)
      exact ih (hregular.next next hnext).2 hsession

/-- While the daemon goes on taking samples between the pages: the client is never refused but
for the number of sessions; it lists sessions that were sampled, each of them once; and a summary
that is not said to be unavailable misses none that was in all the samples. -/
theorem summary_misses_none (sort : UnstableSort metricsKey)
    (hproper : ∀ k, ProperService (services k)) (pid first : UInt32) :
    (∀ error, DashboardClient.summary sort first services pid = .error error →
      error = tooManySessions) ∧
    ∀ snapshot, DashboardClient.summary sort first services pid = .ok snapshot →
      (snapshot.sessions.map (·.sessionId)).Pairwise (· < ·) ∧
      (∀ session ∈ snapshot.sessions, Sampled services session) ∧
      (snapshot.completeness ≠ .unavailable → ∀ id, AlwaysSampled services id →
        id ∈ snapshot.sessions.map (·.sessionId)) := by
  refine ⟨fun error => collect_refused (exchanges sort hproper pid first), fun snapshot h => ?_⟩
  obtain ⟨pages, hfetched, hascending, -, hassembled⟩ := summary_collected_iff.mp h
  have hids : snapshot.sessions.map (·.sessionId) = pageIds pages := by
    rw [hassembled.sessions, pageIds, List.map_flatMap]
  rw [hids]
  refine ⟨(List.pairwise_cons.mp hascending).2, fun session hsession => ?_,
    fun havailable id hsampled => ?_⟩
  · rw [hassembled.sessions] at hsession
    exact fetched_sampled hproper (by decide) hfetched hsession
  · have hpages : ∀ page ∈ pages, page.completeness ≠ .unavailable := by
      intro page hpage heq
      have hle := hassembled.completeness.le _ (List.mem_map_of_mem hpage)
      rw [heq] at hle
      refine havailable (Completeness.severity_inj (Nat.le_antisymm ?_ hle))
      cases snapshot.completeness <;> decide
    refine fetched_covers hproper hsampled (by decide) hfetched hpages ?_
    -- the first page is of a sample, and a sample has no session 0
    obtain ⟨page, hpage, hfirst⟩ := fetched_head hfetched
    cases exchange_answered (hproper 0) (by decide) hfirst with
    | unavailable hworst => exact absurd hworst (hpages _ hpage)
    | @page view sample start hview hlatest _ _ =>
      obtain ⟨derived, hderived, rfl⟩ := List.mem_map.mp (hsampled 0 view sample hview hlatest)
      exact UInt32.pos_iff_ne_zero.mpr ((hproper 0 view sample hview hlatest).id_ne derived hderived)

/-- The session 5 ends after the first page, and the session 9 starts. -/
def laterView : ServiceView :=
  { threeView with history := { twoFrames with frames :=
      [{ threeSessions with sessions := [listedSession 3, listedSession 9] }] } }

/-- The session 3 is there all the time, and is listed. -/
theorem summary_misses_none_sample : ∃ snapshot,
    DashboardClient.summary (stableSort metricsKey) 1
      (fun k => some (if k = 0 then threeView else laterView)) 7 = .ok snapshot ∧
    snapshot.completeness = .complete ∧ 3 ∈ snapshot.sessions.map (·.sessionId) := by
  have hsample : ∀ k view sample, some (if k = 0 then threeView else laterView) = some view →
      view.history.latest = some sample → ProperSample sample ∧
        (3 : UInt32) ∈ sample.sessions.map (·.metrics.sessionId) := by
    intro k view sample hview hlatest
    split at hview
    · cases hview
      cases hlatest
      exact ⟨⟨by decide, by decide, by decide⟩, by decide⟩
    · cases hview
      cases hlatest
      exact ⟨⟨by decide, by decide, by decide⟩, by decide⟩
  have hmade : ((DashboardClient.summary (stableSort metricsKey) 1
      (fun k => some (if k = 0 then threeView else laterView)) 7).toOption.map
        (·.completeness)) = some .complete := by decide +kernel
  rcases h : DashboardClient.summary (stableSort metricsKey) 1
    (fun k => some (if k = 0 then threeView else laterView)) 7 with error | snapshot
  · rw [h] at hmade
    cases hmade
  · rw [h] at hmade
    have hcomplete : snapshot.completeness = .complete := Option.some.inj hmade
    refine ⟨snapshot, rfl, hcomplete, ?_⟩
    refine ((summary_misses_none (stableSort metricsKey) (fun k view sample hview hlatest =>
      (hsample k view sample hview hlatest).1) 7 1).2 snapshot h).2.2 (by rw [hcomplete]; decide) 3 ?_
    exact fun k view sample hview hlatest => (hsample k view sample hview hlatest).2

theorem summary_head {view : ServiceView} {sample : DerivedSample} {request : DashboardSummaryRequest}
    {page : DashboardSummaryResponse} (hlatest : view.history.latest = some sample)
    (h : summary sort view request = .ok page) :
    page.sampledAtMs = sample.sampledAtMs ∧ page.daemon = sample.daemon.metrics := by
  unfold summary at h
  rw [hlatest] at h
  obtain ⟨-, -, h⟩ := bind_eq_ok.mp h
  obtain ⟨start, -, h⟩ := bind_eq_ok.mp h
  cases h
  exact ⟨rfl, rfl⟩

/-- The pages of one sample, from a cursor on. -/
theorem exists_fetched {sample : DerivedSample} (hsample : ProperSample sample)
    (hlatest : ∀ k, ∃ view, services k = some view ∧ view.history.latest = some sample)
    {left start : Nat} (hleft : (sortedSessions sort sample).length - start ≤ left)
    (hnoValue : cursor ≠ noValue) (hcursor : CursorAt (sortedSessions sort sample) start cursor) :
    ∃ pages, Fetched (fun k => exchange sort (services k) pid (nextRequestId^[k] first)) k cursor
        pages ∧ pages.flatMap (·.sessions) = (sortedSessions sort sample).drop start ∧
      pages.getLast?.map (fun page => (page.sampledAtMs, page.daemon)) =
        some (sample.sampledAtMs, sample.daemon.metrics) := by
  induction left using Nat.strongRecOn generalizing k start cursor with
  | _ left ih =>
    obtain ⟨view, hview, hnewest⟩ := hlatest k
    have hproper : ProperService (services k) := by
      intro view' sample' hview' hnewest'
      cases hview.symm.trans hview'
      cases hnewest.symm.trans hnewest'
      exact hsample
    obtain ⟨page, hpage, hfrom⟩ := summary_eq_ok hnewest hsample maxSummaryPage_ok hcursor
    have hanswer : answerTo sort (services k) pid (pageRequest cursor) = page := by
      rw [answerTo, hview, Option.bind_some]
      show ((summary sort view { cursor, limit := UInt16.ofNat maxSummaryPage }).toOption).getD _ = _
      rw [hpage]
      rfl
    have hexchange := @exchange_eq sort _ _ hproper hnoValue pid (nextRequestId^[k] first)
    rw [hanswer] at hexchange
    have hhead := summary_head hnewest hpage
    rcases hnext : page.nextCursor with _ | next
    · refine ⟨[page], .last hexchange hnext, ?_, ?_⟩
      · rcases hfrom.next with ⟨-, hend⟩ | ⟨next, hnext', -⟩
        · rw [List.flatMap_singleton, hfrom.sessions,
            List.take_of_length_le (by rw [List.length_drop]; omega)]
        · cases hnext.symm.trans hnext'
      · rw [List.getLast?_singleton, Option.map_some, hhead.1, hhead.2]
    · obtain ⟨hlast, hcursor'⟩ := hfrom.last maxSummaryPage_ok.1 hnext
      have hmore : start + (UInt16.ofNat maxSummaryPage).toNat < (sortedSessions sort sample).length := by
        rcases hfrom.next with ⟨hnone, -⟩ | ⟨_, _, hmore, -⟩
        · cases hnone.symm.trans hnext
        · exact hmore
      have hpositive := maxSummaryPage_ok.1
      obtain ⟨later, hlater, hsessions, hend⟩ := ih _ (by omega) (k := k + 1) (Nat.le_refl _)
        (fun heq => (hfrom.encodable hsample maxSummaryPage_ok.2).cursor (heq ▸ hnext)) hcursor'
      refine ⟨page :: later, .more hexchange hnext hlast hlater, ?_, ?_⟩
      · rw [List.flatMap_cons, hsessions, hfrom.sessions, ← List.drop_drop, List.take_append_drop]
      · cases later with
        | nil => cases hend
        | cons page' later => rw [List.getLast?_cons_cons]; exact hend

/-- Of one sample the client gets all the sessions, in the order of their ids. -/
theorem summary_of_sample (sort : UnstableSort metricsKey) {sample : DerivedSample}
    (hsample : ProperSample sample) (hfew : sample.sessions.length ≤ maxSummarySessions)
    (hlatest : ∀ k, ∃ view, services k = some view ∧ view.history.latest = some sample)
    (pid first : UInt32) : ∃ snapshot,
      DashboardClient.summary sort first services pid = .ok snapshot ∧
      snapshot.sessions.Perm (sample.sessions.map (·.metrics)) ∧
      (snapshot.sessions.map (·.sessionId)).Pairwise (· < ·) ∧
      snapshot.sampledAtMs = sample.sampledAtMs ∧ snapshot.daemon = sample.daemon.metrics := by
  have hstart : CursorAt (sortedSessions sort sample) 0 0 := .inl ⟨rfl, rfl⟩
  obtain ⟨pages, hfetched, hsessions, hend⟩ := exists_fetched hsample
    hlatest (Nat.le_refl _) (by decide) hstart
  rw [List.drop_zero] at hsessions
  have hperm : (pages.flatMap (·.sessions)).Perm (sample.sessions.map (·.metrics)) := by
    rw [hsessions]
    exact sort.perm _
  have hascending : (0 :: pageIds pages).Pairwise (· < ·) := by
    rw [pageIds, ← List.map_flatMap, hsessions]
    exact behind_cursor hsample hstart
  obtain ⟨page, hpage, hcollected⟩ := @collectFrom_of_fetched _ _ _ {} _ hfetched rfl
    (fun id hid => by cases hid) hascending (by
      rw [hperm.length_eq, List.length_map]
      exact (Nat.zero_add _).trans_le hfew)
  obtain ⟨snapshot, hsnapshot⟩ := hcollected page.completeness
  have hok : DashboardClient.summary sort first services pid = .ok snapshot :=
    bind_eq_ok.mpr ⟨page, hpage, hsnapshot⟩
  obtain ⟨pages', hfetched', -, -, hassembled⟩ := summary_collected_iff.mp hok
  cases hfetched.unique hfetched'
  have hlast := Prod.mk.inj (Option.some.inj (hassembled.last.symm.trans hend))
  refine ⟨snapshot, hok, hassembled.sessions ▸ hperm, ?_, hlast.1, hlast.2⟩
  rw [hassembled.sessions, List.map_flatMap]
  exact (List.pairwise_cons.mp hascending).2

theorem summary_of_three : ∃ snapshot,
    DashboardClient.summary (stableSort metricsKey) 1 (fun _ => some threeView) 7 = .ok snapshot ∧
      snapshot.sessions.Perm (threeSessions.sessions.map (·.metrics)) := by
  obtain ⟨snapshot, hok, hperm, -⟩ := @summary_of_sample (fun _ => some threeView)
    (stableSort metricsKey) threeSessions
    ⟨by decide, by decide, by decide⟩ (by decide) (fun _ => ⟨threeView, rfl, rfl⟩) 7 1
  exact ⟨snapshot, hok, hperm⟩

end daemon

end PersistShell

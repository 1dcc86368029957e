import PersistShell.Core.Json
import PersistShell.Daemon.PublicAttach
import PersistShell.Program.Run

/-! Which connection is attached to which session. The threads of the clients share the two
maps of the session manager; each makes an entry before its proxy runs and takes it back
afterwards, if it comes to that. -/

namespace PersistShell
open Program

structure Attachments where
  attachedSessions : Std.ExtTreeMap Nat Nat := {}
  roAttached : Std.ExtTreeMap Nat (List Nat) := {}

namespace Attachments

def transferWriter (a : Attachments) (id newFd : Nat) : Attachments :=
  { a with attachedSessions := a.attachedSessions.insert id newFd }

def releaseWriter (a : Attachments) (id fd : Nat) : Attachments :=
  if a.attachedSessions[id]? = some fd then
    { a with attachedSessions := a.attachedSessions.erase id }
  else a

def addRoClient (a : Attachments) (id fd : Nat) : Attachments :=
  { a with roAttached := a.roAttached.insert id (a.roAttached[id]?.getD [] ++ [fd]) }

def removeRoClient (a : Attachments) (id fd : Nat) : Attachments :=
  match a.roAttached[id]? with
  | none => a
  | some fds =>
    let fds := fds.filter (· ≠ fd)
    if fds = [] then { a with roAttached := a.roAttached.erase id }
    else { a with roAttached := a.roAttached.insert id fds }

/-- The session is gone. -/
def finishClose (a : Attachments) (id : Nat) : Attachments where
  attachedSessions := a.attachedSessions.erase id
  roAttached := a.roAttached.erase id

def IsWriter (a : Attachments) (id fd : Nat) : Prop := a.attachedSessions[id]? = some fd

def IsReader (a : Attachments) (id fd : Nat) : Prop := fd ∈ a.roAttached[id]?.getD []

section entries

variable {a : Attachments} {id id' fd fd' : Nat}

theorem isWriter_transferWriter :
    (a.transferWriter id' fd').IsWriter id fd ↔
      if id' = id then fd' = fd else a.IsWriter id fd := by
  unfold transferWriter IsWriter
  rw [NatMap.get_insert]
  split
  · exact Option.some_inj
  · rfl

theorem isWriter_releaseWriter :
    (a.releaseWriter id' fd').IsWriter id fd ↔ a.IsWriter id fd ∧ ¬ (id' = id ∧ fd' = fd) := by
  unfold releaseWriter IsWriter
  split
  · rename_i hentry
    rw [NatMap.get_erase]
    by_cases hid : id' = id
    · subst hid
      rw [if_pos rfl, hentry, Option.some_inj]
      exact ⟨nofun, fun h => absurd ⟨rfl, h.1⟩ h.2⟩
    · rw [if_neg hid]
      exact ⟨fun h => ⟨h, fun h' => hid h'.1⟩, And.left⟩
  · rename_i hentry
    refine ⟨fun h => ⟨h, fun h' => hentry ?_⟩, And.left⟩
    rw [h'.1, h'.2]
    exact h

theorem isReader_addRoClient :
    (a.addRoClient id' fd').IsReader id fd ↔ a.IsReader id fd ∨ id' = id ∧ fd' = fd := by
  unfold addRoClient IsReader
  rw [NatMap.get_insert]
  by_cases hid : id' = id
  · subst hid
    rw [if_pos rfl, Option.getD_some, List.mem_append, List.mem_singleton]
    exact or_congr_right ⟨fun h => ⟨rfl, h.symm⟩, fun h => h.2.symm⟩
  · rw [if_neg hid]
    exact ⟨Or.inl, fun h => h.resolve_right fun h' => hid h'.1⟩

theorem isReader_removeRoClient :
    (a.removeRoClient id' fd').IsReader id fd ↔ a.IsReader id fd ∧ ¬ (id' = id ∧ fd' = fd) := by
  unfold removeRoClient IsReader
  by_cases hid : id' = id
  · subst hid
    cases hentry : a.roAttached[id']? with
    | none =>
      rw [hentry]
      exact ⟨fun h => absurd h List.not_mem_nil, fun h => absurd h.1 List.not_mem_nil⟩
    | some fds =>
      have hmem : fd ∈ fds.filter (· ≠ fd') ↔ fd ∈ fds ∧ ¬ (id' = id' ∧ fd' = fd) := by
        rw [List.mem_filter, decide_eq_true_eq]
        exact and_congr_right fun _ => ⟨fun h h' => h h'.2.symm, fun h h' => h ⟨rfl, h'.symm⟩⟩
      dsimp only
      split
      · rename_i hnil
        rw [NatMap.get_erase, if_pos rfl, Option.getD_some, ← hmem, hnil]
        rfl
      · rw [NatMap.get_insert, if_pos rfl, Option.getD_some, Option.getD_some]
        exact hmem
  · have hsame : ∀ (m : Std.ExtTreeMap Nat (List Nat)), m[id]? = a.roAttached[id]? →
        (fd ∈ m[id]?.getD [] ↔ fd ∈ a.roAttached[id]?.getD [] ∧ ¬ (id' = id ∧ fd' = fd)) := by
      intro m hm
      rw [hm]
      exact ⟨fun h => ⟨h, fun h' => hid h'.1⟩, And.left⟩
    split
    · exact hsame _ rfl
    · dsimp only
      split
      · exact hsame _ ((NatMap.get_erase _ _ _).trans (if_neg hid))
      · exact hsame _ ((NatMap.get_insert _ _ _ _).trans (if_neg hid))

theorem isWriter_finishClose (h : (a.finishClose id').IsWriter id fd) : a.IsWriter id fd := by
  unfold finishClose IsWriter at h
  rw [NatMap.get_erase] at h
  split at h
  · cases h
  · exact h

theorem isReader_finishClose (h : (a.finishClose id').IsReader id fd) : a.IsReader id fd := by
  unfold finishClose IsReader at h
  rw [NatMap.get_erase] at h
  split at h
  · exact absurd h List.not_mem_nil
  · exact h

end entries

end Attachments

/-- What the thread of an open connection does. -/
inductive ClientPhase where
  /-- It waits for a request. -/
  | serving
  /-- It has made the entry for a session, and has not taken it back. -/
  | attached (sessionId : Nat) (readWrite : Bool)
  deriving DecidableEq

/-- How one run of `public_attach::run` goes. -/
structure ProxyTurns where
  holderMinor : Nat
  initialOutput : Bytes := []
  timerFault : Option (String × Errno) := none
  passes : List PassTurn

/-- The threads by the descriptor of their connection: it is not given to another connection
while it is open. -/
structure ClientThreads extends Attachments where
  threads : Std.ExtTreeMap Nat ClientPhase := {}

inductive ClientAction where
  /-- A connection is accepted and gets a descriptor that is not in use. -/
  | accept (fd : Nat)
  /-- The holder has attached a writer; `refresh_inventory` may fail after that. -/
  | attach (fd sessionId : Nat) (refreshed : Bool)
  | attachReadOnly (fd sessionId : Nat)
  /-- The proxy returns, and what comes after it is done. -/
  | proxyReturns (fd : Nat) (turns : ProxyTurns)
  /-- A session is closed by any thread. -/
  | finishClose (sessionId : Nat)
  /-- The client leaves, or has sent `Detach`. -/
  | leave (fd : Nat) (detach : Option Nat)

namespace ClientThreads
open Attachments

def release (s : ClientThreads) (fd sessionId : Nat) (readWrite : Bool) : Attachments :=
  if readWrite then s.releaseWriter sessionId fd else s.removeRoClient sessionId fd

/-- **The entries are undone:** each points to an open connection whose thread is attached to
that session, and no other entry is there once the proxy has returned. -/
structure Undone (s : ClientThreads) : Prop where
  writer : ∀ id fd, s.IsWriter id fd → s.threads[fd]? = some (.attached id true)
  reader : ∀ id fd, s.IsReader id fd → s.threads[fd]? = some (.attached id false)

variable {s s' : ClientThreads}

/-- A thread that is not attached is in no entry, so that it can change what it does. -/
theorem Undone.rephase (h : s.Undone) {fd : Nat} {threads : Std.ExtTreeMap Nat ClientPhase}
    (hfree : ∀ id readWrite, s.threads[fd]? ≠ some (.attached id readWrite))
    (hothers : ∀ fd', fd' ≠ fd → threads[fd']? = s.threads[fd']?) :
    Undone { s with threads } := by
  constructor
  · intro id fd' hentry
    have hthread := h.writer id fd' hentry
    have hne : fd' ≠ fd := fun heq => hfree id true (heq ▸ hthread)
    exact (hothers fd' hne).trans hthread
  · intro id fd' hentry
    have hthread := h.reader id fd' hentry
    have hne : fd' ≠ fd := fun heq => hfree id false (heq ▸ hthread)
    exact (hothers fd' hne).trans hthread

/-- Entries may always be taken away. -/
theorem Undone.fewer (h : s.Undone) {a : Attachments}
    (hwriter : ∀ id fd, a.IsWriter id fd → s.IsWriter id fd)
    (hreader : ∀ id fd, a.IsReader id fd → s.IsReader id fd) :
    Undone { a with threads := s.threads } :=
  ⟨fun id fd hentry => h.writer id fd (hwriter id fd hentry),
    fun id fd hentry => h.reader id fd (hreader id fd hentry)⟩

/-- What another thread is attached to stays when a thread that serves does something else. -/
theorem attached_of_serving {fd fd' id : Nat} {mode : Bool} {phase : ClientPhase}
    (hserving : s.threads[fd]? = some .serving)
    (hthread : s.threads[fd']? = some (.attached id mode)) :
    (s.threads.insert fd phase)[fd']? = some (.attached id mode) := by
  rw [NatMap.get_insert, if_neg]
  · exact hthread
  · intro heq
    rw [← heq, hserving] at hthread
    cases hthread

theorem undone_attach (h : s.Undone) {fd sessionId : Nat}
    (hserving : s.threads[fd]? = some .serving) :
    Undone { s.transferWriter sessionId fd with
      threads := s.threads.insert fd (.attached sessionId true) } := by
  constructor
  · intro id fd' hentry
    have hcases := isWriter_transferWriter.mp hentry
    split at hcases
    · rename_i hid
      rw [← hid, ← hcases]
      exact (NatMap.get_insert _ _ _ _).trans (if_pos rfl)
    · exact attached_of_serving hserving (h.writer id fd' hcases)
  · intro id fd' hentry
    exact attached_of_serving hserving (h.reader id fd' hentry)

theorem undone_attachReadOnly (h : s.Undone) {fd sessionId : Nat}
    (hserving : s.threads[fd]? = some .serving) :
    Undone { s.addRoClient sessionId fd with
      threads := s.threads.insert fd (.attached sessionId false) } := by
  constructor
  · intro id fd' hentry
    exact attached_of_serving hserving (h.writer id fd' hentry)
  · intro id fd' hentry
    rcases isReader_addRoClient.mp hentry with hentry | ⟨hid, hfd⟩
    · exact attached_of_serving hserving (h.reader id fd' hentry)
    · rw [← hid, ← hfd]
      exact (NatMap.get_insert _ _ _ _).trans (if_pos rfl)

theorem roAttached_releaseWriter (a : Attachments) (id fd : Nat) :
    (a.releaseWriter id fd).roAttached = a.roAttached := by
  unfold releaseWriter
  split <;> rfl

theorem attachedSessions_removeRoClient (a : Attachments) (id fd : Nat) :
    (a.removeRoClient id fd).attachedSessions = a.attachedSessions := by
  unfold removeRoClient
  split
  · rfl
  · dsimp only
    split <;> rfl

/-- What a thread takes back is all that points to it. -/
theorem undone_release (h : s.Undone) {fd sessionId : Nat} {readWrite : Bool}
    (hattached : s.threads[fd]? = some (.attached sessionId readWrite)) :
    Undone { s.release fd sessionId readWrite with threads := s.threads.insert fd .serving } := by
  have hkept : ∀ {id fd' : Nat} {mode : Bool}, s.threads[fd']? = some (.attached id mode) →
      ¬ (sessionId = id ∧ fd = fd' ∧ readWrite = mode) →
      (s.threads.insert fd .serving)[fd']? = some (.attached id mode) := by
    intro id fd' mode hthread hother
    rw [NatMap.get_insert, if_neg]
    · exact hthread
    · intro heq
      rw [← heq, hattached] at hthread
      cases hthread
      exact hother ⟨rfl, heq, rfl⟩
  cases readWrite with
  | true =>
    constructor
    · intro id fd' hentry
      obtain ⟨hentry, hother⟩ := isWriter_releaseWriter.mp hentry
      exact hkept (h.writer id fd' hentry) fun heq => hother ⟨heq.1, heq.2.1⟩
    · intro id fd' hentry
      rw [IsReader, release, if_pos rfl, roAttached_releaseWriter] at hentry
      exact hkept (h.reader id fd' hentry) fun heq => nomatch heq.2.2
  | false =>
    constructor
    · intro id fd' hentry
      rw [IsWriter, release, if_neg (by decide), attachedSessions_removeRoClient] at hentry
      exact hkept (h.writer id fd' hentry) fun heq => nomatch heq.2.2
    · intro id fd' hentry
      obtain ⟨hentry, hother⟩ := isReader_removeRoClient.mp hentry
      exact hkept (h.reader id fd' hentry) fun heq => hother ⟨heq.1, heq.2.1⟩

section machine

variable [SerdeJson]

/-- The outcome of the proxy; it aborts while it has not returned. The context of a writer's
session is observed on a timer. -/
def outcome (t : ProxyTurns) (sessionId : Nat) (readWrite : Bool) :
    Outcome PersistError ProxyOutcome :=
  (Proxy.run (if readWrite then t.timerFault else none) t.passes
    (Proxy.start sessionId t.holderMinor t.initialOutput readWrite readWrite)).1

def step (s : ClientThreads) : ClientAction → Option ClientThreads
  | .accept fd =>
    if s.threads.contains fd then none else some { s with threads := s.threads.insert fd .serving }
  | .attach fd sessionId refreshed =>
    if s.threads[fd]? = some .serving then
      -- The error leaves `handle_client`, and the connection is dropped.
      if refreshed then some
        { s.transferWriter sessionId fd with threads := s.threads.insert fd (.attached sessionId true) }
      else some { s with threads := s.threads.erase fd }
    else none
  | .attachReadOnly fd sessionId =>
    if s.threads[fd]? = some .serving then some
      { s.addRoClient sessionId fd with threads := s.threads.insert fd (.attached sessionId false) }
    else none
  | .proxyReturns fd turns =>
    match s.threads[fd]? with
    | some (.attached sessionId readWrite) =>
      match outcome turns sessionId readWrite with
      | .ok _ => some
        { s.release fd sessionId readWrite with threads := s.threads.insert fd .serving }
      -- So does the error of the proxy.
      | .err _ => some { s with threads := s.threads.erase fd }
      | .panic => none
    | _ => none
  | .finishClose sessionId => some { s.finishClose sessionId with threads := s.threads }
  | .leave fd detach =>
    if s.threads[fd]? = some .serving then
      match detach with
      | some sessionId => some
        { s.releaseWriter sessionId fd with threads := s.threads.erase fd }
      | none => some { s with threads := s.threads.erase fd }
    else none

/-- The proxy does not return with an error. -/
def ReturnsOk (s : ClientThreads) : ClientAction → Prop
  | .proxyReturns fd turns => ∀ sessionId readWrite e,
      s.threads[fd]? = some (.attached sessionId readWrite) →
      outcome turns sessionId readWrite ≠ .err e
  | _ => True

/-- A step in which no proxy fails keeps the entries undone. -/
theorem undone_step {action : ClientAction} (h : s.Undone) (hok : s.ReturnsOk action)
    (hstep : s.step action = some s') : s'.Undone := by
  have hserves : ∀ {fd : Nat}, s.threads[fd]? = some .serving →
      ∀ id readWrite, s.threads[fd]? ≠ some (.attached id readWrite) := by
    intro fd hserving id readWrite heq
    rw [hserving] at heq
    cases heq
  have herased : ∀ {fd fd' : Nat}, fd' ≠ fd →
      (s.threads.erase fd)[fd']? = s.threads[fd']? :=
    fun hne => (NatMap.get_erase _ _ _).trans (if_neg hne.symm)
  cases action with
  | accept fd =>
    rw [step] at hstep
    split at hstep
    · cases hstep
    · rename_i hopen
      cases hstep
      have hfree : ∀ id readWrite, s.threads[fd]? ≠ some (.attached id readWrite) :=
        fun id readWrite heq => hopen ((NatMap.contains_iff _ _).mpr ⟨_, heq⟩)
      apply h.rephase hfree
      intro fd' hne
      exact (NatMap.get_insert _ _ _ _).trans (if_neg hne.symm)
  | attach fd sessionId refreshed =>
    rw [step] at hstep
    split at hstep
    · rename_i hserving
      split at hstep
      · cases hstep
        exact undone_attach h hserving
      · cases hstep
        exact h.rephase (hserves hserving) fun fd' => herased
    · cases hstep
  | attachReadOnly fd sessionId =>
    rw [step] at hstep
    split at hstep
    · rename_i hserving
      cases hstep
      exact undone_attachReadOnly h hserving
    · cases hstep
  | proxyReturns fd turns =>
    rw [step] at hstep
    split at hstep
    · rename_i sessionId readWrite hattached
      split at hstep
      · cases hstep
        exact undone_release h hattached
      · rename_i e herr
        exact absurd herr (hok sessionId readWrite e hattached)
      · cases hstep
    · cases hstep
  | finishClose sessionId =>
    cases hstep
    exact h.fewer (fun _ _ => isWriter_finishClose) fun _ _ => isReader_finishClose
  | leave fd detach =>
    cases detach with
    | none =>
      rw [step] at hstep
      split at hstep
      · rename_i hserving
        cases hstep
        exact h.rephase (hserves hserving) fun fd' => herased
      · cases hstep
    | some sessionId =>
      rw [step] at hstep
      split at hstep
      · rename_i hserving
        cases hstep
        have hfewer : Undone { s.releaseWriter sessionId fd with threads := s.threads } := by
          refine h.fewer (fun _ _ hentry => (isWriter_releaseWriter.mp hentry).1) ?_
          intro id fd' hentry
          rw [IsReader, roAttached_releaseWriter] at hentry
          exact hentry
        exact hfewer.rephase (hserves hserving) fun fd' => herased
      · cases hstep

end machine

end ClientThreads

section main

variable [SerdeJson]

/-- **Attach bookkeeping is undone** in every run in which no proxy returns with an error. -/
theorem bookkeeping_undone {s : ClientThreads}
    (h : Run.Along ClientThreads.step ClientThreads.ReturnsOk (· = {}) s) : s.Undone := by
  apply h.invariant
  · rintro s rfl
    constructor
    · intro id fd hentry
      exact absurd hentry (by rw [Attachments.IsWriter, Std.ExtTreeMap.getElem?_empty]; exact nofun)
    · intro id fd hentry
      exact absurd hentry List.not_mem_nil
  · intro s action s' hs hok hstep
    exact ClientThreads.undone_step hs hok hstep

end main

section samples

attribute [local instance] Json.serdeJson

/-- What the client sends in the one read of its attach. -/
def sends (bytes : Bytes) : ProxyTurns where
  holderMinor := 1
  passes := [{ client := { bytes }, poll := .ready { readable := true } {} false }]

/-- A client attaches and detaches. -/
def detaches : List ClientAction :=
  [.accept 7, .attach 7 1 true, .proxyReturns 7 (sends (Frame.bytes { msgType := .detach }))]

theorem detach_is_undone :
    ∃ s : ClientThreads, Run.exec ClientThreads.step {} detaches = some s ∧ s.Undone := by
  obtain ⟨s₁, haccept⟩ : ∃ s₁, ClientThreads.step {} (.accept 7) = some s₁ := ⟨_, rfl⟩
  have hserving : s₁.threads[7]? = some .serving := by
    cases haccept
    exact (NatMap.get_insert _ _ _ _).trans (if_pos rfl)
  obtain ⟨s₂, hattach⟩ : ∃ s₂, s₁.step (.attach 7 1 true) = some s₂ := by
    rw [ClientThreads.step, if_pos hserving]
    exact ⟨_, rfl⟩
  have hattached : s₂.threads[7]? = some (.attached 1 true) := by
    rw [ClientThreads.step, if_pos hserving] at hattach
    cases hattach
    exact (NatMap.get_insert _ _ _ _).trans (if_pos rfl)
  have hdetach : ClientThreads.outcome (sends (Frame.bytes { msgType := .detach })) 1 true =
      .ok { exitContext := none } := by
    decide +kernel
  obtain ⟨s₃, hreturn⟩ : ∃ s₃, s₂.step
      (.proxyReturns 7 (sends (Frame.bytes { msgType := .detach }))) = some s₃ := by
    rw [ClientThreads.step, hattached]
    dsimp only
    rw [hdetach]
    exact ⟨_, rfl⟩
  refine ⟨s₃, ?_, bookkeeping_undone ?_⟩
  · simp only [detaches, Run.exec, haccept, hattach, hreturn, Option.bind_some]
  · apply Run.Along.step _ _ hreturn
    · exact .step (.step (.start rfl) (by trivial) haccept) (by trivial) hattach
    intro sessionId readWrite e hthread
    rw [hattached] at hthread
    cases hthread
    rw [hdetach]
    exact nofun

/-- A client attaches, sends a frame of no known type, and its descriptor is used again. -/
def reused : List ClientAction :=
  [.accept 7, .attach 7 1 true,
    .proxyReturns 7 (sends [0, 0, 0, 0, 255, 255, 0, 0, 0, 0, 0, 0]), .accept 7]

/-- **The entry of the first client points to the second.** -/
theorem entry_points_to_another :
    ∃ s : ClientThreads, Run.Reachable ClientThreads.step (· = {}) s ∧ s.IsWriter 1 7 ∧
      s.threads[7]? = some .serving ∧ ¬ s.Undone := by
  have hrun : (Run.exec ClientThreads.step {} reused).map
      (fun s => (s.attachedSessions[1]?, s.threads[7]?)) = some (some 7, some .serving) := by
    decide +kernel
  obtain ⟨s, hexec, hentries⟩ := Option.map_eq_some_iff.mp hrun
  obtain ⟨hwriter, hserving⟩ := Prod.mk.inj hentries
  have hstart : Run.Reachable ClientThreads.step (· = {}) {} := .start rfl
  refine ⟨s, hstart.exec hexec, hwriter, hserving, fun hundone => ?_⟩
  have hattached := hundone.writer 1 7 hwriter
  rw [hserving] at hattached
  cases hattached

end samples

end PersistShell

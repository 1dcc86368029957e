import PersistShell.Daemon.Attachments

/-! The idle GC of the main loop, beside the threads of the clients. A pass collects its
candidates under the lock of the manager, and kills them one after another with the lock given
back in between. How idle a session is, the manager knows from a map in memory. -/

namespace PersistShell

/-- What the row of a session says. -/
structure Marks where
  pinned : Bool := false
  locked : Bool := false
  deriving DecidableEq, Repr

/-- The thread of a client that attaches in read-write mode. -/
inductive WriterPhase where
  /-- The holder has attached the client, and the manager does not know of it. -/
  | granted (sessionId : Nat)
  /-- The proxy runs. -/
  | entered (sessionId : Nat)
  deriving DecidableEq, Repr

structure IdleGc extends Attachments where
  now : Nat := 0
  gcIdleTimeout : Nat
  /-- The cached inventory, without the orphans. -/
  runtimeIds : List Nat := []
  lastActivity : Std.ExtTreeMap Nat Nat := {}
  lockedSessions : List Nat := []
  rows : Std.ExtTreeMap Nat Marks := {}
  threads : Std.ExtTreeMap Nat WriterPhase := {}
  /-- The locks that are in the rows, and not yet in the manager. -/
  locking : List (Nat × Bool) := []
  /-- What the pass has still to kill. -/
  candidates : List Nat := []
  -- the facts; no function of the daemon reads them
  /-- The connection that is attached to a session in read-write mode, at the holder. -/
  writers : Std.ExtTreeMap Nat Nat := {}
  /-- When the last such connection left the session. -/
  leftAt : Std.ExtTreeMap Nat Nat := {}

inductive GcAction where
  | tick (elapsed : Nat)
  /-- The inventory is refreshed, or the orphans change. -/
  | inventory (ids : List Nat)
  /-- A session is created or restored. -/
  | create (id : Nat)
  | insertRow (id : Nat)
  | setSessionPinned (id : Nat) (pinned : Bool)
  /-- The two halves of `LockSet`. -/
  | setSessionLocked (id : Nat) (locked : Bool)
  | setLocked (id : Nat) (locked : Bool)
  /-- The holder attaches a client; a writer that was attached is displaced. -/
  | attach (fd id : Nat)
  /-- `record_activity` and `transfer_writer`. -/
  | enter (fd : Nat)
  /-- The client is gone, and its thread has not noticed. -/
  | leave (fd id : Nat)
  /-- The proxy has returned, and `release_writer` is called. -/
  | release (fd : Nat)
  /-- The thread ends with an error. -/
  | drop (fd : Nat)
  | finishClose (id : Nat)
  /-- A pass begins; some rows cannot be read. -/
  | collect (unreadable : List Nat)
  | kill
  /-- Another daemon finds the holder with these sessions. All connections are closed by then. -/
  | restart (gcIdleTimeout : Nat) (ids : List Nat)

namespace IdleGc
open Attachments

def recordActivity (s : IdleGc) (id : Nat) : IdleGc :=
  { s with lastActivity := s.lastActivity.insert id s.now }

def isAttached (s : IdleGc) (id : Nat) : Bool := s.attachedSessions.contains id

/-- Whether the manager takes a session for idle. -/
def idle (s : IdleGc) (id : Nat) : Bool :=
  match s.lastActivity[id]? with
  | none => true
  | some last => s.gcIdleTimeout ≤ s.now - last

def gcCandidates (s : IdleGc) (isPinned : Nat → Bool) : List Nat :=
  if s.gcIdleTimeout = 0 then []
  else s.runtimeIds.filter fun id =>
    !s.isAttached id && !(isPinned id || s.lockedSessions.contains id) && s.idle id

/-- `get_session(id).ok().flatten().is_some_and(|record| record.pinned)`. -/
def isPinned (s : IdleGc) (unreadable : List Nat) (id : Nat) : Bool :=
  !unreadable.contains id && (s.rows[id]?.map Marks.pinned).getD false

def IsLocked (s : IdleGc) (id : Nat) : Prop := ∃ marks, s.rows[id]? = some marks ∧ marks.locked

def IsPinned (s : IdleGc) (id : Nat) : Prop := ∃ marks, s.rows[id]? = some marks ∧ marks.pinned

/-- A connection is not attached any more. -/
def depart (s : IdleGc) (fd id : Nat) : IdleGc :=
  if s.writers[id]? = some fd then
    { s with writers := s.writers.erase id, leftAt := s.leftAt.insert id s.now }
  else s

def step (s : IdleGc) : GcAction → Option IdleGc
  | .tick elapsed => some { s with now := s.now + elapsed }
  | .inventory runtimeIds => some { s with runtimeIds }
  | .create id => some (s.recordActivity id)
  | .insertRow id =>
    if s.rows.contains id then none else some { s with rows := s.rows.insert id {} }
  | .setSessionPinned id pinned =>
    s.rows[id]?.map fun marks => { s with rows := s.rows.insert id { marks with pinned } }
  | .setSessionLocked id locked =>
    s.rows[id]?.map fun marks =>
      { s with
        rows := s.rows.insert id { marks with locked }
        locking := (id, locked) :: s.locking }
  | .setLocked id locked =>
    if (id, locked) ∈ s.locking then
      let lockedSessions := s.lockedSessions.filter (· ≠ id)
      some { s with
        lockedSessions := if locked then id :: lockedSessions else lockedSessions
        locking := s.locking.erase (id, locked) }
    else none
  | .attach fd id =>
    if s.threads.contains fd ∨ id ∉ s.runtimeIds then none
    else some { s with
      threads := s.threads.insert fd (.granted id)
      writers := s.writers.insert id fd }
  | .enter fd =>
    match s.threads[fd]? with
    | some (.granted id) => some { s.recordActivity id with
        toAttachments := s.transferWriter id fd
        threads := s.threads.insert fd (.entered id) }
    | _ => none
  | .leave fd id => some (s.depart fd id)
  | .release fd =>
    match s.threads[fd]? with
    | some (.entered id) => some { s.depart fd id with
        toAttachments := s.releaseWriter id fd
        threads := s.threads.erase fd }
    | _ => none
  | .drop fd =>
    match s.threads[fd]? with
    | some (.granted id) | some (.entered id) => some { s.depart fd id with
        threads := s.threads.erase fd }
    | none => none
  | .finishClose id => some { s with
      toAttachments := s.toAttachments.finishClose id
      lastActivity := s.lastActivity.erase id }
  | .collect unreadable =>
    if s.candidates = [] then some { s with candidates := s.gcCandidates (s.isPinned unreadable) }
    else none
  | .kill =>
    match s.candidates with
    | [] => none
    | _ :: candidates => some { s with candidates }
  | .restart gcIdleTimeout runtimeIds =>
    if s.writers.isEmpty then some {
      now := s.now
      gcIdleTimeout
      runtimeIds
      lockedSessions := (s.rows.toList.filter (·.2.locked)).map Prod.fst
      rows := s.rows
      leftAt := s.leftAt }
    else none

/-- What a session must be to be killed: no client is attached to it or was of late, and it is
neither locked nor pinned. -/
structure Idle (s : IdleGc) (id : Nat) : Prop where
  unattached : s.writers[id]? = none
  unlocked : ¬ s.IsLocked id
  unpinned : ¬ s.IsPinned id
  longGone : ∀ left, s.leftAt[id]? = some left → left + s.gcIdleTimeout ≤ s.now

/-- **The GC kills only idle sessions:** whichever it kills next is idle. -/
def KillsIdle (s : IdleGc) : Prop :=
  ∀ id ∈ s.candidates.head?, id ∈ s.runtimeIds → s.Idle id

/-- The manager is right about a session: it knows of the client that is attached and of the
lock, the row of a pinned session is read, and where no activity is recorded or none within
`gc_idle_timeout`, the last client left before that. -/
structure Accurate (s : IdleGc) (unreadable : List Nat) (id : Nat) : Prop where
  attached : s.isAttached id = false → s.writers[id]? = none
  locked : s.IsLocked id → id ∈ s.lockedSessions
  pinned : s.IsPinned id → id ∉ unreadable
  activity : s.idle id = true → ∀ left, s.leftAt[id]? = some left → left + s.gcIdleTimeout ≤ s.now

/-- The candidates are collected by a manager that is right about its sessions; until they are
killed, no client attaches to them, and none of them is locked or pinned. -/
def Clear (s : IdleGc) : GcAction → Prop
  | .collect unreadable => ∀ id ∈ s.runtimeIds, s.Accurate unreadable id
  | .attach _ id => id ∉ s.candidates
  | .setSessionPinned id pinned | .setSessionLocked id pinned => pinned = true → id ∉ s.candidates
  | _ => True

variable {s s' : IdleGc}

/-- What remains of a pass is idle. -/
def Sound (s : IdleGc) : Prop := ∀ id ∈ s.candidates, s.Idle id

/-- The facts about a session are the same, and time passes. -/
theorem Idle.later {id : Nat} (h : s.Idle id) (hwriters : s'.writers[id]? = s.writers[id]?)
    (hrows : s'.rows[id]? = s.rows[id]?) (hleft : s'.leftAt[id]? = s.leftAt[id]?)
    (htimeout : s'.gcIdleTimeout = s.gcIdleTimeout) (hnow : s.now ≤ s'.now) : s'.Idle id := by
  obtain ⟨hunattached, hunlocked, hunpinned, hgone⟩ := h
  constructor
  · exact hwriters.trans hunattached
  · intro ⟨marks, hmarks, hlocked⟩
    exact hunlocked ⟨marks, hrows ▸ hmarks, hlocked⟩
  · intro ⟨marks, hmarks, hpinned⟩
    exact hunpinned ⟨marks, hrows ▸ hmarks, hpinned⟩
  · intro left hentry
    have := hgone left (hleft ▸ hentry)
    omega

/-- Nothing that a candidate must be has changed, but the clock. -/
theorem Sound.keep (h : s.Sound) (hcandidates : s'.candidates = s.candidates)
    (hwriters : s'.writers = s.writers) (hrows : s'.rows = s.rows) (hleft : s'.leftAt = s.leftAt)
    (htimeout : s'.gcIdleTimeout = s.gcIdleTimeout) (hnow : s.now ≤ s'.now) : s'.Sound := by
  intro id hid
  apply (h id (hcandidates ▸ hid)).later ?_ ?_ ?_ htimeout hnow
  · rw [hwriters]
  · rw [hrows]
  · rw [hleft]

theorem depart_rest (s : IdleGc) (fd id : Nat) :
    (s.depart fd id).candidates = s.candidates ∧ (s.depart fd id).rows = s.rows ∧
      (s.depart fd id).gcIdleTimeout = s.gcIdleTimeout ∧ (s.depart fd id).now = s.now := by
  unfold depart
  split <;> exact ⟨rfl, rfl, rfl, rfl⟩

/-- A client that leaves was attached to no candidate. -/
theorem Sound.depart (h : s.Sound) (fd id : Nat) : (s.depart fd id).Sound := by
  obtain ⟨hcandidates, hrows, htimeout, hnow⟩ := depart_rest s fd id
  intro id' hid'
  have hidle := h id' (hcandidates ▸ hid')
  apply hidle.later ?_ (by rw [hrows]) ?_ htimeout (Nat.le_of_eq hnow.symm)
  · unfold IdleGc.depart
    split
    · exact (NatMap.get_erase _ _ _).trans (ite_eq_right_iff.mpr fun _ => hidle.unattached.symm)
    · rfl
  · unfold IdleGc.depart
    split
    · rename_i hwriter
      have hne : id ≠ id' := by
        rintro rfl
        rw [hidle.unattached] at hwriter
        cases hwriter
      exact (NatMap.get_insert _ _ _ _).trans (if_neg hne)
    · rfl

/-- A row changes, but no candidate is locked or pinned by that. -/
theorem Sound.setRow (h : s.Sound) {id : Nat} {marks : Marks} {locking : List (Nat × Bool)}
    (hmarks : id ∈ s.candidates → marks.locked = false ∧ marks.pinned = false) :
    Sound { s with rows := s.rows.insert id marks, locking } := by
  intro id' hid'
  have hold := h id' hid'
  by_cases hid : id = id'
  · subst hid
    obtain ⟨hlocked, hpinned⟩ := hmarks hid'
    have hrow : (s.rows.insert id marks)[id]? = some marks :=
      (NatMap.get_insert _ _ _ _).trans (if_pos rfl)
    refine ⟨hold.unattached, ?_, ?_, hold.longGone⟩
    · rintro ⟨marks', hmarks', hyes⟩
      cases hrow.symm.trans hmarks'
      rw [hlocked] at hyes
      cases hyes
    · rintro ⟨marks', hmarks', hyes⟩
      cases hrow.symm.trans hmarks'
      rw [hpinned] at hyes
      cases hyes
  · exact hold.later rfl ((NatMap.get_insert _ _ _ _).trans (if_neg hid)) rfl rfl (Nat.le_refl _)

theorem Idle.row {id : Nat} {marks : Marks} (h : s.Idle id) (hrow : s.rows[id]? = some marks) :
    marks.locked = false ∧ marks.pinned = false := by
  constructor
  · cases hlocked : marks.locked with
    | false => rfl
    | true => exact absurd ⟨marks, hrow, hlocked⟩ h.unlocked
  · cases hpinned : marks.pinned with
    | false => rfl
    | true => exact absurd ⟨marks, hrow, hpinned⟩ h.unpinned

/-- What a manager that is right collects is idle. -/
theorem idle_of_candidate {unreadable : List Nat} {id : Nat}
    (haccurate : ∀ id ∈ s.runtimeIds, s.Accurate unreadable id)
    (hid : id ∈ s.gcCandidates (s.isPinned unreadable)) : s.Idle id := by
  unfold gcCandidates at hid
  split at hid
  · cases hid
  obtain ⟨hruntime, hchosen⟩ := List.mem_filter.mp hid
  simp only [Bool.and_eq_true, Bool.not_eq_true', Bool.or_eq_false_iff] at hchosen
  obtain ⟨⟨hattached, hpinned, hlocked⟩, hidle⟩ := hchosen
  obtain ⟨hwriter, hlock, hpin, hactivity⟩ := haccurate id hruntime
  refine ⟨hwriter hattached, ?_, ?_, hactivity hidle⟩
  · intro hyes
    rw [List.contains_iff_mem.mpr (hlock hyes)] at hlocked
    cases hlocked
  · intro hyes
    have ⟨marks, hrow, hmarks⟩ := hyes
    have hreadable : unreadable.contains id = false := by
      rw [Bool.eq_false_iff, ne_eq, List.contains_iff_mem]
      exact hpin hyes
    rw [isPinned, hreadable, hrow, Option.map_some, Option.getD_some, hmarks] at hpinned
    cases hpinned

theorem sound_step {action : GcAction} (h : s.Sound) (hclear : s.Clear action)
    (hstep : s.step action = some s') : s'.Sound := by
  cases action with
  | tick elapsed =>
    cases hstep
    exact h.keep rfl rfl rfl rfl rfl (Nat.le_add_right _ _)
  | inventory ids =>
    cases hstep
    exact h.keep rfl rfl rfl rfl rfl (Nat.le_refl _)
  | create id =>
    cases hstep
    exact h.keep rfl rfl rfl rfl rfl (Nat.le_refl _)
  | insertRow id =>
    rw [step] at hstep
    split at hstep
    · cases hstep
    · cases hstep
      exact h.setRow fun _ => ⟨rfl, rfl⟩
  | setSessionPinned id pinned =>
    obtain ⟨marks, hrow, rfl⟩ := Option.map_eq_some_iff.mp hstep
    apply h.setRow
    intro hid
    refine ⟨((h id hid).row hrow).1, ?_⟩
    cases pinned with
    | false => rfl
    | true => exact absurd hid (hclear rfl)
  | setSessionLocked id locked =>
    obtain ⟨marks, hrow, rfl⟩ := Option.map_eq_some_iff.mp hstep
    apply h.setRow
    intro hid
    refine ⟨?_, ((h id hid).row hrow).2⟩
    cases locked with
    | false => rfl
    | true => exact absurd hid (hclear rfl)
  | setLocked id locked =>
    rw [step] at hstep
    split at hstep
    · cases hstep
      exact h.keep rfl rfl rfl rfl rfl (Nat.le_refl _)
    · cases hstep
  | attach fd id =>
    rw [step] at hstep
    split at hstep
    · cases hstep
    · cases hstep
      intro id' hid'
      have hne : id ≠ id' := fun heq => hclear (heq ▸ hid')
      exact (h id' hid').later ((NatMap.get_insert _ _ _ _).trans (if_neg hne)) rfl rfl rfl
        (Nat.le_refl _)
  | enter fd =>
    rw [step] at hstep
    split at hstep
    · cases hstep
      exact h.keep rfl rfl rfl rfl rfl (Nat.le_refl _)
    · cases hstep
  | leave fd id =>
    cases hstep
    exact h.depart fd id
  | release fd =>
    rw [step] at hstep
    split at hstep
    · rename_i id hthread
      cases hstep
      exact (h.depart fd id).keep rfl rfl rfl rfl rfl (Nat.le_refl _)
    · cases hstep
  | drop fd =>
    rw [step] at hstep
    split at hstep
    · rename_i id hthread
      cases hstep
      exact (h.depart fd id).keep rfl rfl rfl rfl rfl (Nat.le_refl _)
    · rename_i id hthread
      cases hstep
      exact (h.depart fd id).keep rfl rfl rfl rfl rfl (Nat.le_refl _)
    · cases hstep
  | finishClose id =>
    cases hstep
    exact h.keep rfl rfl rfl rfl rfl (Nat.le_refl _)
  | collect unreadable =>
    rw [step] at hstep
    split at hstep
    · cases hstep
      intro id hid
      exact (idle_of_candidate hclear hid).later rfl rfl rfl rfl (Nat.le_refl _)
    · cases hstep
  | kill =>
    rw [step] at hstep
    split at hstep
    · cases hstep
    · rename_i first candidates hcandidates
      cases hstep
      intro id hid
      have hold := h id (hcandidates ▸ List.mem_cons_of_mem _ hid)
      exact hold.later rfl rfl rfl rfl (Nat.le_refl _)
  | restart gcIdleTimeout ids =>
    rw [step] at hstep
    split at hstep
    · cases hstep
      exact fun id hid => absurd hid List.not_mem_nil
    · cases hstep

end IdleGc

/-- **The GC kills only idle sessions** in every run in which it collects its candidates with a
manager that is right about its sessions, and leaves none of them time to change. -/
theorem gc_kills_idle {gcIdleTimeout : Nat} {s : IdleGc}
    (h : Run.Along IdleGc.step IdleGc.Clear (· = { gcIdleTimeout }) s) : s.KillsIdle := by
  have hsound : s.Sound := by
    apply h.invariant (I := IdleGc.Sound)
    · rintro _ rfl id hid
      cases hid
    · exact fun s a s' hs hclear hstep => IdleGc.sound_step hs hclear hstep
  intro id hid _
  exact hsound id (List.mem_of_mem_head? hid)

section samples

/-- A session is created, and nobody attaches to it for twenty ticks. -/
def unused : List GcAction := [.inventory [1], .create 1, .tick 20, .collect []]

theorem unused_is_idle :
    ∃ s : IdleGc, Run.exec IdleGc.step { gcIdleTimeout := 5 } unused = some s ∧
      s.candidates.head? = some 1 ∧ s.KillsIdle := by
  have hcandidates : (Run.exec IdleGc.step { gcIdleTimeout := 5 } unused).map
      (fun s => s.candidates.head?) = some (some 1) := by
    decide +kernel
  obtain ⟨s, hexec, hhead⟩ := Option.map_eq_some_iff.mp hcandidates
  refine ⟨s, hexec, hhead, ?_⟩
  obtain ⟨s₁, hinventory, hrest⟩ := Option.bind_eq_some_iff.mp hexec
  obtain ⟨s₂, hcreate, hrest⟩ := Option.bind_eq_some_iff.mp hrest
  obtain ⟨s₃, htick, hrest⟩ := Option.bind_eq_some_iff.mp hrest
  obtain ⟨s₄, hcollect, hend⟩ := Option.bind_eq_some_iff.mp hrest
  cases hend
  have hstart : Run.Along IdleGc.step IdleGc.Clear (· = { gcIdleTimeout := 5 })
      { gcIdleTimeout := 5 } := .start rfl
  have hticked : Run.Along IdleGc.step IdleGc.Clear (· = { gcIdleTimeout := 5 }) s₃ :=
    ((hstart.step (by trivial) hinventory).step (by trivial) hcreate).step (by trivial) htick
  cases hinventory
  cases hcreate
  cases htick
  apply gc_kills_idle (hticked.step ?_ hcollect)
  intro id hid
  constructor
  · exact fun _ => rfl
  · exact fun ⟨marks, hmarks, _⟩ => nomatch hmarks
  · exact fun ⟨marks, hmarks, _⟩ => nomatch hmarks
  · exact fun _ left hleft => nomatch hleft

/-- A client is attached for twenty ticks, and detaches when the GC begins a pass. -/
def justLeft : List GcAction :=
  [.inventory [1], .create 1, .attach 3 1, .enter 3, .tick 20, .leave 3 1, .release 3, .collect []]

/-- **The session is the next to be killed, though its client has only just left.** -/
theorem just_left_is_killed :
    ∃ s : IdleGc, Run.Reachable IdleGc.step (· = { gcIdleTimeout := 5 }) s ∧ ¬ s.KillsIdle := by
  have hfacts : (Run.exec IdleGc.step { gcIdleTimeout := 5 } justLeft).map
      (fun s => ((s.candidates, s.runtimeIds), s.leftAt[1]?, s.gcIdleTimeout, s.now)) =
        some (([1], [1]), some 20, 5, 20) := by
    decide +kernel
  obtain ⟨s, hexec, hs⟩ := Option.map_eq_some_iff.mp hfacts
  obtain ⟨hlists, hleft, htimeout, hnow⟩ : (s.candidates, s.runtimeIds) = ([1], [1]) ∧
      s.leftAt[1]? = some 20 ∧ s.gcIdleTimeout = 5 ∧ s.now = 20 := by
    simpa only [Prod.mk.injEq] using hs
  obtain ⟨hcandidates, hruntime⟩ := Prod.mk.inj hlists
  have hstart : Run.Reachable IdleGc.step (· = { gcIdleTimeout := 5 }) { gcIdleTimeout := 5 } :=
    .start rfl
  refine ⟨s, hstart.exec hexec, fun hkills => ?_⟩
  have hidle := hkills 1 (by rw [hcandidates]; rfl) (by rw [hruntime]; exact List.mem_singleton_self 1)
  have hgone := hidle.longGone 20 hleft
  omega

end samples

end PersistShell

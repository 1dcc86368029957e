import PersistShell.Core.Error
import PersistShell.Program.NamedLock
import Mathlib.Tactic.IntervalCases

/-! Holders that start and end in one runtime directory. Each of them locks the pid file before
it touches the socket, and gives the socket up before it releases the lock. A process stands at
its next system call; any of them may fail, and a process may die before any of them. -/

namespace PersistShell

/-- The system calls of `run_foreground`, with the file behind `holder.pid` that the process has
open and the socket that it has bound. -/
inductive Launch where
  | inspectPidFile
  | openPidFile
  | setPidFileMode (f : Nat)
  | lockPidFile (f : Nat)
  | truncatePidFile (f : Nat)
  | writePid (f : Nat)
  | writeNewline (f : Nat)
  | inspectSocket (f : Nat)
  | probeSocket (f : Nat)
  | removeStaleSocket (f : Nat)
  | bindSocket (f : Nat)
  | listen (f s : Nat)
  | setSocketMode (f s : Nat)
  | validateSocket (f s : Nat)
  | setNonblocking (f s : Nat)
  | serve (f s : Nat)
  | removeSocket (f s : Nat)
  | closeSocket (f s : Nat)
  | unlockPidFile (f : Nat)
  | removePidFile (f : Nat)
  deriving DecidableEq, Repr

/-- Files and sockets are numbered in the order in which they are created. -/
structure RuntimeDir where
  pidFile : Option Nat
  pidFiles : Nat
  lock : Nat → Option Nat
  content : Nat → Bytes
  socket : Option Nat
  sockets : Nat
  listening : Nat → Bool
  launches : Nat → Option Launch

inductive LaunchEvent where
  | start (p : Nat)
  | proceed (p : Nat)
  /-- The call fails; a write may have written some bytes by then. -/
  | fail (p : Nat) (written : Nat)
  | crash (p : Nat)
  deriving DecidableEq, Repr

namespace Launch

/-- How far the process is with the pid file. -/
def seat : Launch → Option NamedLock.Seat
  | inspectPidFile | openPidFile => none
  | setPidFileMode f | lockPidFile f => some (.opened f)
  | truncatePidFile f | writePid f | writeNewline f | inspectSocket f | probeSocket f
  | removeStaleSocket f | bindSocket f | unlockPidFile f => some (.held f)
  | listen f _ | setSocketMode f _ | validateSocket f _ | setNonblocking f _ | serve f _
  | removeSocket f _ | closeSocket f _ => some (.held f)
  | removePidFile f => some (.released f)

/-- The socket that the process has bound and not yet closed. -/
def bound : Launch → Option Nat
  | listen _ s | setSocketMode _ s | validateSocket _ s | setNonblocking _ s | serve _ s
  | removeSocket _ s | closeSocket _ s => some s
  | _ => none

/-- The socket that the process listens on. -/
def listensOn : Launch → Option Nat
  | listen _ _ => none
  | l => l.bound

/-- The socket that the process has put at the socket path. -/
def atPath : Launch → Option Nat
  | closeSocket _ _ => none
  | l => l.bound

end Launch

def pidDigits (p : Nat) : Bytes := utf8 (toString p)

def newline : Bytes := utf8 "\n"

/-- The file that the process writes its pid to, and what it has written there. -/
def Launch.wrote (p : Nat) : Launch → Option (Nat × Bytes)
  | writePid f => some (f, [])
  | writeNewline f => some (f, pidDigits p)
  | inspectSocket f | probeSocket f | removeStaleSocket f | bindSocket f | unlockPidFile f =>
    some (f, pidDigits p ++ newline)
  | listen f _ | setSocketMode f _ | validateSocket f _ | setNonblocking f _ | serve f _
  | removeSocket f _ | closeSocket f _ => some (f, pidDigits p ++ newline)
  | _ => none

namespace RuntimeDir

def go (w : RuntimeDir) (p : Nat) (l : Launch) : RuntimeDir :=
  { w with launches := Function.update w.launches p (some l) }

/-- The process ends, and the kernel closes what it has open. -/
def leave (w : RuntimeDir) (p : Nat) (l : Launch) : RuntimeDir :=
  { w with
    lock := fun f => if l.seat = some (.held f) then none else w.lock f
    listening := fun s => if l.bound = some s then false else w.listening s
    launches := Function.update w.launches p none }

def write (w : RuntimeDir) (f : Nat) (bytes : Bytes) : RuntimeDir :=
  { w with content := Function.update w.content f (w.content f ++ bytes) }

def truncate (w : RuntimeDir) (f : Nat) : RuntimeDir :=
  { w with content := Function.update w.content f [] }

/-- `open` with `O_CREAT`. -/
def openPidFile (w : RuntimeDir) : Nat × RuntimeDir :=
  match w.pidFile with
  | some f => (f, w)
  | none =>
    (w.pidFiles, { w with
      pidFile := some w.pidFiles
      pidFiles := w.pidFiles + 1
      content := Function.update w.content w.pidFiles [] })

/-- The call of a process, where the system does not refuse it. -/
def proceed (w : RuntimeDir) (p : Nat) : Launch → RuntimeDir
  | .inspectPidFile => w.go p .openPidFile
  | .openPidFile => w.openPidFile.2.go p (.setPidFileMode w.openPidFile.1)
  -- the mode is set by path
  | .setPidFileMode f =>
    if w.pidFile.isSome then w.go p (.lockPidFile f) else w.leave p (.setPidFileMode f)
  | .lockPidFile f =>
    if w.lock f = none then
      { w with lock := Function.update w.lock f (some p) }.go p (.truncatePidFile f)
    else w.leave p (.lockPidFile f)
  | .truncatePidFile f => (w.truncate f).go p (.writePid f)
  | .writePid f => (w.write f (pidDigits p)).go p (.writeNewline f)
  | .writeNewline f => (w.write f newline).go p (.inspectSocket f)
  | .inspectSocket f =>
    w.go p (if w.socket.isSome then .probeSocket f else .bindSocket f)
  | .probeSocket f =>
    w.go p (if w.socket.any w.listening then .unlockPidFile f else .removeStaleSocket f)
  | .removeStaleSocket f =>
    if w.socket.isSome then { w with socket := none }.go p (.bindSocket f)
    else w.go p (.unlockPidFile f)
  | .bindSocket f =>
    if w.socket.isSome then w.go p (.unlockPidFile f)
    else { w with socket := some w.sockets, sockets := w.sockets + 1 }.go p (.listen f w.sockets)
  | .listen f s =>
    { w with listening := Function.update w.listening s true }.go p (.setSocketMode f s)
  | .setSocketMode f s =>
    w.go p (if w.socket.isSome then .validateSocket f s else .closeSocket f s)
  | .validateSocket f s =>
    w.go p (if w.socket.isSome then .setNonblocking f s else .closeSocket f s)
  | .setNonblocking f s => w.go p (.serve f s)
  | .serve f s => w.go p (.removeSocket f s)
  | .removeSocket f s => { w with socket := none }.go p (.closeSocket f s)
  | .closeSocket f s =>
    { w with listening := Function.update w.listening s false }.go p (.unlockPidFile f)
  | .unlockPidFile f =>
    { w with lock := Function.update w.lock f none }.go p (.removePidFile f)
  | .removePidFile f => { w with pidFile := none }.leave p (.removePidFile f)

/-- The call of a process fails. Until the lock has been taken the process then just ends; what
fails while it gives things up is ignored. -/
def fail (w : RuntimeDir) (p : Nat) (written : Nat) : Launch → RuntimeDir
  | .writePid f => (w.write f ((pidDigits p).take written)).leave p (.writePid f)
  -- a socket that does not listen is closed unseen
  | .inspectSocket f | .probeSocket f | .removeStaleSocket f | .bindSocket f | .listen f _ =>
    w.go p (.unlockPidFile f)
  | .setSocketMode f s | .validateSocket f s | .setNonblocking f s => w.go p (.closeSocket f s)
  | .serve f s => w.go p (.removeSocket f s)
  | .removeSocket f s => w.go p (.closeSocket f s)
  -- `close` and the unlock of an open file have no failure that matters
  | .closeSocket f s => w.proceed p (.closeSocket f s)
  | .unlockPidFile f => w.proceed p (.unlockPidFile f)
  | l => w.leave p l

def step (w : RuntimeDir) : LaunchEvent → Option RuntimeDir
  | .start p => if w.launches p = none then some (w.go p .inspectPidFile) else none
  | .proceed p => (w.launches p).map (w.proceed p)
  | .fail p written => (w.launches p).map (w.fail p written)
  | .crash p => (w.launches p).map (w.leave p)

/-- A boot finds what the last one left: a pid file and a socket, and no process. -/
def Boot (w : RuntimeDir) : Prop :=
  (∀ p, w.launches p = none) ∧ (∀ f, w.lock f = none) ∧ (∀ s, w.listening s = false) ∧
    (∀ f, w.pidFile = some f → f < w.pidFiles) ∧ ∀ s, w.socket = some s → s < w.sockets

/-- The pid file as a lock behind a name. -/
def pidLock (w : RuntimeDir) : NamedLock.State Nat :=
  .ofCalls w.pidFile w.pidFiles w.lock w.launches Launch.seat

/-- The pid file is removed only when no other process has it open. -/
def Quiet (w : RuntimeDir) : LaunchEvent → Prop
  | .proceed p => ∀ f, w.launches p = some (.removePidFile f) →
      ∀ q g, q ≠ p → w.pidFile = some g → ¬ w.pidLock.Uses q g
  | _ => True

section refinement

variable {w w' : RuntimeDir} {p : Nat} {l : Launch}

theorem seat_pidLock (h : w.launches p = some l) : w.pidLock.seat p = l.seat :=
  NamedLock.seat_ofCalls h

theorem pidLock_go (w : RuntimeDir) (p : Nat) (l : Launch) :
    (w.go p l).pidLock = w.pidLock.sit p l.seat :=
  NamedLock.ofCalls_update (some l)

/-- A call that has nothing to do with the pid file. -/
theorem pidLock_go_self {l' : Launch} (h : w.launches p = some l) (hseat : l'.seat = l.seat) :
    (w.go p l').pidLock = w.pidLock := by
  rw [pidLock_go, hseat]
  exact NamedLock.sit_self (seat_pidLock h)

theorem pidLock_openPidFile (w : RuntimeDir) :
    w.openPidFile.1 = w.pidLock.enter.1 ∧ w.openPidFile.2.pidLock = w.pidLock.enter.2 ∧
      w.openPidFile.2.launches = w.launches := by
  unfold openPidFile NamedLock.State.enter
  cases h : w.pidFile with
  | none => simp [pidLock, NamedLock.State.ofCalls, h]
  | some f => simp [pidLock, NamedLock.State.ofCalls, h]

theorem locks_leave {quiet : Prop} (h : w.launches p = some l) :
    NamedLock.Moves w.pidLock quiet (w.leave p l).pidLock :=
  NamedLock.moves_leave h

theorem locks_proceed (h : w.launches p = some l) :
    NamedLock.Moves w.pidLock (w.Quiet (.proceed p)) (w.proceed p l).pidLock := by
  have hseat := seat_pidLock h
  cases l with
  | inspectPidFile => exact .same (pidLock_go_self h rfl)
  | openPidFile =>
    obtain ⟨hfile, hlock, -⟩ := pidLock_openPidFile w
    refine .act (.enter p) ?_ fun _ => trivial
    simp only [NamedLock.step, hseat]
    rw [proceed, pidLock_go, hfile, hlock]
    rfl
  | setPidFileMode f =>
    rw [proceed]
    split
    · exact .same (pidLock_go_self h rfl)
    · exact locks_leave h
  | lockPidFile f =>
    rw [proceed]
    split
    · rename_i hfree
      refine .act (.lock p) ?_ fun _ => trivial
      simp only [NamedLock.step, hseat, Launch.seat]
      rw [if_pos (show w.pidLock.owner f = none from hfree), pidLock_go]
      rfl
    · exact locks_leave h
  | truncatePidFile f => exact .same (pidLock_go_self (w := w.truncate f) h rfl)
  | writePid f => exact .same (pidLock_go_self (w := w.write f _) h rfl)
  | writeNewline f => exact .same (pidLock_go_self (w := w.write f _) h rfl)
  | inspectSocket f =>
    rw [proceed]
    exact .same (pidLock_go_self h (by split <;> rfl))
  | probeSocket f =>
    rw [proceed]
    exact .same (pidLock_go_self h (by split <;> rfl))
  | removeStaleSocket f =>
    rw [proceed]
    split
    · exact .same (pidLock_go_self (w := { w with socket := none }) h rfl)
    · exact .same (pidLock_go_self h rfl)
  | bindSocket f =>
    rw [proceed]
    split
    · exact .same (pidLock_go_self h rfl)
    · exact .same (pidLock_go_self
        (w := { w with socket := some w.sockets, sockets := w.sockets + 1 }) h rfl)
  | listen f s =>
    exact .same (pidLock_go_self
      (w := { w with listening := Function.update w.listening s true }) h rfl)
  | setSocketMode f s =>
    rw [proceed]
    exact .same (pidLock_go_self h (by split <;> rfl))
  | validateSocket f s =>
    rw [proceed]
    exact .same (pidLock_go_self h (by split <;> rfl))
  | setNonblocking f s => exact .same (pidLock_go_self h rfl)
  | serve f s => exact .same (pidLock_go_self h rfl)
  | removeSocket f s => exact .same (pidLock_go_self (w := { w with socket := none }) h rfl)
  | closeSocket f s =>
    exact .same (pidLock_go_self
      (w := { w with listening := Function.update w.listening s false }) h rfl)
  | unlockPidFile f =>
    refine .act (.release p) ?_ fun _ => trivial
    simp only [NamedLock.step, hseat, Launch.seat]
    rw [proceed, pidLock_go]
    rfl
  | removePidFile f => exact NamedLock.moves_remove h rfl fun hquiet => hquiet f h

theorem locks_fail {written : Nat} (h : w.launches p = some l) :
    NamedLock.Moves w.pidLock True (w.fail p written l).pidLock := by
  cases l with
  | inspectPidFile | openPidFile => exact locks_leave h
  | setPidFileMode f | lockPidFile f | truncatePidFile f | writeNewline f | removePidFile f =>
    exact locks_leave h
  | writePid f => exact locks_leave (w := w.write f ((pidDigits p).take written)) h
  | inspectSocket f | probeSocket f | removeStaleSocket f | bindSocket f =>
    exact .same (pidLock_go_self h rfl)
  | listen f s | setSocketMode f s | validateSocket f s | setNonblocking f s | serve f s
  | removeSocket f s =>
    exact .same (pidLock_go_self h rfl)
  | closeSocket f s =>
    exact (locks_proceed h).mono fun _ f hf => by
      rw [h] at hf
      cases hf
  | unlockPidFile f =>
    exact (locks_proceed h).mono fun _ f hf => by
      rw [h] at hf
      cases hf

/-- What a step does to the pid file is what a step of the lock does. -/
theorem pidLock_step {e : LaunchEvent} (h : w.step e = some w') :
    NamedLock.Moves w.pidLock (w.Quiet e) w'.pidLock := by
  cases e with
  | start p =>
    simp only [step] at h
    split at h
    · rename_i hnone
      cases h
      refine .same ?_
      rw [pidLock_go]
      exact NamedLock.sit_self (by simp [pidLock, NamedLock.State.ofCalls, hnone, Launch.seat])
    · cases h
  | proceed p =>
    obtain ⟨l, hl, rfl⟩ := Option.map_eq_some_iff.mp h
    exact locks_proceed hl
  | fail p written =>
    obtain ⟨l, hl, rfl⟩ := Option.map_eq_some_iff.mp h
    exact (locks_fail hl).mono fun _ => trivial
  | crash p =>
    obtain ⟨l, hl, rfl⟩ := Option.map_eq_some_iff.mp h
    exact locks_leave hl

end refinement

section sockets

variable {w w' : RuntimeDir} {p q s : Nat} {l l' : Launch}

def bound (w : RuntimeDir) (p : Nat) : Option Nat := (w.launches p).bind Launch.bound

def listensOn (w : RuntimeDir) (p : Nat) : Option Nat := (w.launches p).bind Launch.listensOn

def atPath (w : RuntimeDir) (p : Nat) : Option Nat := (w.launches p).bind Launch.atPath

/-- A socket listens as long as the process that bound it. -/
structure Socketed (w : RuntimeDir) : Prop where
  socket : ∀ s, w.socket = some s → s < w.sockets
  fresh : ∀ p s, w.bound p = some s → s < w.sockets
  alone : ∀ p q s, w.bound p = some s → w.bound q = some s → p = q
  listening : ∀ s, w.listening s = true ↔ ∃ p, w.listensOn p = some s

theorem bound_go (w : RuntimeDir) (p q : Nat) (l : Launch) :
    (w.go p l).bound q = if q = p then l.bound else w.bound q := by
  by_cases hq : q = p
  · subst hq
    simp [bound, go]
  · simp [bound, go, hq]

theorem listensOn_go (w : RuntimeDir) (p q : Nat) (l : Launch) :
    (w.go p l).listensOn q = if q = p then l.listensOn else w.listensOn q := by
  by_cases hq : q = p
  · subst hq
    simp [listensOn, go]
  · simp [listensOn, go, hq]

theorem atPath_go (w : RuntimeDir) (p q : Nat) (l : Launch) :
    (w.go p l).atPath q = if q = p then l.atPath else w.atPath q := by
  by_cases hq : q = p
  · subst hq
    simp [atPath, go]
  · simp [atPath, go, hq]

theorem bound_of_listensOn (h : l.listensOn = some s) : l.bound = some s := by
  cases l with
  | listen f s => cases h
  | _ => exact h

theorem bound_of_atPath (h : l.atPath = some s) : l.bound = some s := by
  cases l with
  | closeSocket f s => cases h
  | _ => exact h

/-- A process goes on to a call with the same socket. -/
theorem Socketed.go (h : w.Socketed) (hl : w.launches p = some l) (hbound : l'.bound = l.bound)
    (hlistens : l'.listensOn = l.listensOn) : (w.go p l').Socketed := by
  have hb : (w.go p l').bound = w.bound := by
    funext q
    rw [bound_go]
    split
    · rename_i hq
      simp [bound, hq, hl, hbound]
    · rfl
  have ho : (w.go p l').listensOn = w.listensOn := by
    funext q
    rw [listensOn_go]
    split
    · rename_i hq
      simp [listensOn, hq, hl, hlistens]
    · rfl
  exact ⟨h.socket, hb ▸ h.fresh, hb ▸ h.alone, ho ▸ h.listening⟩

theorem Socketed.clear (h : w.Socketed) : { w with socket := none }.Socketed :=
  ⟨fun s hs => (by cases hs), h.fresh, h.alone, h.listening⟩

theorem Socketed.bind {f : Nat} (h : w.Socketed) (hl : w.bound p = none) :
    ({ w with socket := some w.sockets, sockets := w.sockets + 1 }.go p
      (.listen f w.sockets)).Socketed := by
  have hb : ∀ q s, ({ w with socket := some w.sockets, sockets := w.sockets + 1 }.go p
      (.listen f w.sockets)).bound q = some s →
      q = p ∧ s = w.sockets ∨ q ≠ p ∧ w.bound q = some s := by
    intro q s hs
    rw [bound_go] at hs
    split at hs
    · rename_i hq
      exact .inl ⟨hq, (Option.some.inj hs).symm⟩
    · rename_i hq
      exact .inr ⟨hq, hs⟩
  refine ⟨fun s hs => ?_, fun q s hs => ?_, fun q r s hq hr => ?_, fun s => ?_⟩
  · cases hs
    exact Nat.lt_succ_self _
  · rcases hb q s hs with ⟨-, rfl⟩ | ⟨-, hs⟩
    · exact Nat.lt_succ_self _
    · exact Nat.lt_succ_of_lt (h.fresh q s hs)
  · rcases hb q s hq with ⟨hqp, rfl⟩ | ⟨-, hq⟩ <;> rcases hb r _ hr with ⟨hrp, hs⟩ | ⟨-, hr⟩
    · exact hqp.trans hrp.symm
    · exact absurd (h.fresh r _ hr) (lt_irrefl _)
    · exact absurd (hs ▸ h.fresh q _ hq) (lt_irrefl _)
    · exact h.alone q r s hq hr
  · refine (h.listening s).trans (exists_congr fun q => ?_)
    rw [listensOn_go]
    split
    · rename_i hq
      subst hq
      have hnone : w.listensOn q = none := by
        cases hl' : w.launches q with
        | none => simp [listensOn, hl']
        | some l =>
          cases hs : l.listensOn with
          | none => simp [listensOn, hl', hs]
          | some s =>
            rw [bound, hl', Option.bind_some, bound_of_listensOn hs] at hl
            cases hl
      simp [hnone, Launch.listensOn]
    · rfl

theorem Socketed.listen {f : Nat} (h : w.Socketed) (hl : w.launches p = some (.listen f s)) :
    ({ w with listening := Function.update w.listening s true }.go p
      (.setSocketMode f s)).Socketed := by
  have hb : ({ w with listening := Function.update w.listening s true }.go p
      (.setSocketMode f s)).bound = w.bound := by
    funext q
    rw [bound_go]
    split
    · rename_i hq
      simp [bound, hq, hl, Launch.bound]
    · rfl
  refine ⟨h.socket, hb ▸ h.fresh, hb ▸ h.alone, fun t => ?_⟩
  show Function.update w.listening s true t = true ↔ _
  by_cases ht : t = s
  · subst ht
    rw [Function.update_self]
    exact ⟨fun _ => ⟨p, by rw [listensOn_go, if_pos rfl]; rfl⟩, fun _ => rfl⟩
  · rw [Function.update_of_ne ht, h.listening t]
    refine exists_congr fun q => ?_
    rw [listensOn_go]
    split
    · rename_i hq
      subst hq
      simp [listensOn, hl, Launch.listensOn, Launch.bound, Ne.symm ht]
    · rfl

/-- The socket of a process is closed. -/
theorem Socketed.close (h : w.Socketed) (hl : w.launches p = some l)
    (hlock : w'.socket = w.socket ∧ w'.sockets = w.sockets)
    (hlistening : ∀ s, w'.listening s = if l.bound = some s then false else w.listening s)
    (hself : w'.bound p = none) (hothers : ∀ q, q ≠ p → w'.launches q = w.launches q) :
    w'.Socketed := by
  have hb : ∀ q s, w'.bound q = some s → q ≠ p ∧ w.bound q = some s := by
    intro q s hs
    have hq : q ≠ p := by
      rintro rfl
      rw [hself] at hs
      cases hs
    rw [bound, hothers q hq] at hs
    exact ⟨hq, hs⟩
  refine ⟨fun s hs => ?_, fun q s hs => ?_, fun q r s hq hr => ?_, fun s => ?_⟩
  · rw [hlock.1] at hs
    exact hlock.2 ▸ h.socket s hs
  · exact hlock.2 ▸ h.fresh q s (hb q s hs).2
  · exact h.alone q r s (hb q s hq).2 (hb r s hr).2
  · have hown : l.bound = some s → ∀ q, q ≠ p → w.listensOn q ≠ some s := by
      intro hs q hq hon
      obtain ⟨l', hl', hon⟩ := Option.bind_eq_some_iff.mp hon
      exact hq (h.alone q p s (by simp [bound, hl', bound_of_listensOn hon]) (by simp [bound, hl, hs]))
    have hgone : w'.listensOn p = none := by
      cases hl' : w'.launches p with
      | none => simp [listensOn, hl']
      | some l' =>
        cases hs : l'.listensOn with
        | none => simp [listensOn, hl', hs]
        | some s =>
          rw [bound, hl', Option.bind_some, bound_of_listensOn hs] at hself
          cases hself
    rw [hlistening s]
    split
    · rename_i hs
      refine ⟨fun hf => (by cases hf), fun ⟨q, hq⟩ => ?_⟩
      by_cases hqp : q = p
      · subst hqp
        rw [hgone] at hq
        cases hq
      · rw [listensOn, hothers q hqp] at hq
        exact absurd hq (hown hs q hqp)
    · rename_i hs
      rw [h.listening s]
      refine exists_congr fun q => ?_
      by_cases hqp : q = p
      · subst hqp
        rw [hgone]
        refine ⟨fun hon => ?_, fun hon => (by cases hon)⟩
        rw [listensOn, hl] at hon
        exact absurd (bound_of_listensOn hon) hs
      · rw [listensOn, listensOn, hothers q hqp]

theorem Socketed.leave (h : w.Socketed) (hl : w.launches p = some l) : (w.leave p l).Socketed :=
  h.close hl ⟨rfl, rfl⟩ (fun _ => rfl) (by simp [bound, RuntimeDir.leave])
    fun q hq => by simp [RuntimeDir.leave, hq]

theorem Socketed.proceed (h : w.Socketed) (hl : w.launches p = some l) :
    (w.proceed p l).Socketed := by
  cases l with
  | inspectPidFile => exact h.go hl rfl rfl
  | openPidFile =>
    obtain ⟨-, -, hlaunches⟩ := pidLock_openPidFile w
    have hw : w.openPidFile.2.Socketed := by
      unfold openPidFile
      cases w.pidFile with
      | none => exact ⟨h.socket, h.fresh, h.alone, h.listening⟩
      | some f => exact h
    exact hw.go ((congrFun hlaunches p).trans hl) rfl rfl
  | setPidFileMode f =>
    rw [RuntimeDir.proceed]
    split
    · exact h.go hl rfl rfl
    · exact h.leave hl
  | lockPidFile f =>
    rw [RuntimeDir.proceed]
    split
    · have hw : { w with lock := Function.update w.lock f (some p) }.Socketed :=
        ⟨h.socket, h.fresh, h.alone, h.listening⟩
      exact hw.go hl rfl rfl
    · exact h.leave hl
  | truncatePidFile f =>
    have hw : (w.truncate f).Socketed := ⟨h.socket, h.fresh, h.alone, h.listening⟩
    exact hw.go hl rfl rfl
  | writePid f =>
    have hw : (w.write f (pidDigits p)).Socketed := ⟨h.socket, h.fresh, h.alone, h.listening⟩
    exact hw.go hl rfl rfl
  | writeNewline f =>
    have hw : (w.write f newline).Socketed := ⟨h.socket, h.fresh, h.alone, h.listening⟩
    exact hw.go hl rfl rfl
  | inspectSocket f | probeSocket f =>
    rw [RuntimeDir.proceed]
    exact h.go hl (by split <;> rfl) (by split <;> rfl)
  | removeStaleSocket f =>
    rw [RuntimeDir.proceed]
    split
    · exact h.clear.go hl rfl rfl
    · exact h.go hl rfl rfl
  | bindSocket f =>
    rw [RuntimeDir.proceed]
    split
    · exact h.go hl rfl rfl
    · exact h.bind (by simp [bound, hl, Launch.bound])
  | listen f s => exact h.listen hl
  | setSocketMode f s | validateSocket f s =>
    rw [RuntimeDir.proceed]
    exact h.go hl (by split <;> rfl) (by split <;> rfl)
  | setNonblocking f s => exact h.go hl rfl rfl
  | serve f s => exact h.go hl rfl rfl
  | removeSocket f s => exact h.clear.go hl rfl rfl
  | closeSocket f s =>
    refine h.close hl ⟨rfl, rfl⟩ (fun t => ?_) ?_ fun q hq => ?_
    · simp [RuntimeDir.proceed, RuntimeDir.go, Launch.bound, Function.update_apply, eq_comm]
    · rw [RuntimeDir.proceed, bound_go, if_pos rfl]
      rfl
    · simp [RuntimeDir.proceed, RuntimeDir.go, hq]
  | unlockPidFile f =>
    have hw : { w with lock := Function.update w.lock f none }.Socketed :=
      ⟨h.socket, h.fresh, h.alone, h.listening⟩
    exact hw.go hl rfl rfl
  | removePidFile f =>
    have hw : { w with pidFile := none }.Socketed := ⟨h.socket, h.fresh, h.alone, h.listening⟩
    exact hw.leave hl

theorem Socketed.fail {written : Nat} (h : w.Socketed) (hl : w.launches p = some l) :
    (w.fail p written l).Socketed := by
  cases l with
  | inspectPidFile | openPidFile => exact h.leave hl
  | setPidFileMode f | lockPidFile f | truncatePidFile f | writeNewline f | removePidFile f =>
    exact h.leave hl
  | writePid f =>
    have hw : (w.write f ((pidDigits p).take written)).Socketed :=
      ⟨h.socket, h.fresh, h.alone, h.listening⟩
    exact hw.leave hl
  | inspectSocket f | probeSocket f | removeStaleSocket f | bindSocket f => exact h.go hl rfl rfl
  | listen f s =>
    refine h.close hl ⟨rfl, rfl⟩ (fun t => ?_) ?_ fun q hq => ?_
    · show w.listening t = _
      split
      · rename_i ht
        by_contra hon
        obtain ⟨q, hq⟩ := (h.listening t).mp (Bool.not_eq_false _ ▸ hon)
        obtain ⟨l', hl', hq⟩ := Option.bind_eq_some_iff.mp hq
        have hqp := h.alone q p t (by simp [bound, hl', bound_of_listensOn hq])
          (by simp [bound, hl, ht])
        subst hqp
        rw [hl] at hl'
        cases hl'
        cases hq
      · rfl
    · rw [RuntimeDir.fail, bound_go, if_pos rfl]
      rfl
    · simp [RuntimeDir.fail, RuntimeDir.go, hq]
  | setSocketMode f s | validateSocket f s | setNonblocking f s | serve f s | removeSocket f s =>
    exact h.go hl rfl rfl
  | closeSocket f s => exact h.proceed hl
  | unlockPidFile f => exact h.proceed hl

theorem Socketed.step {e : LaunchEvent} (h : w.Socketed) (hs : w.step e = some w') :
    w'.Socketed := by
  cases e with
  | start p =>
    simp only [RuntimeDir.step] at hs
    split at hs
    · rename_i hnone
      cases hs
      have hb : (w.go p .inspectPidFile).bound = w.bound := by
        funext q
        rw [bound_go]
        split
        · rename_i hq
          simp [bound, hq, hnone, Launch.bound]
        · rfl
      have ho : (w.go p .inspectPidFile).listensOn = w.listensOn := by
        funext q
        rw [listensOn_go]
        split
        · rename_i hq
          simp [listensOn, hq, hnone, Launch.listensOn, Launch.bound]
        · rfl
      exact ⟨h.socket, hb ▸ h.fresh, hb ▸ h.alone, ho ▸ h.listening⟩
    · cases hs
  | proceed p =>
    obtain ⟨l, hl, rfl⟩ := Option.map_eq_some_iff.mp hs
    exact h.proceed hl
  | fail p written =>
    obtain ⟨l, hl, rfl⟩ := Option.map_eq_some_iff.mp hs
    exact h.fail hl
  | crash p =>
    obtain ⟨l, hl, rfl⟩ := Option.map_eq_some_iff.mp hs
    exact h.leave hl

end sockets

section content

variable {w w' : RuntimeDir} {p q f : Nat} {l l' : Launch}

/-- The file of a process that holds the lock has in it what the process wrote there. -/
def Written (w : RuntimeDir) : Prop :=
  ∀ p f b, (w.launches p).bind (Launch.wrote p) = some (f, b) → w.content f = b

theorem seat_of_wrote {b : Bytes} (h : l.wrote p = some (f, b)) : l.seat = some (.held f) := by
  cases l <;> simp_all [Launch.wrote, Launch.seat]

/-- One process moves, and no file changes that another one holds. -/
theorem Written.move (h : w.Written) (hothers : ∀ q, q ≠ p → w'.launches q = w.launches q)
    (hcontent : ∀ q f, q ≠ p → w.pidLock.seat q = some (.held f) → w'.content f = w.content f)
    (hself : ∀ l f b, w'.launches p = some l → l.wrote p = some (f, b) → w'.content f = b) :
    w'.Written := by
  intro q f b hq
  obtain ⟨l, hl, hb⟩ := Option.bind_eq_some_iff.mp hq
  by_cases hqp : q = p
  · subst hqp
    exact hself l f b hl hb
  · rw [hothers q hqp] at hl
    rw [hcontent q f hqp (by rw [seat_pidLock hl, seat_of_wrote hb])]
    exact h q f b (by rw [hl]; exact hb)

theorem Written.go (h : w.Written) (hl : w.launches p = some l)
    (hwrote : l'.wrote p = l.wrote p) : (w.go p l').Written :=
  h.move (p := p) (fun q hq => by simp [RuntimeDir.go, hq]) (fun _ _ _ _ => rfl)
    fun k f b hk hb => by
      have : l' = k := by simpa [RuntimeDir.go] using hk
      subst this
      exact h p f b (by rw [hl]; exact hwrote.symm.trans hb)

theorem Written.leave (h : w.Written) (l : Launch) : (w.leave p l).Written :=
  h.move (p := p) (fun q hq => by simp [RuntimeDir.leave, hq]) (fun _ _ _ _ => rfl)
    fun k f b hk _ => by simp [RuntimeDir.leave] at hk

/-- The holder of a file changes what is in it. -/
theorem Written.edit (h : w.Written) (hc : NamedLock.Coherent w.pidLock)
    (hl : w.pidLock.seat p = some (.held f)) {bytes : Bytes}
    (hwrote : ∀ g b, l'.wrote p = some (g, b) → g = f ∧ b = bytes) :
    ({ w with content := Function.update w.content f bytes }.go p l').Written := by
  refine h.move (p := p) (fun q hq => by simp [RuntimeDir.go, hq]) (fun q g hqp hq => ?_)
    fun k g b hk hb => ?_
  · refine Function.update_of_ne ?_ _ _
    rintro rfl
    have hp := (hc.owner g p).mpr hl
    rw [(hc.owner g q).mpr hq] at hp
    exact hqp (Option.some.inj hp)
  · have : l' = k := by simpa [RuntimeDir.go] using hk
    subst this
    obtain ⟨rfl, rfl⟩ := hwrote g b hb
    exact Function.update_self ..

theorem Written.proceed (h : w.Written) (hc : NamedLock.Coherent w.pidLock)
    (hl : w.launches p = some l) : (w.proceed p l).Written := by
  have hseat := seat_pidLock hl
  cases l with
  | inspectPidFile => exact h.go hl rfl
  | openPidFile =>
    have hw : w.openPidFile.2.Written := by
      unfold openPidFile
      cases hnamed : w.pidFile with
      | none =>
        refine h.move (p := p) (fun _ _ => rfl) (fun q f _ hq => Function.update_of_ne ?_ _ _)
          fun k f b hk hb => ?_
        · exact (hc.uses q f (.inr hq)).ne
        · rw [hl] at hk
          cases hk
          cases hb
      | some f => exact h
    exact hw.go ((congrFun (pidLock_openPidFile w).2.2 p).trans hl) rfl
  | setPidFileMode f =>
    rw [RuntimeDir.proceed]
    split
    · exact h.go hl rfl
    · exact h.leave _
  | lockPidFile f =>
    rw [RuntimeDir.proceed]
    split
    · have hw : { w with lock := Function.update w.lock f (some p) }.Written := h
      exact hw.go hl rfl
    · exact h.leave _
  | truncatePidFile f => exact h.edit hc hseat (by simp [Launch.wrote, eq_comm])
  | writePid f =>
    have hold := h p f [] (by rw [hl]; rfl)
    refine h.edit hc hseat fun g b hb => ?_
    rw [hold]
    cases hb
    exact ⟨rfl, rfl⟩
  | writeNewline f =>
    have hold := h p f (pidDigits p) (by rw [hl]; rfl)
    refine h.edit hc hseat fun g b hb => ?_
    rw [hold]
    cases hb
    exact ⟨rfl, rfl⟩
  | inspectSocket f | probeSocket f =>
    rw [RuntimeDir.proceed]
    exact h.go hl (by split <;> rfl)
  | removeStaleSocket f =>
    rw [RuntimeDir.proceed]
    split
    · have hw : { w with socket := none }.Written := h
      exact hw.go hl rfl
    · exact h.go hl rfl
  | bindSocket f =>
    rw [RuntimeDir.proceed]
    split
    · exact h.go hl rfl
    · have hw : { w with socket := some w.sockets, sockets := w.sockets + 1 }.Written := h
      exact hw.go hl rfl
  | listen f s =>
    have hw : { w with listening := Function.update w.listening s true }.Written := h
    exact hw.go hl rfl
  | setSocketMode f s | validateSocket f s =>
    rw [RuntimeDir.proceed]
    exact h.go hl (by split <;> rfl)
  | setNonblocking f s => exact h.go hl rfl
  | serve f s => exact h.go hl rfl
  | removeSocket f s =>
    have hw : { w with socket := none }.Written := h
    exact hw.go hl rfl
  | closeSocket f s =>
    have hw : { w with listening := Function.update w.listening s false }.Written := h
    exact hw.go hl rfl
  | unlockPidFile f =>
    have hw : { w with lock := Function.update w.lock f none }.Written := h
    refine hw.move (p := p) (fun q hq => by simp [RuntimeDir.proceed, RuntimeDir.go, hq])
      (fun _ _ _ _ => rfl) fun k g b hk hb => ?_
    have : Launch.removePidFile f = k := by simpa [RuntimeDir.proceed, RuntimeDir.go] using hk
    subst this
    cases hb
  | removePidFile f =>
    have hw : { w with pidFile := none }.Written := h
    exact hw.leave _

theorem Written.fail {written : Nat} (h : w.Written) (hc : NamedLock.Coherent w.pidLock)
    (hl : w.launches p = some l) : (w.fail p written l).Written := by
  have hseat := seat_pidLock hl
  cases l with
  | inspectPidFile | openPidFile => exact h.leave _
  | setPidFileMode f | lockPidFile f | truncatePidFile f | writeNewline f | removePidFile f =>
    exact h.leave _
  | writePid f =>
    refine h.move (p := p) (fun q hq => by simp [RuntimeDir.fail, RuntimeDir.leave, write, hq])
      (fun q g hqp hq => Function.update_of_ne ?_ _ _)
      fun k f b hk _ => by simp [RuntimeDir.fail, RuntimeDir.leave] at hk
    rintro rfl
    have hp := (hc.owner g p).mpr hseat
    rw [(hc.owner g q).mpr hq] at hp
    exact hqp (Option.some.inj hp)
  | inspectSocket f | probeSocket f | removeStaleSocket f | bindSocket f => exact h.go hl rfl
  | listen f s | setSocketMode f s | validateSocket f s | setNonblocking f s | serve f s
  | removeSocket f s =>
    exact h.go hl rfl
  | closeSocket f s => exact h.proceed hc hl
  | unlockPidFile f => exact h.proceed hc hl

theorem Written.step {e : LaunchEvent} (h : w.Written) (hc : NamedLock.Coherent w.pidLock)
    (hs : w.step e = some w') : w'.Written := by
  cases e with
  | start p =>
    simp only [RuntimeDir.step] at hs
    split at hs
    · cases hs
      refine h.move (p := p) (fun q hq => by simp [RuntimeDir.go, hq]) (fun _ _ _ _ => rfl)
        fun k f b hk hb => ?_
      have : Launch.inspectPidFile = k := by simpa [RuntimeDir.go] using hk
      subst this
      cases hb
    · cases hs
  | proceed p =>
    obtain ⟨l, hl, rfl⟩ := Option.map_eq_some_iff.mp hs
    exact h.proceed hc hl
  | fail p written =>
    obtain ⟨l, hl, rfl⟩ := Option.map_eq_some_iff.mp hs
    exact h.fail hc hl
  | crash p =>
    obtain ⟨l, hl, rfl⟩ := Option.map_eq_some_iff.mp hs
    exact h.leave _

end content

section quiet

variable {w w' : RuntimeDir} {p q f s : Nat} {l l' : Launch}

/-- The socket path stands for the socket that a process has put there. -/
def Placed (w : RuntimeDir) : Prop := ∀ p s, w.atPath p = some s → w.socket = some s

theorem seat_of_atPath (h : w.atPath p = some s) : ∃ f, w.pidLock.seat p = some (.held f) := by
  obtain ⟨l, hl, hs⟩ := Option.bind_eq_some_iff.mp h
  rw [seat_pidLock hl]
  cases l <;> simp_all [Launch.atPath, Launch.bound, Launch.seat]

/-- One process moves, and changes what is at the path only while it holds the lock. -/
theorem Placed.move (h : w.Placed) (hc : NamedLock.Coherent w.pidLock)
    (hsole : NamedLock.Sole w.pidLock) (hothers : ∀ q, q ≠ p → w'.launches q = w.launches q)
    (hheld : w'.socket = w.socket ∨ ∃ f, w.pidLock.seat p = some (.held f))
    (hself : ∀ s, w'.atPath p = some s → w'.socket = some s) : w'.Placed := by
  intro q s hq
  by_cases hqp : q = p
  · subst hqp
    exact hself s hq
  · rw [atPath, hothers q hqp] at hq
    rcases hheld with hsame | ⟨f, hp⟩
    · rw [hsame]
      exact h q s hq
    · obtain ⟨g, hg⟩ := seat_of_atPath hq
      exact absurd (hc.exclusive hsole hg hp).1 hqp

theorem Placed.go (h : w.Placed) (hl : w.launches p = some l)
    (hpath : l'.atPath = l.atPath ∨ l'.atPath = none) : (w.go p l').Placed := by
  intro q s hq
  rw [atPath_go] at hq
  split at hq
  · refine h p s ?_
    rcases hpath with hpath | hpath
    · simpa [atPath, hl] using hpath ▸ hq
    · rw [hpath] at hq
      cases hq
  · exact h q s hq

theorem Placed.leave (h : w.Placed) (l : Launch) : (w.leave p l).Placed := by
  intro q s hq
  by_cases hqp : q = p
  · subst hqp
    simp [atPath, RuntimeDir.leave] at hq
  · exact h q s (by simpa [atPath, RuntimeDir.leave, hqp] using hq)

theorem Placed.proceed (h : w.Placed) (hc : NamedLock.Coherent w.pidLock)
    (hsole : NamedLock.Sole w.pidLock) (hl : w.launches p = some l) : (w.proceed p l).Placed := by
  have hseat := seat_pidLock hl
  cases l with
  | inspectPidFile => exact h.go hl (.inl rfl)
  | openPidFile =>
    have hw : w.openPidFile.2.Placed := by
      unfold openPidFile
      cases w.pidFile with
      | none => exact h
      | some f => exact h
    exact hw.go ((congrFun (pidLock_openPidFile w).2.2 p).trans hl) (.inl rfl)
  | setPidFileMode f =>
    rw [RuntimeDir.proceed]
    split
    · exact h.go hl (.inl rfl)
    · exact h.leave _
  | lockPidFile f =>
    rw [RuntimeDir.proceed]
    split
    · have hw : { w with lock := Function.update w.lock f (some p) }.Placed := h
      exact hw.go hl (.inl rfl)
    · exact h.leave _
  | truncatePidFile f =>
    have hw : (w.truncate f).Placed := h
    exact hw.go hl (.inl rfl)
  | writePid f =>
    have hw : (w.write f (pidDigits p)).Placed := h
    exact hw.go hl (.inl rfl)
  | writeNewline f =>
    have hw : (w.write f newline).Placed := h
    exact hw.go hl (.inl rfl)
  | inspectSocket f | probeSocket f =>
    rw [RuntimeDir.proceed]
    exact h.go hl (.inl (by split <;> rfl))
  | removeStaleSocket f =>
    rw [RuntimeDir.proceed]
    split
    · refine h.move hc hsole (fun q hq => by simp [RuntimeDir.go, hq]) (.inr ⟨f, hseat⟩)
        fun s hs => ?_
      rw [atPath_go, if_pos rfl] at hs
      cases hs
    · exact h.go hl (.inl rfl)
  | bindSocket f =>
    rw [RuntimeDir.proceed]
    split
    · exact h.go hl (.inl rfl)
    · refine h.move hc hsole (fun q hq => by simp [RuntimeDir.go, hq]) (.inr ⟨f, hseat⟩)
        fun s hs => ?_
      rw [atPath_go, if_pos rfl] at hs
      exact hs
  | listen f s =>
    have hw : { w with listening := Function.update w.listening s true }.Placed := h
    exact hw.go hl (.inl rfl)
  | setSocketMode f s | validateSocket f s =>
    rw [RuntimeDir.proceed]
    refine h.go hl ?_
    split
    · exact .inl rfl
    · exact .inr rfl
  | setNonblocking f s => exact h.go hl (.inl rfl)
  | serve f s => exact h.go hl (.inl rfl)
  | removeSocket f s =>
    refine h.move (p := p) hc hsole (fun q hq => by simp [RuntimeDir.proceed, RuntimeDir.go, hq])
      (.inr ⟨f, hseat⟩) fun t ht => ?_
    rw [RuntimeDir.proceed, atPath_go, if_pos rfl] at ht
    cases ht
  | closeSocket f s =>
    have hw : { w with listening := Function.update w.listening s false }.Placed := h
    exact hw.go hl (.inl rfl)
  | unlockPidFile f =>
    have hw : { w with lock := Function.update w.lock f none }.Placed := h
    exact hw.go hl (.inl rfl)
  | removePidFile f =>
    have hw : { w with pidFile := none }.Placed := h
    exact hw.leave _

theorem Placed.fail {written : Nat} (h : w.Placed) (hc : NamedLock.Coherent w.pidLock)
    (hsole : NamedLock.Sole w.pidLock) (hl : w.launches p = some l) :
    (w.fail p written l).Placed := by
  cases l with
  | inspectPidFile | openPidFile => exact h.leave _
  | setPidFileMode f | lockPidFile f | truncatePidFile f | writeNewline f | removePidFile f =>
    exact h.leave _
  | writePid f =>
    have hw : (w.write f ((pidDigits p).take written)).Placed := h
    exact hw.leave _
  | inspectSocket f | probeSocket f | removeStaleSocket f | bindSocket f => exact h.go hl (.inl rfl)
  | listen f s | setSocketMode f s | validateSocket f s | setNonblocking f s | removeSocket f s =>
    exact h.go hl (.inr rfl)
  | serve f s => exact h.go hl (.inl rfl)
  | closeSocket f s => exact h.proceed hc hsole hl
  | unlockPidFile f => exact h.proceed hc hsole hl

theorem Placed.step {e : LaunchEvent} (h : w.Placed) (hc : NamedLock.Coherent w.pidLock)
    (hsole : NamedLock.Sole w.pidLock) (hs : w.step e = some w') : w'.Placed := by
  cases e with
  | start p =>
    simp only [RuntimeDir.step] at hs
    split at hs
    · cases hs
      refine h.move (p := p) hc hsole (fun q hq => by simp [RuntimeDir.go, hq]) (.inl rfl)
        fun s hs => ?_
      rw [atPath_go, if_pos rfl] at hs
      cases hs
    · cases hs
  | proceed p =>
    obtain ⟨l, hl, rfl⟩ := Option.map_eq_some_iff.mp hs
    exact h.proceed hc hsole hl
  | fail p written =>
    obtain ⟨l, hl, rfl⟩ := Option.map_eq_some_iff.mp hs
    exact h.fail hc hsole hl
  | crash p =>
    obtain ⟨l, hl, rfl⟩ := Option.map_eq_some_iff.mp hs
    exact h.leave _

end quiet

/-- What holds in every state, whoever removes the pid file. -/
structure Kept (w : RuntimeDir) : Prop where
  coherent : NamedLock.Coherent w.pidLock
  socketed : w.Socketed
  written : w.Written

theorem Boot.vacant {w : RuntimeDir} (h : w.Boot) : NamedLock.Vacant w.pidLock :=
  ⟨fun p => by simp [pidLock, NamedLock.State.ofCalls, h.1 p], h.2.1, h.2.2.2.1⟩

theorem Boot.kept {w : RuntimeDir} (h : w.Boot) : w.Kept where
  coherent := h.vacant.coherent
  socketed :=
    ⟨h.2.2.2.2, fun p s hs => by simp [bound, h.1 p] at hs,
      fun p q s hs => by simp [bound, h.1 p] at hs,
      fun s => by simp [h.2.2.1 s, listensOn, h.1]⟩
  written p f b hb := by simp [h.1 p] at hb

theorem Kept.step {w w' : RuntimeDir} {e : LaunchEvent} (h : w.Kept) (hs : w.step e = some w') :
    w'.Kept where
  coherent := (pidLock_step hs).coherent h.coherent
  socketed := h.socketed.step hs
  written := h.written.step h.coherent hs

theorem quiet_invariant {w : RuntimeDir} (h : Run.Along step Quiet Boot w) :
    w.Kept ∧ NamedLock.Sole w.pidLock ∧ w.Placed := by
  refine Run.Along.invariant (I := fun w => w.Kept ∧ NamedLock.Sole w.pidLock ∧ w.Placed)
    (fun w h => ⟨h.kept, h.vacant.sole, fun p s hs => ?_⟩)
    (fun w e w' h hquiet hs => ⟨h.1.step hs,
      (pidLock_step hs).sole h.1.coherent h.2.1 hquiet, h.2.2.step h.1.coherent h.2.1 hs⟩) h
  simp [atPath, h.1 p] at hs

end RuntimeDir

/-- Whatever calls fail and wherever processes die, as long as nobody removes the pid file while
another process has it open: a holder that serves is the only process with the lock, the pid
file is its own with its pid in it, and the only socket that listens is its own, at the path. -/
theorem holder_serves_alone {w : RuntimeDir} {p f s : Nat}
    (h : Run.Along RuntimeDir.step RuntimeDir.Quiet RuntimeDir.Boot w)
    (hp : w.launches p = some (.serve f s)) :
    (∀ q l g, w.launches q = some l → l.seat = some (.held g) → q = p) ∧
      w.pidFile = some f ∧ w.lock f = some p ∧ w.content f = pidDigits p ++ newline ∧
      w.socket = some s ∧ ∀ t, w.listening t = true ↔ t = s := by
  obtain ⟨hkept, hsole, hplaced⟩ := RuntimeDir.quiet_invariant h
  have hseat : w.pidLock.seat p = some (.held f) := RuntimeDir.seat_pidLock hp
  have honly : ∀ q l g, w.launches q = some l → l.seat = some (.held g) → q = p :=
    fun q l g hq hg =>
      (hkept.coherent.exclusive hsole ((RuntimeDir.seat_pidLock hq).trans hg) hseat).1
  refine ⟨honly, hsole p f (.inr hseat), (hkept.coherent.owner f p).mpr hseat,
    hkept.written p f _ (by rw [hp]; rfl), hplaced p s (by rw [RuntimeDir.atPath, hp]; rfl),
    fun t => ?_⟩
  rw [hkept.socketed.listening]
  constructor
  · rintro ⟨q, hq⟩
    obtain ⟨l, hl, ht⟩ := Option.bind_eq_some_iff.mp hq
    have hqp : q = p := by
      obtain ⟨g, hg⟩ : ∃ g, l.seat = some (.held g) := by
        cases l <;> simp_all [Launch.listensOn, Launch.bound, Launch.seat]
      exact honly q l g hl hg
    subst hqp
    rw [hp] at hl
    cases hl
    exact (Option.some.inj ht).symm
  · rintro rfl
    exact ⟨p, by rw [RuntimeDir.listensOn, hp]; rfl⟩

/-- A boot that finds a pid file and a socket of the one before it. -/
def leftBehind : RuntimeDir where
  pidFile := some 0
  pidFiles := 1
  lock := fun _ => none
  content := fun _ => pidDigits 7 ++ newline
  socket := some 0
  sockets := 1
  listening := fun _ => false
  launches := fun _ => none

theorem leftBehind_boot : leftBehind.Boot :=
  ⟨fun _ => rfl, fun _ => rfl, fun _ => rfl, fun f hf => by cases hf; decide,
    fun s hs => by cases hs; decide⟩

theorem RuntimeDir.quiet_proceed {w : RuntimeDir} {p : Nat} {l : Launch}
    (h : Run.Along step Quiet Boot w) (hl : w.launches p = some l)
    (hstay : ∀ f, l ≠ .removePidFile f) : Run.Along step Quiet Boot (w.proceed p l) :=
  h.step (a := .proceed p) (fun f hf => absurd (Option.some.inj (hl.symm.trans hf)) (hstay f))
    (by rw [step, hl]; rfl)

/-- The state in which the process comes to serve, if it alone goes on. -/
def RuntimeDir.goesOn (w : RuntimeDir) (p : Nat) : Nat → RuntimeDir
  | 0 => w
  | n + 1 => (w.launches p).elim w fun l => (w.proceed p l).goesOn p n

theorem RuntimeDir.quiet_goesOn {w : RuntimeDir} {p n : Nat} (h : Run.Along step Quiet Boot w)
    (hstay : ∀ k < n, ∀ l, (w.goesOn p k).launches p = some l → ∀ f, l ≠ .removePidFile f) :
    Run.Along step Quiet Boot (w.goesOn p n) := by
  induction n generalizing w with
  | zero => exact h
  | succ n ih =>
    rw [goesOn]
    cases hl : w.launches p with
    | none => exact h
    | some l =>
      refine ih (quiet_proceed h hl (hstay 0 (Nat.succ_pos n) l hl)) fun k hk l' hl' => ?_
      refine hstay (k + 1) (Nat.succ_lt_succ hk) l' ?_
      rw [goesOn, hl]
      exact hl'

def servedAfterBoot : RuntimeDir := (leftBehind.go 3 .inspectPidFile).goesOn 3 15

theorem servedAfterBoot_quiet :
    Run.Along RuntimeDir.step RuntimeDir.Quiet RuntimeDir.Boot servedAfterBoot := by
  have hstart : Run.Along RuntimeDir.step RuntimeDir.Quiet RuntimeDir.Boot
      (leftBehind.go 3 .inspectPidFile) :=
    Run.Along.step (.start leftBehind_boot) (a := .start 3) trivial rfl
  refine RuntimeDir.quiet_goesOn hstart fun k hk l hl f => ?_
  interval_cases k <;> cases hl <;> exact fun h => by cases h

theorem holder_serves_sample : servedAfterBoot.pidFile = some 0 ∧
    servedAfterBoot.content 0 = pidDigits 3 ++ newline ∧ servedAfterBoot.socket = some 1 := by
  obtain ⟨-, hfile, -, hcontent, hsocket, -⟩ :=
    holder_serves_alone servedAfterBoot_quiet (p := 3) (f := 0) (s := 1) rfl
  exact ⟨hfile, hcontent, hsocket⟩

namespace RuntimeDir

section start

variable {w w' : RuntimeDir} {p f s : Nat} {l : Launch}

/-- The process comes to serve, if it alone goes on and no call fails. -/
inductive Serves (p : Nat) : RuntimeDir → Prop
  | now {w : RuntimeDir} {f s : Nat} (h : w.launches p = some (.serve f s)) : Serves p w
  | next {w : RuntimeDir} {l : Launch} (hl : w.launches p = some l)
      (h : Serves p (w.proceed p l)) : Serves p w

/-- The process ends without having come to serve, if it alone goes on and no call fails. -/
inductive Refused (p : Nat) : RuntimeDir → Prop
  | ended {w : RuntimeDir} (h : w.launches p = none) : Refused p w
  | next {w : RuntimeDir} {l : Launch} (hl : w.launches p = some l)
      (hserve : ∀ f s, l ≠ .serve f s) (h : Refused p (w.proceed p l)) : Refused p w

/-- Nothing listens at the socket path. -/
def Free (w : RuntimeDir) : Prop := ∀ s, w.socket = some s → w.listening s = false

theorem Serves.exec (h : Serves p w) : ∃ n w' f s,
    Run.exec step w (List.replicate n (.proceed p)) = some w' ∧
      w'.launches p = some (.serve f s) := by
  induction h with
  | now h => exact ⟨0, _, _, _, rfl, h⟩
  | next hl _ ih =>
    obtain ⟨n, w', f, s, hn, hw'⟩ := ih
    refine ⟨n + 1, w', f, s, ?_, hw'⟩
    rw [List.replicate_succ, Run.exec, step, hl]
    exact hn

theorem Refused.exec (h : Refused p w) {n : Nat}
    (hn : Run.exec step w (List.replicate n (.proceed p)) = some w') :
    w'.launches p ≠ some (.serve f s) := by
  induction h generalizing n with
  | ended hnone =>
    cases n with
    | zero =>
      cases hn
      rw [hnone]
      exact fun h => by cases h
    | succ n =>
      rw [List.replicate_succ, Run.exec, step, hnone] at hn
      cases hn
  | next hl hserve _ ih =>
    cases n with
    | zero =>
      cases hn
      rw [hl]
      exact fun h => hserve f s (Option.some.inj h)
    | succ n =>
      rw [List.replicate_succ, Run.exec, step, hl] at hn
      exact ih hn

end start

end RuntimeDir

end PersistShell

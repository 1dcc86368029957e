import PersistShell.Holder.Server
import PersistShell.Program.Arbiter
import PersistShell.Program.Run

/-! What holds of the holder between any two steps, stated against the log: the connection
and writer tables are those that the history of attaches gives, sessions and terminals fit
together, and every entry of the log was in order when it was made. -/

namespace PersistShell

/-- What a log entry means for the assignment of writer slots. -/
def Note.event : Note → Option (Arbiter.Event Fd SessionId)
  | .attached fd s mode => some (.attach fd s (mode = .readWrite))
  | .detached fd => some (.detach fd)
  | .disconnected fd => some (.detach fd)
  | .released s => some (.release s)
  | _ => none

/-- Who is attached to what, and who may write, by the history of the log. -/
def table (log : List Note) : Arbiter.Table Fd SessionId :=
  Arbiter.replay (log.filterMap Note.event)

/-- The bytes read from the terminal of `s` since `s` was created. -/
def drained (s : SessionId) : List Note → Bytes
  | [] => []
  | .created s' _ :: earlier => if s' = s then [] else drained s earlier
  | .drained s' chunk :: earlier => drained s earlier ++ (if s' = s then chunk else [])
  | _ :: earlier => drained s earlier

/-- How much was written to a terminal when it was last found empty. -/
def lastDry (fd : Fd) : List Note → Option Nat
  | [] => none
  | .created _ fd' :: earlier => if fd' = fd then none else lastDry fd earlier
  | .dry fd' written :: earlier => if fd' = fd then some written else lastDry fd earlier
  | _ :: earlier => lastDry fd earlier

/-- The chunks of output queued to a connection since it last attached. -/
def outputsTo (fd : Fd) : List Note → List Bytes
  | [] => []
  | .attached fd' _ _ :: earlier => if fd' = fd then [] else outputsTo fd earlier
  | .output fd' _ chunk :: earlier => outputsTo fd earlier ++ (if fd' = fd then [chunk] else [])
  | _ :: earlier => outputsTo fd earlier

/-- The chunks read from the terminal of `s` since `fd` last attached. -/
def drainedFor (fd : Fd) (s : SessionId) : List Note → List Bytes
  | [] => []
  | .attached fd' _ _ :: earlier => if fd' = fd then [] else drainedFor fd s earlier
  | .drained s' chunk :: earlier => drainedFor fd s earlier ++ (if s' = s then [chunk] else [])
  | _ :: earlier => drainedFor fd s earlier

/-- Whether the exit of `s` was recorded since `s` was created. -/
def hasExited (s : SessionId) : List Note → Bool
  | [] => false
  | .created s' _ :: earlier => if s' = s then false else hasExited s earlier
  | .exited s' _ _ :: earlier => if s' = s then true else hasExited s earlier
  | _ :: earlier => hasExited s earlier

/-- No session was removed while a connection was attached to it. -/
def RetiredUnattached (log : List Note) : Prop := ∀ s fds, Note.retired s fds ∈ log → fds = []

/-- What a log entry says about the log before it. -/
def Fact (n : Note) (earlier : List Note) : Prop :=
  match n with
  | .delivered fd s _ => (table earlier).holder s = some fd
  | .exited s fd written =>
    (∃ n, lastDry fd earlier = some n ∧ n ≤ written.length ∧ drained s earlier = written.take n) ∧
      ∀ fd, (table earlier).place fd = some s → outputsTo fd earlier = drainedFor fd s earlier
  | .output fd s _ => (table earlier).place fd = some s
  | .announced s _ => hasExited s earlier = true
  | .retired s fds => ∀ fd, (table earlier).place fd = some s → fd ∈ fds
  | .created s _ => RetiredUnattached earlier → ∀ fd, (table earlier).place fd ≠ some s
  | _ => True

namespace World

def role (w : World) (fd : Fd) : Option ConnectionRole := w.server.connections[fd]?.map (·.role)

def place (w : World) (fd : Fd) : Option SessionId :=
  w.server.connections[fd]?.bind (·.attachedSession)

def controllerFd (w : World) : Option Fd := w.server.controller.map (·.fd)

end World

/-- The part of a session that the invariant is about. -/
structure SessionCore where
  pty : Option PtySession
  ring : RingBuffer
  exitCode : Option Int

def Session.core (session : Session) : SessionCore := ⟨session.pty, session.ring, session.exitCode⟩

def World.core (w : World) (s : SessionId) : Option SessionCore :=
  w.server.runtime.sessions[s]?.map Session.core

/-- Where inside a handler the invariant is stated. -/
structure Phase where
  /-- The connection that is about to be recorded as attached, and to what. -/
  claim : Option (Fd × SessionId) := none
  /-- The connection that was just removed. -/
  leaving : Option Fd := none
  /-- A connection that is still at its handshake. -/
  guest : Option Fd := none
  /-- The terminal that is being read. -/
  draining : Option Fd := none
  /-- The sessions whose exit is recorded and whose terminal is still to be dropped. -/
  reaped : List SessionId := []
  /-- Terminals that are known to have been found empty at some time. -/
  dried : List Fd := []
  /-- The sessions of the terminals there are, where these do not change. -/
  ptys : Option (Fd → Option SessionId) := none
  /-- Sessions whose exit is known to be recorded. -/
  gone : List SessionId := []
  /-- The chunks of a session that are read and not yet queued to a connection. -/
  owed : Fd → SessionId → List Bytes := fun _ _ => []

/-- The connections and writer slots are those of the log. -/
structure Seats (ph : Phase) (w : World) : Prop where
  place : ∀ fd, w.place fd =
    if ph.claim.map Prod.fst = some fd then none else (table w.log).place fd
  claimed : ∀ fd s, ph.claim = some (fd, s) → (table w.log).place fd = some s
  holder : ∀ s : SessionId, w.server.writers[s]? = (table w.log).holder s
  controller : ∀ fd, w.controllerFd = some fd → ph.leaving ≠ some fd → w.role fd = some .control
  guest : ∀ fd, ph.guest = some fd → w.role fd = some .pending
  data : ∀ fd s, (table w.log).place fd = some s → w.role fd = some .data

structure Inv (ph : Phase) (w : World) : Prop extends Seats ph w where
  ptyOf : ∀ (fd : Fd) s, w.server.runtime.ptyToSession[fd]? = some s ↔
    ∃ core pty, w.core s = some core ∧ core.pty = some pty ∧ pty.masterFd = fd
  exit : ∀ s core, w.core s = some core →
    (core.exitCode.isSome ↔ core.pty = none ∨ s ∈ ph.reaped)
  terminal : ∀ (fd : Fd) s, w.server.runtime.ptyToSession[fd]? = some s →
    ∃ t : Terminal, w.terminals[fd]? = some t ∧ t.taken ≤ t.written.length ∧
      t.written.take t.taken = drained s w.log
  dry : ∀ (fd : Fd) s n, w.server.runtime.ptyToSession[fd]? = some s → ph.draining ≠ some fd →
    lastDry fd w.log = some n → ∀ t, w.terminals[fd]? = some t → t.taken = n
  dried : ∀ fd ∈ ph.dried, lastDry fd w.log ≠ none
  ptys : ∀ p, ph.ptys = some p → ∀ fd : Fd, w.server.runtime.ptyToSession[fd]? = p fd
  gone : ∀ s ∈ ph.gone, hasExited s w.log = true
  ring : ∀ s core, w.core s = some core →
    core.ring.readAll = (drained s w.log).rtake core.ring.capacity
  streams : ∀ fd s, (table w.log).place fd = some s →
    outputsTo fd w.log ++ ph.owed fd s = drainedFor fd s w.log
  present : RetiredUnattached w.log → ∀ fd s, (table w.log).place fd = some s → w.core s ≠ none
  facts : Run.Each Fact w.log

/-- A step that leaves the connections and the history of attaches alone. -/
theorem Seats.unmoved {ph : Phase} {w w' : World} (h : Seats ph w)
    (hc : w'.server.connections = w.server.connections)
    (hw : w'.server.writers = w.server.writers)
    (hk : w'.server.controller = w.server.controller) (ht : table w'.log = table w.log) :
    Seats ph w' where
  place fd := by rw [World.place, hc, ht]; exact h.place fd
  claimed fd s hs := by rw [ht]; exact h.claimed fd s hs
  holder s := by rw [hw, ht]; exact h.holder s
  controller fd := by rw [World.controllerFd, hk, World.role, hc]; exact h.controller fd
  guest fd := by rw [World.role, hc]; exact h.guest fd
  data fd s := by rw [ht, World.role, hc]; exact h.data fd s

/-- What the shells may do to a terminal between two steps. -/
inductive Grown : Option Terminal → Option Terminal → Prop
  | none : Grown none none
  | some {t t' : Terminal} (taken : t'.taken = t.taken) (written : t.written <+: t'.written) :
      Grown (some t) (some t')

/-- A change that the invariant does not see. -/
structure Quiet (w w' : World) : Prop where
  role : ∀ fd, w'.role fd = w.role fd
  place : ∀ fd, w'.place fd = w.place fd
  writers : ∀ s : SessionId, w'.server.writers[s]? = w.server.writers[s]?
  controller : w'.controllerFd = w.controllerFd
  pty : ∀ fd : Fd, w'.server.runtime.ptyToSession[fd]? = w.server.runtime.ptyToSession[fd]?
  core : ∀ s, w'.core s = w.core s
  terminals : ∀ fd : Fd, Grown w.terminals[fd]? w'.terminals[fd]?
  log : w'.log = w.log
  script : w'.script.length ≤ w.script.length
  fuel : ∀ fd, Holder.drainFuel w' fd ≤ Holder.drainFuel w fd

theorem Grown.refl (o : Option Terminal) : Grown o o := by
  cases o with
  | none => exact .none
  | some t => exact .some rfl (List.prefix_refl _)

theorem Grown.trans {a b c : Option Terminal} (h : Grown a b) (h' : Grown b c) : Grown a c := by
  cases h with
  | none => exact h'
  | some ht hw =>
    cases h' with
    | some ht' hw' => exact .some (ht'.trans ht) (hw.trans hw')

theorem Quiet.refl (w : World) : Quiet w w :=
  ⟨fun _ => rfl, fun _ => rfl, fun _ => rfl, rfl, fun _ => rfl, fun _ => rfl,
    fun _ => .refl _, rfl, le_rfl, fun _ => le_rfl⟩

theorem Quiet.trans {a b c : World} (h : Quiet a b) (h' : Quiet b c) : Quiet a c where
  role fd := (h'.role fd).trans (h.role fd)
  place fd := (h'.place fd).trans (h.place fd)
  writers s := (h'.writers s).trans (h.writers s)
  controller := h'.controller.trans h.controller
  pty fd := (h'.pty fd).trans (h.pty fd)
  core s := (h'.core s).trans (h.core s)
  terminals fd := (h.terminals fd).trans (h'.terminals fd)
  log := h'.log.trans h.log
  script := h'.script.trans h.script
  fuel fd := (h'.fuel fd).trans (h.fuel fd)

theorem Inv.quiet {ph : Phase} {w w' : World} (h : Inv ph w) (hq : Quiet w w') : Inv ph w' where
  place fd := by rw [hq.place, hq.log]; exact h.place fd
  claimed fd s := by rw [hq.log]; exact h.claimed fd s
  guest fd := by rw [hq.role]; exact h.guest fd
  holder s := by rw [hq.writers, hq.log]; exact h.holder s
  controller fd := by rw [hq.controller, hq.role]; exact h.controller fd
  data fd s := by rw [hq.log, hq.role]; exact h.data fd s
  ptyOf fd s := by rw [hq.pty, hq.core]; exact h.ptyOf fd s
  exit s core := by rw [hq.core]; exact h.exit s core
  terminal fd s hs := by
    rw [hq.pty] at hs
    obtain ⟨t, ht, hle, htake⟩ := h.terminal fd s hs
    have hgrown := hq.terminals fd
    rw [ht] at hgrown
    rw [hq.log]
    generalize hw : w'.terminals[fd]? = o at hgrown
    cases hgrown with
    | some htaken hwritten =>
      refine ⟨_, rfl, ?_, ?_⟩
      · rw [htaken]
        exact hle.trans hwritten.length_le
      · obtain ⟨rest, hrest⟩ := hwritten
        rw [htaken, ← hrest, List.take_append_of_le_length hle, htake]
  dry fd s n hs hd hl t ht := by
    rw [hq.pty] at hs
    rw [hq.log] at hl
    obtain ⟨t₀, ht₀, -⟩ := h.terminal fd s hs
    have hgrown := hq.terminals fd
    rw [ht₀, ht] at hgrown
    cases hgrown with
    | some htaken hwritten => rw [htaken]; exact h.dry fd s n hs hd hl t₀ ht₀
  dried fd hfd := by rw [hq.log]; exact h.dried fd hfd
  ptys p hp fd := by rw [hq.pty]; exact h.ptys p hp fd
  gone s hs := by rw [hq.log]; exact h.gone s hs
  ring s core := by rw [hq.core, hq.log]; exact h.ring s core
  streams fd s := by rw [hq.log]; exact h.streams fd s
  present := by simp only [hq.log, hq.core]; exact h.present
  facts := by rw [hq.log]; exact h.facts

end PersistShell

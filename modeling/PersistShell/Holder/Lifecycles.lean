import PersistShell.Holder.Moved
import PersistShell.Holder.Safety
import PersistShell.Holder.Script
import PersistShell.Ipc.Create

/-! The life of a session: it is created under an id that is not in use, runs until its exit is
recorded, and then stays as it ended until it is retired. Whatever a run of the holder does to
the sessions, each of them lives so. -/

namespace PersistShell

/-- What is fixed when a session is created. -/
structure Birth where
  shellPid : Nat
  createdAtMs : Nat
  logPath : Option String
  deriving DecidableEq, Repr

/-- What is fixed when the exit of a session is recorded. -/
structure Ending where
  exitCode : Int
  cwd : Option String
  environment : Option EnvironmentSnapshot
  deriving DecidableEq

inductive Life where
  | absent
  | running (birth : Birth)
  | exited (birth : Birth) (ending : Ending)
  deriving DecidableEq

inductive Life.Step : Life → Life → Prop
  | create (birth : Birth) : Step .absent (.running birth)
  | exit (birth : Birth) (ending : Ending) : Step (.running birth) (.exited birth ending)
  | retire (birth : Birth) (ending : Ending) : Step (.exited birth ending) .absent

/-- A life that goes on. -/
abbrev Life.Path : Life → Life → Prop := Relation.ReflTransGen Life.Step

namespace Session

def birth (session : Session) : Birth where
  shellPid := session.shellPid
  createdAtMs := session.createdAtMs
  logPath := session.logPath

def ending (session : Session) (exitCode : Int) : Ending where
  exitCode
  cwd := session.finalCwd
  environment := session.finalEnvironment

/-- The life of a session whose exit counts from the moment its terminal is dropped. -/
def stage (session : Session) : Life :=
  if session.pty.isSome then .running session.birth
  else .exited session.birth (session.ending (session.exitCode.getD 0))

end Session

def Runtime.stage (r : Runtime) (s : SessionId) : Life := r.sessions[s]?.elim .absent Session.stage

section changes

variable [SerdeJson]

/-- What one move does to the entry of `s`. -/
inductive Session.Change (s : SessionId) : Option Session → Option Session → Prop
  | same (o : Option Session) : Change s o o
  | moved {session session' : Session} (h : session.Move session') :
      Change s (some session) (some session')
  | degraded (session : Session) :
      Change s (some session) (some { session with logState := .degraded })
  | dropped (session : Session) : Change s (some session) (some { session with pty := none })
  | created {request : CreateSessionRequest} (pty : PtySession) (ring : RingBuffer) (now : Nat)
      (hid : request.sessionId = s) (hvalid : validateCreate request = .ok ()) :
      Change s none (some (request.session pty ring now))
  | retired {session : Session} (hexit : session.exitCode.isSome = true) :
      Change s (some session) none

theorem Runtime.change_alter {r : Runtime} {f : Session → Session} (s' s : SessionId)
    (hf : ∀ session, r.sessions[s]? = some session →
      Session.Change s (some session) (some (f session))) :
    Session.Change s r.sessions[s]? (r.sessions.alter s' (·.map f))[s]? := by
  rw [NatMap.get_alter]
  split
  · rename_i heq
    rw [heq]
    cases hs : r.sessions[s]? with
    | none => exact .same _
    | some session => exact hf session hs
  · exact .same _

theorem Runtime.Move.change {r r' : Runtime} (h : Runtime.Move r r') (s : SessionId) :
    Session.Change s r.sessions[s]? r'.sessions[s]? := by
  cases h with
  | @session s' f hf =>
    by_cases heq : s' = s
    · subst heq
      exact change_alter s' s' fun session hs => .moved (hf session hs)
    · rw [NatMap.get_alter, if_neg heq]
      exact .same _
  | @created request pty ring now hvalid hring hnew =>
    rw [bumpGeneration, NatMap.get_insert]
    split
    · rename_i hid
      rw [← hid, hnew]
      exact .created pty ring now rfl hvalid
    · exact .same _
  | degraded s' =>
    unfold degradeLog
    cases hs : r.sessions[s']? with
    | none => exact .same _
    | some session =>
      have hinsert : Session.Change s r.sessions[s]?
          (r.sessions.insert s' { session with logState := .degraded })[s]? := by
        rw [NatMap.get_insert]
        split
        · rename_i heq
          rw [← heq, hs]
          exact .degraded session
        · exact .same _
      dsimp only
      split
      · exact hinsert
      · exact hinsert
  | @retired s' session hsession hexit =>
    rw [bumpGeneration, NatMap.get_erase]
    split
    · rename_i heq
      rw [← heq, hsession]
      exact .retired hexit
    · exact .same _
  | dropped s' fd => exact change_alter s' s fun session _ => .dropped session

theorem Session.stage_move {session session' : Session} (h : session.Move session') :
    session'.stage = session.stage := by
  cases h with
  | exited code now hpty hstate =>
    unfold Session.stage
    rw [hpty]
    cases ‹Option ShellState› with
    | none => rfl
    | some found => rfl
  | _ => rfl

/-- A move takes a session along its life. -/
theorem Session.Change.path {s : SessionId} {o o' : Option Session} (h : Change s o o') :
    Life.Path (o.elim .absent Session.stage) (o'.elim .absent Session.stage) := by
  cases h with
  | same => exact .refl
  | moved h =>
    rw [Option.elim_some, Option.elim_some, stage_move h]
  | degraded => exact .refl
  | dropped session =>
    rw [Option.elim_some, Option.elim_some]
    cases hpty : session.pty with
    | none =>
      have hsame : { session with pty := none } = session := by rw [← hpty]
      rw [hsame]
    | some pty =>
      have hstage : session.stage = .running session.birth := by
        unfold Session.stage
        rw [hpty]
        rfl
      rw [hstage]
      exact .single (.exit _ _)
  | created pty ring now hid hvalid => exact .single (.create _)
  | @retired session hexit =>
    have hend : Life.Path (.exited session.birth (session.ending (session.exitCode.getD 0)))
        .absent := .single (.retire _ _)
    rw [Option.elim_some, Option.elim_none]
    unfold Session.stage
    split
    · exact .head (.exit _ _) hend
    · exact hend

/-- What every move keeps holds in every state that the holder reaches from one where it holds. -/
theorem HolderRun.of_moves {r r' : HolderRun} {J : World → Prop}
    (h : Run.Reachable HolderRun.step (· = r) r') (hstart : J r.world)
    (hscript : ∀ w script, J w → J { w with script, failures := [] })
    (hmove : ∀ w w', Move w w' → J w → J w') : J r'.world := by
  refine h.invariant (I := fun r => J r.world) (fun _ heq => heq ▸ hstart)
    fun s script s' hs _ hstep => ?_
  have hmoves : ∀ w', Moved { s.world with script, failures := [] } w' → J w' := by
    intro w' hmoved
    induction hmoved with
    | refl => exact hscript s.world script hs
    | tail _ hlast ih => exact hmove _ _ hlast ih
  exact hmoves s'.world (moved_step hstep)

/-- Only the moves of the runtime change it. -/
theorem Move.runtime_cases {w w' : World} (h : Move w w') :
    w'.server.runtime = w.server.runtime ∨
      Runtime.Move w.server.runtime w'.server.runtime := by
  cases h with
  | called h => exact .inl (congrArg HolderServer.runtime h.server)
  | runtime h => exact .inr h
  | disconnected fd =>
    exact .inl (Holder.leaves_disconnect (J := fun w' => w'.server.runtime = w.server.runtime)
      (fun _ _ h hw => h.runtime.trans hw) w rfl)
  | _ => exact .inl rfl

/-- The sessions of the holder have ids. -/
theorem HolderReachable.positive {config : HolderConfig} {r : HolderRun}
    (h : HolderReachable config r) (s : SessionId)
    (hs : r.world.server.runtime.sessions[s]? ≠ none) : 0 < s := by
  have hpositive : ∀ s : SessionId, r.world.server.runtime.sessions[s]? ≠ none → 0 < s := by
    refine HolderRun.of_moves h
      (J := fun w => ∀ s : SessionId, w.server.runtime.sessions[s]? ≠ none → 0 < s)
      (fun s hs => absurd ?_ hs) (fun _ _ hw => hw) fun w w' hmove hw s hs => ?_
    · simp [HolderConfig.start, HolderConfig.server]
    · rcases hmove.runtime_cases with heq | hmove
      · exact hw s (heq ▸ hs)
      · have hold := hw s
        have hchange := hmove.change s
        revert hs hold hchange
        generalize w.server.runtime.sessions[s]? = o
        generalize w'.server.runtime.sessions[s]? = o'
        rintro hs hold (_ | _ | _ | _ | ⟨_, _, _, hid, hvalid⟩ | _)
        · exact hold hs
        · exact hold (Option.some_ne_none _)
        · exact hold (Option.some_ne_none _)
        · exact hold (Option.some_ne_none _)
        · exact hid ▸ Nat.pos_of_ne_zero (validateCreate_eq_ok.mp hvalid).2.sessionId
        · exact absurd rfl hs
  exact hpositive s hs

end changes

end PersistShell

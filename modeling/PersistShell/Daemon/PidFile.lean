import PersistShell.Cli.CommitInput
import PersistShell.Core.ConfigValues
import PersistShell.Program.NamedLock

/-! The pid file of the daemon. A start opens it with `O_TRUNC` and only then tries its lock: a
start that is refused has emptied the file of the daemon that runs. -/

namespace PersistShell

/-- The system calls of `PidFile::create` and of its drop, with the file that is open. -/
inductive PidFileCall where
  | openPidFile
  | lockPidFile (f : Nat)
  | truncatePidFile (f : Nat)
  | writePid (f : Nat)
  | running (f : Nat)
  | unlockPidFile (f : Nat)
  | removePidFile (f : Nat)
  deriving DecidableEq, Repr

structure DaemonDir where
  pidFile : Option Nat
  pidFiles : Nat
  lock : Nat → Option Nat
  content : Nat → Bytes
  calls : Nat → Option PidFileCall

inductive PidFileEvent where
  | start (p : Nat)
  | proceed (p : Nat)
  /-- The call fails; a write may have written some bytes by then. -/
  | fail (p : Nat) (written : Nat)
  | crash (p : Nat)
  deriving DecidableEq, Repr

def PidFileEvent.process : PidFileEvent → Nat
  | start p | proceed p | fail p _ | crash p => p

def PidFileCall.seat : PidFileCall → Option NamedLock.Seat
  | openPidFile => none
  | lockPidFile f => some (.opened f)
  | truncatePidFile f | writePid f | running f | unlockPidFile f => some (.held f)
  | removePidFile f => some (.released f)

def pidText (p : Nat) : Bytes := utf8 (toString p ++ "\n")

namespace DaemonDir

def go (w : DaemonDir) (p : Nat) (c : PidFileCall) : DaemonDir :=
  { w with calls := Function.update w.calls p (some c) }

def leave (w : DaemonDir) (p : Nat) (c : PidFileCall) : DaemonDir :=
  { w with
    lock := fun f => if c.seat = some (.held f) then none else w.lock f
    calls := Function.update w.calls p none }

/-- `open` with `O_CREAT` and `O_TRUNC`. -/
def openPidFile (w : DaemonDir) : Nat × DaemonDir :=
  match w.pidFile with
  | some f => (f, { w with content := Function.update w.content f [] })
  | none =>
    (w.pidFiles, { w with
      pidFile := some w.pidFiles
      pidFiles := w.pidFiles + 1
      content := Function.update w.content w.pidFiles [] })

def proceed (w : DaemonDir) (p : Nat) : PidFileCall → DaemonDir
  | .openPidFile => w.openPidFile.2.go p (.lockPidFile w.openPidFile.1)
  | .lockPidFile f =>
    if w.lock f = none then
      { w with lock := Function.update w.lock f (some p) }.go p (.truncatePidFile f)
    else w.leave p (.lockPidFile f)
  | .truncatePidFile f =>
    { w with content := Function.update w.content f [] }.go p (.writePid f)
  -- one write at the start of the file
  | .writePid f => { w with content := Function.update w.content f (pidText p) }.go p (.running f)
  | .running f => w.go p (.unlockPidFile f)
  | .unlockPidFile f =>
    { w with lock := Function.update w.lock f none }.go p (.removePidFile f)
  | .removePidFile f => { w with pidFile := none }.leave p (.removePidFile f)

/-- The call of a process fails; a daemon that fails while it runs drops its pid file. -/
def fail (w : DaemonDir) (p : Nat) (written : Nat) : PidFileCall → DaemonDir
  | .writePid f =>
    { w with content := Function.update w.content f ((pidText p).take written) }.leave p (.writePid f)
  | .running f => w.proceed p (.running f)
  | .unlockPidFile f => w.proceed p (.unlockPidFile f)
  | c => w.leave p c

def step (w : DaemonDir) : PidFileEvent → Option DaemonDir
  | .start p => if w.calls p = none then some (w.go p .openPidFile) else none
  | .proceed p => (w.calls p).map (w.proceed p)
  | .fail p written => (w.calls p).map (w.fail p written)
  | .crash p => (w.calls p).map (w.leave p)

def Boot (w : DaemonDir) : Prop :=
  (∀ p, w.calls p = none) ∧ (∀ f, w.lock f = none) ∧ ∀ f, w.pidFile = some f → f < w.pidFiles

def pidLock (w : DaemonDir) : NamedLock.State Nat :=
  .ofCalls w.pidFile w.pidFiles w.lock w.calls PidFileCall.seat

/-- The pid file is removed only when no other process has it open. -/
def Quiet (w : DaemonDir) : PidFileEvent → Prop
  | .proceed p => ∀ f, w.calls p = some (.removePidFile f) →
      ∀ q g, q ≠ p → w.pidFile = some g → ¬ w.pidLock.Uses q g
  | _ => True

/-- A start comes to `open`. -/
def Opens (w : DaemonDir) (e : PidFileEvent) : Prop :=
  e = .proceed e.process ∧ w.calls e.process = some .openPidFile

/-- `read_pid`. -/
def readPid (w : DaemonDir) : Option Nat := do
  let content ← fromUtf8 (w.content (← w.pidFile))
  parseU32 (trim content)

/-- `is_running`. -/
def isRunning (w : DaemonDir) : Bool := w.readPid.any fun pid => (w.calls pid).isSome

section refinement

variable {w w' : DaemonDir} {p : Nat} {c : PidFileCall}

theorem seat_pidLock (h : w.calls p = some c) : w.pidLock.seat p = c.seat :=
  NamedLock.seat_ofCalls h

theorem pidLock_go (w : DaemonDir) (p : Nat) (c : PidFileCall) :
    (w.go p c).pidLock = w.pidLock.sit p c.seat :=
  NamedLock.ofCalls_update (some c)

theorem pidLock_go_self {c' : PidFileCall} (h : w.calls p = some c) (hseat : c'.seat = c.seat) :
    (w.go p c').pidLock = w.pidLock := by
  rw [pidLock_go, hseat]
  exact NamedLock.sit_self (seat_pidLock h)

theorem pidLock_openPidFile (w : DaemonDir) :
    w.openPidFile.1 = w.pidLock.enter.1 ∧ w.openPidFile.2.pidLock = w.pidLock.enter.2 ∧
      w.openPidFile.2.calls = w.calls := by
  unfold openPidFile NamedLock.State.enter
  cases h : w.pidFile with
  | none => simp [pidLock, NamedLock.State.ofCalls, h]
  | some f => simp [pidLock, NamedLock.State.ofCalls, h]

theorem moves_proceed (h : w.calls p = some c) :
    NamedLock.Moves w.pidLock (w.Quiet (.proceed p)) (w.proceed p c).pidLock := by
  have hseat := seat_pidLock h
  cases c with
  | openPidFile =>
    obtain ⟨hfile, hlock, -⟩ := pidLock_openPidFile w
    refine .act (.enter p) ?_ fun _ => trivial
    simp only [NamedLock.step, hseat]
    rw [proceed, pidLock_go, hfile, hlock]
    rfl
  | lockPidFile f =>
    rw [proceed]
    split
    · rename_i hfree
      refine .act (.lock p) ?_ fun _ => trivial
      simp only [NamedLock.step, hseat, PidFileCall.seat]
      rw [if_pos (show w.pidLock.owner f = none from hfree), pidLock_go]
      rfl
    · exact NamedLock.moves_leave h
  | truncatePidFile f =>
    exact .same (pidLock_go_self (w := { w with content := Function.update w.content f [] }) h rfl)
  | writePid f =>
    exact .same (pidLock_go_self
      (w := { w with content := Function.update w.content f (pidText p) }) h rfl)
  | running f => exact .same (pidLock_go_self h rfl)
  | unlockPidFile f =>
    refine .act (.release p) ?_ fun _ => trivial
    simp only [NamedLock.step, hseat, PidFileCall.seat]
    rw [proceed, pidLock_go]
    rfl
  | removePidFile f => exact NamedLock.moves_remove h rfl fun hquiet => hquiet f h

theorem moves_fail {written : Nat} (h : w.calls p = some c) :
    NamedLock.Moves w.pidLock True (w.fail p written c).pidLock := by
  cases c with
  | openPidFile => exact NamedLock.moves_leave h
  | lockPidFile f | truncatePidFile f | writePid f | removePidFile f =>
    exact NamedLock.moves_leave h
  | running f =>
    exact (moves_proceed h).mono fun _ f hf => by
      rw [h] at hf
      cases hf
  | unlockPidFile f =>
    exact (moves_proceed h).mono fun _ f hf => by
      rw [h] at hf
      cases hf

theorem pidLock_step {e : PidFileEvent} (h : w.step e = some w') :
    NamedLock.Moves w.pidLock (w.Quiet e) w'.pidLock := by
  cases e with
  | start p =>
    simp only [step] at h
    split at h
    · rename_i hnone
      cases h
      refine .same ?_
      rw [pidLock_go]
      exact NamedLock.sit_self (by
        simp [pidLock, NamedLock.State.ofCalls, hnone, PidFileCall.seat])
    · cases h
  | proceed p =>
    obtain ⟨c, hc, rfl⟩ := Option.map_eq_some_iff.mp h
    exact moves_proceed hc
  | fail p written =>
    obtain ⟨c, hc, rfl⟩ := Option.map_eq_some_iff.mp h
    exact (moves_fail hc).mono fun _ => trivial
  | crash p =>
    obtain ⟨c, hc, rfl⟩ := Option.map_eq_some_iff.mp h
    exact NamedLock.moves_leave hc

theorem quiet_invariant (h : Run.Along step Quiet Boot w) :
    NamedLock.Coherent w.pidLock ∧ NamedLock.Sole w.pidLock := by
  refine Run.Along.invariant
    (I := fun w => NamedLock.Coherent w.pidLock ∧ NamedLock.Sole w.pidLock)
    (fun w h => ?_) (fun w e w' h hquiet hs =>
      ⟨(pidLock_step hs).coherent h.1, (pidLock_step hs).sole h.1 h.2 hquiet⟩) h
  have hvacant : NamedLock.Vacant w.pidLock :=
    ⟨fun p => by simp [pidLock, NamedLock.State.ofCalls, h.1 p], h.2.1, h.2.2⟩
  exact ⟨hvacant.coherent, hvacant.sole⟩

end refinement

section running

variable {w w' : DaemonDir} {p f : Nat}

theorem calls_proceed_of_ne (w : DaemonDir) {q : Nat} (c : PidFileCall) (hq : p ≠ q) :
    (w.proceed q c).calls p = w.calls p := by
  cases c with
  | openPidFile =>
    exact (Function.update_of_ne hq _ _).trans (congrFun (pidLock_openPidFile w).2.2 p)
  | lockPidFile g =>
    rw [proceed]
    split <;> exact Function.update_of_ne hq _ _
  | truncatePidFile g | writePid g | running g | unlockPidFile g | removePidFile g =>
    exact Function.update_of_ne hq _ _

theorem calls_step_of_ne {e : PidFileEvent} (h : w.step e = some w') (hp : p ≠ e.process) :
    w'.calls p = w.calls p := by
  cases e with
  | start q =>
    simp only [step] at h
    split at h
    · cases h
      exact Function.update_of_ne hp _ _
    · cases h
  | proceed q =>
    obtain ⟨c, -, rfl⟩ := Option.map_eq_some_iff.mp h
    exact calls_proceed_of_ne w c hp
  | fail q written =>
    have hp : p ≠ q := hp
    obtain ⟨c, -, rfl⟩ := Option.map_eq_some_iff.mp h
    cases c with
    | running g => exact calls_proceed_of_ne w (.running g) hp
    | unlockPidFile g => exact calls_proceed_of_ne w (.unlockPidFile g) hp
    | openPidFile => exact Function.update_of_ne hp _ _
    | lockPidFile g | truncatePidFile g | writePid g | removePidFile g =>
      exact Function.update_of_ne hp _ _
  | crash q =>
    obtain ⟨c, -, rfl⟩ := Option.map_eq_some_iff.mp h
    exact Function.update_of_ne hp _ _

/-- A process that stands past `open` leaves the file that another one holds. -/
theorem content_proceed {q : Nat} {c : PidFileCall} (hc : NamedLock.Coherent w.pidLock)
    (hheld : w.pidLock.seat p = some (.held f)) (hq : p ≠ q) (hcall : w.calls q = some c)
    (hpast : c ≠ .openPidFile) : (w.proceed q c).content f = w.content f := by
  have hother : ∀ g, c.seat = some (.held g) → f ≠ g := by
    rintro g hg rfl
    have hp := (hc.owner f p).mpr hheld
    rw [(hc.owner f q).mpr ((seat_pidLock hcall).trans hg)] at hp
    exact hq (Option.some.inj hp).symm
  cases c with
  | openPidFile => exact absurd rfl hpast
  | lockPidFile g =>
    rw [proceed]
    split <;> rfl
  | truncatePidFile g | writePid g => exact Function.update_of_ne (hother g rfl) _ _
  | running g | unlockPidFile g | removePidFile g => rfl

/-- While a process holds the lock, no other one changes its file but by opening it. -/
theorem content_step {e : PidFileEvent} (hc : NamedLock.Coherent w.pidLock)
    (hheld : w.pidLock.seat p = some (.held f)) (hnamed : w.pidFile = some f)
    (h : w.step e = some w') (hp : p ≠ e.process) :
    (w.Opens e → w'.content f = []) ∧ (¬ w.Opens e → w'.content f = w.content f) := by
  cases e with
  | start q =>
    refine ⟨fun ho => (by cases ho.1), fun _ => ?_⟩
    simp only [step] at h
    split at h
    · cases h
      rfl
    · cases h
  | proceed q =>
    obtain ⟨c, hcall, rfl⟩ := Option.map_eq_some_iff.mp h
    refine ⟨fun ho => ?_, fun ho => content_proceed hc hheld hp hcall ?_⟩
    · have : c = .openPidFile := Option.some.inj (hcall.symm.trans ho.2)
      subst this
      show w.openPidFile.2.content f = []
      simp [openPidFile, hnamed]
    · rintro rfl
      exact ho ⟨rfl, hcall⟩
  | fail q written =>
    refine ⟨fun ho => (by cases ho.1), fun _ => ?_⟩
    obtain ⟨c, hcall, rfl⟩ := Option.map_eq_some_iff.mp h
    cases c with
    | openPidFile => rfl
    | lockPidFile g | truncatePidFile g | removePidFile g => rfl
    | writePid g =>
      refine Function.update_of_ne ?_ _ _
      rintro rfl
      have hown := (hc.owner f p).mpr hheld
      rw [(hc.owner f q).mpr (seat_pidLock hcall)] at hown
      exact hp (Option.some.inj hown).symm
    | running g | unlockPidFile g => exact content_proceed hc hheld hp hcall (by simp)
  | crash q =>
    refine ⟨fun ho => (by cases ho.1), fun _ => ?_⟩
    obtain ⟨c, -, rfl⟩ := Option.map_eq_some_iff.mp h
    rfl

theorem readPid_of_content {b : Bytes} (hnamed : w.pidFile = some f) (hb : w.content f = b) :
    w.readPid = (fromUtf8 b).bind fun content => parseU32 (trim content) := by
  subst hb
  simp [readPid, hnamed]

theorem trim_pidText (p : Nat) : trim (toString p ++ "\n") = toString p := by
  have hlist : (toString p).toList = Nat.toDigits 10 p := by
    rw [Nat.toString_eq_ofList_toDigits, String.toList_ofList]
  have hdigit : ∀ c ∈ Nat.toDigits 10 p, isWhitespace c = false := fun c hc =>
    not_isWhitespace_of_isDigit (Nat.isDigit_of_mem_toDigits (by decide) (by decide) hc)
  have hstay : ∀ l : List Char, l ≠ [] → (∀ c ∈ l, isWhitespace c = false) →
      ∀ r, (l ++ r).dropWhile isWhitespace = l ++ r := by
    intro l hl hd r
    obtain ⟨c, l, rfl⟩ := List.exists_cons_of_ne_nil hl
    rw [List.cons_append, List.dropWhile_cons_of_neg (by rw [hd c List.mem_cons_self]; exact Bool.false_ne_true)]
  have hreverse := hstay (Nat.toDigits 10 p).reverse (by simp [Nat.toDigits_ne_nil])
    (fun c hc => hdigit c (List.mem_reverse.mp hc)) []
  unfold trim
  dsimp only
  rw [String.toList_append, hlist, hstay _ Nat.toDigits_ne_nil hdigit, List.reverse_append,
    show ("\n" : String).toList.reverse = ['\n'] from rfl, List.cons_append, List.nil_append,
    List.dropWhile_cons_of_pos (by decide)]
  rw [List.append_nil] at hreverse
  rw [hreverse, List.reverse_reverse, ← hlist, String.ofList_toList]

theorem parse_pidText {p : Nat} (hp : p < 2 ^ 32) :
    (fromUtf8 (pidText p)).bind (fun content => parseU32 (trim content)) = some p := by
  rw [pidText, fromUtf8_utf8, Option.bind_some, trim_pidText, parseU32, parseUsize_toString (by omega)]
  simpa using hp

theorem parse_empty : (fromUtf8 []).bind (fun content => parseU32 (trim content)) = none := by
  decide +kernel

/-- Once it is emptied the file stays empty, as long as its holder does not write. -/
theorem content_run {es : List PidFileEvent} (hc : NamedLock.Coherent w.pidLock)
    (hsole : NamedLock.Sole w.pidLock) (hheld : w.pidLock.seat p = some (.held f))
    (hquiet : Run.Throughout step (fun w e => w.Quiet e ∧ p ≠ e.process) w es)
    (hrun : Run.exec step w es = some w') :
    w'.pidFile = some f ∧ w'.calls p = w.calls p ∧
      (Run.Throughout step (fun w e => ¬ w.Opens e) w es → w'.content f = w.content f) ∧
      (¬ Run.Throughout step (fun w e => ¬ w.Opens e) w es ∨ w.content f = [] → w'.content f = []) := by
  induction es generalizing w with
  | nil =>
    cases hrun
    exact ⟨hsole p f (.inr hheld), rfl, fun _ => rfl, fun h => h.resolve_left (not_not.mpr trivial)⟩
  | cons e es ih =>
    obtain ⟨v, hv, hrest⟩ := Option.bind_eq_some_iff.mp hrun
    obtain ⟨⟨hq, hp⟩, hthrough⟩ := hquiet
    have hcalls := calls_step_of_ne hv hp
    have hseat : v.pidLock.seat p = some (.held f) := by
      rw [← hheld]
      show (v.calls p).bind _ = (w.calls p).bind _
      rw [hcalls]
    obtain ⟨hopens, hstays⟩ := content_step hc hheld (hsole p f (.inr hheld)) hv hp
    obtain ⟨hnamed, hcalls', hsame, hempty⟩ := ih ((pidLock_step hv).coherent hc)
      ((pidLock_step hv).sole hc hsole hq) hseat (hthrough v hv) hrest
    have hstep : Run.Throughout step (fun w e => ¬ w.Opens e) w (e :: es) ↔
        ¬ w.Opens e ∧ Run.Throughout step (fun w e => ¬ w.Opens e) v es := by
      refine and_congr_right fun _ => ⟨fun h => h v hv, fun h s' hs' => ?_⟩
      rw [hv] at hs'
      cases hs'
      exact h
    refine ⟨hnamed, hcalls'.trans hcalls, fun h => ?_, fun h => ?_⟩
    · obtain ⟨hnot, hlater⟩ := hstep.mp h
      exact (hsame hlater).trans (hstays hnot)
    · by_cases ho : w.Opens e
      · exact hempty (.inr (hopens ho))
      · refine hempty (h.imp (fun hnot hlater => hnot (hstep.mpr ⟨ho, hlater⟩)) fun hnil => ?_)
        exact (hstays ho).trans hnil

end running

/-- From where a daemon runs with its pid in the pid file: whatever other processes do, as long
as nobody removes the pid file while another process has it open, the pid is read back until
another start opens the file, and from then on no pid is read, so that the daemon is taken not
to run, although it still does. -/
theorem running_until_opened {w w' : DaemonDir} {p f : Nat} {es : List PidFileEvent}
    (h : Run.Along step Quiet Boot w) (hp : p < 2 ^ 32) (hrunning : w.calls p = some (.running f))
    (hcontent : w.content f = pidText p)
    (hquiet : Run.Throughout step (fun w e => w.Quiet e ∧ p ≠ e.process) w es)
    (hrun : Run.exec step w es = some w') :
    w'.calls p = some (.running f) ∧
      (Run.Throughout step (fun w e => ¬ w.Opens e) w es → w'.readPid = some p) ∧
      (¬ Run.Throughout step (fun w e => ¬ w.Opens e) w es → w'.readPid = none) ∧
      (w'.isRunning = true ↔ Run.Throughout step (fun w e => ¬ w.Opens e) w es) := by
  obtain ⟨hc, hsole⟩ := quiet_invariant h
  obtain ⟨hnamed, hcalls, hsame, hempty⟩ :=
    content_run hc hsole (seat_pidLock hrunning) hquiet hrun
  have hread : Run.Throughout step (fun w e => ¬ w.Opens e) w es → w'.readPid = some p :=
    fun hnot => (readPid_of_content hnamed ((hsame hnot).trans hcontent)).trans (parse_pidText hp)
  have hnone : ¬ Run.Throughout step (fun w e => ¬ w.Opens e) w es → w'.readPid = none :=
    fun hnot => (readPid_of_content hnamed (hempty (.inl hnot))).trans parse_empty
  refine ⟨hcalls.trans hrunning, hread, hnone, ?_⟩
  by_cases hthrough : Run.Throughout step (fun w e => ¬ w.Opens e) w es
  · simp [isRunning, hread hthrough, hcalls, hrunning, hthrough]
  · simp [isRunning, hnone hthrough, hthrough]

/-- Daemon 3 runs, in a directory that no other has used. -/
def firstDaemon : DaemonDir where
  pidFile := some 0
  pidFiles := 1
  lock := Function.update (fun _ => none) 0 (some 3)
  content := Function.update (fun _ => []) 0 (pidText 3)
  calls := Function.update (fun _ => none) 3 (some (.running 0))

def unused : DaemonDir := ⟨none, 0, fun _ => none, fun _ => [], fun _ => none⟩

theorem firstDaemon_quiet : Run.Along step Quiet Boot firstDaemon := by
  have hboot : Boot unused := ⟨fun _ => rfl, fun _ => rfl, fun f hf => by cases hf⟩
  have hquiet : ∀ {w : DaemonDir} {c}, Run.Along step Quiet Boot w → w.calls 3 = some c →
      (∀ f, c ≠ .removePidFile f) → Run.Along step Quiet Boot (w.proceed 3 c) :=
    fun h hc hstay => h.step (a := .proceed 3)
      (fun f hf => absurd (Option.some.inj (hc.symm.trans hf)) (hstay f)) (by rw [step, hc]; rfl)
  have hstart : Run.Along step Quiet Boot (unused.go 3 .openPidFile) :=
    Run.Along.step (.start hboot) (a := .start 3) trivial rfl
  have hrun := hquiet (hquiet (hquiet (hquiet hstart rfl (by simp)) rfl (by simp [openPidFile]))
    rfl (by simp)) rfl (by simp)
  convert hrun using 1
  simp [firstDaemon, proceed, go, openPidFile, unused]

theorem running_until_opened_sample : ∃ w', Run.exec step firstDaemon
    [.start 4, .proceed 4] = some w' ∧ w'.calls 3 = some (.running 0) ∧ w'.readPid = none := by
  refine ⟨_, rfl, ?_⟩
  have hresult := running_until_opened (p := 3) (f := 0) firstDaemon_quiet (by decide) rfl rfl
    (show Run.Throughout step _ firstDaemon [.start 4, .proceed 4] from
      ⟨⟨trivial, by decide⟩, fun v hv => ?_⟩) rfl
  · refine ⟨hresult.1, hresult.2.2.1 fun h => ?_⟩
    exact (h.2 _ rfl).1 ⟨rfl, rfl⟩
  · cases hv
    exact ⟨⟨fun f hf => (by cases hf), by decide⟩, fun _ _ => trivial⟩

end DaemonDir

end PersistShell

import PersistShell.Ipc.CreateCodecs
import PersistShell.Program.Environ

/-! The environment the shell of a created session starts with, and that the two forms of Create
lead to the same values of every name that is not unset. -/

namespace PersistShell
open Environ

/-- A string without a zero byte. -/
def cstring (value message : String) : Except PersistError Bytes :=
  if (utf8 value).contains 0 then .error (.invalidArgument message) else .ok (utf8 value)

def environmentPairsToCstring (environment : List (String × String)) :
    Except PersistError (List (Bytes × Bytes)) :=
  environment.mapM fun entry => do
    let name ← cstring entry.1 "environment variable name contains null bytes"
    let value ← cstring entry.2 "environment variable value contains null bytes"
    return (name, value)

structure ChildContext where
  shell : Bytes
  arguments : List Bytes
  histfile : Option Bytes
  cwd : Option Bytes
  savedSet : List (Bytes × Bytes)
  savedUnset : List Bytes
  connection : List (Bytes × Bytes)
  private_ : List (Bytes × Bytes)
  deriving DecidableEq

/-- What `open_session_with_launch_environment` hands to the child. -/
def launchContext (shell : String) (histfile cwd : Option String)
    (environment : ShellLaunchEnvironment) (arguments : List String) :
    Except PersistError ChildContext := do
  let shell ← cstring shell "shell path contains null bytes"
  let arguments ← arguments.mapM (cstring · "shell argument contains null bytes")
  let histfile ← histfile.mapM (cstring · "histfile path contains null bytes")
  let cwd ← cwd.mapM (cstring · "cwd path contains null bytes")
  let savedSet ← environmentPairsToCstring environment.savedSet
  let savedUnset ← environment.savedUnset.mapM
    (cstring · "environment variable name contains null bytes")
  let connection ← environmentPairsToCstring environment.connection
  let private_ ← environmentPairsToCstring environment.private_
  return { shell, arguments, histfile, cwd, savedSet, savedUnset, connection, private_ }

/-- The environment `child_setup` makes of the one it inherits. -/
def childEnvironment (context : ChildContext) (inherited : Entries Bytes Bytes) :
    Entries Bytes Bytes :=
  let env := setAll inherited context.savedSet
  let env := unsetAll env context.savedUnset
  let env := setAll env context.connection
  let env := setAll env context.private_
  match context.histfile with
  | some histfile => setenv env (utf8 "HISTFILE") histfile
  | none => env

namespace CreateSessionRequest

/-- The launch of a request by the holder. -/
def launch (request : CreateSessionRequest) : Except PersistError ChildContext :=
  launchContext request.shell request.historyFile request.cwd request.launchEnvironment
    request.arguments

end CreateSessionRequest

section launches

def bytesOf (entry : String × String) : Bytes × Bytes := (utf8 entry.1, utf8 entry.2)

theorem cstring_ok {value : String} (message : String) (h : (utf8 value).contains 0 = false) :
    cstring value message = .ok (utf8 value) := if_neg (ne_true_of_eq_false h)

theorem mapM_ok {ε α β : Type} {f : α → Except ε β} {g : α → β} {l : List α}
    (h : ∀ a ∈ l, f a = .ok (g a)) : l.mapM f = .ok (l.map g) := by
  induction l with
  | nil => rfl
  | cons a l ih =>
    obtain ⟨ha, hl⟩ := List.forall_mem_cons.mp h
    rw [List.mapM_cons, ha]
    exact bind_eq_ok.mpr ⟨_, rfl, bind_eq_ok.mpr ⟨_, ih hl, rfl⟩⟩

theorem optionMapM_ok {ε α β : Type} {f : α → Except ε β} {g : α → β} {o : Option α}
    (h : ∀ a ∈ o, f a = .ok (g a)) : o.mapM f = .ok (o.map g) := by
  cases o with
  | none => rfl
  | some a =>
    have ha := h a rfl
    simp only [Option.mapM_some, ha]
    rfl

theorem zero_notMem_validName {name : String} (h : validName name = true) :
    (utf8 name).contains 0 = false := by
  simp only [validName, Bool.and_eq_true, List.all_eq_true] at h
  rw [← Bool.not_eq_true, List.contains_iff_mem]
  exact fun hzero => absurd (h.2 0 hzero) (by decide)

theorem PathOk.cstring {path : String} (h : PathOk path) (message : String) :
    cstring path message = .ok (utf8 path) := by
  have habsolute := h.2
  simp only [isAbsolute, Bool.and_eq_true, Bool.not_eq_true'] at habsolute
  exact cstring_ok message habsolute.1.2

theorem environmentPairsToCstring_ok {environment : List (String × String)}
    (h : ∀ entry ∈ environment, PairOk entry) :
    environmentPairsToCstring environment = .ok (environment.map bytesOf) := by
  refine mapM_ok fun entry hmem => ?_
  obtain ⟨hname, -, hvalue⟩ := h entry hmem
  rw [cstring_ok _ (zero_notMem_validName hname), cstring_ok _ hvalue]
  rfl

/-- The context of a request that passed the checks. -/
def CreateSessionRequest.context (request : CreateSessionRequest) : ChildContext where
  shell := utf8 request.shell
  arguments := request.arguments.map utf8
  histfile := request.historyFile.map utf8
  cwd := request.cwd.map utf8
  savedSet := request.launchEnvironment.savedSet.map bytesOf
  savedUnset := request.launchEnvironment.savedUnset.map utf8
  connection := request.launchEnvironment.connection.map bytesOf
  private_ := request.launchEnvironment.private_.map bytesOf

theorem launch_ok {request : CreateSessionRequest} (haccepted : request.launchEnvironment.Accepted)
    (hplaced : request.Placed) : request.launch = .ok request.context := by
  have harguments := mapM_ok fun argument hmem =>
    cstring_ok "shell argument contains null bytes" (hplaced.arguments argument hmem).2
  have hhistfile := optionMapM_ok fun path hmem =>
    (hplaced.historyFile path hmem).cstring "histfile path contains null bytes"
  have hcwd := optionMapM_ok fun path hmem =>
    (hplaced.cwd path hmem).cstring "cwd path contains null bytes"
  have hsavedSet := environmentPairsToCstring_ok fun entry hmem =>
    (haccepted.savedSet entry hmem).1
  have hsavedUnset := mapM_ok fun name hmem =>
    cstring_ok "environment variable name contains null bytes"
      (zero_notMem_validName (haccepted.savedUnset name hmem).1)
  have hconnection := environmentPairsToCstring_ok fun entry hmem =>
    (haccepted.connection entry hmem).1
  have hprivate := environmentPairsToCstring_ok haccepted.private_
  rw [CreateSessionRequest.launch, launchContext, hplaced.shell.cstring, harguments, hhistfile,
    hcwd, hsavedSet, hsavedUnset, hconnection, hprivate]
  rfl

/-- Flattening the layers changes only what was unset. -/
theorem valuesOf_childEnvironment_received (request : CreateSessionRequest)
    (inherited : Entries Bytes Bytes) {name : Bytes}
    (h : name ∉ request.launchEnvironment.savedUnset.map utf8) :
    valuesOf (childEnvironment (request.received false).context inherited) name =
      valuesOf (childEnvironment request.context inherited) name := by
  let env := setAll inherited request.context.savedSet
  have hunset : valuesOf env name = valuesOf (unsetAll env request.context.savedUnset) name :=
    (valuesOf_unsetAll h env).symm
  have hlayers := valuesOf_setAll_congr (valuesOf_setAll_congr hunset request.context.connection)
    request.context.private_
  have hflat : setAll inherited (request.received false).context.private_ =
      setAll (setAll env request.context.connection) request.context.private_ := by
    rw [← setAll_append, ← setAll_append, ← List.append_assoc]
    congr 1
    simp [CreateSessionRequest.context, CreateSessionRequest.received,
      ShellLaunchEnvironment.received, ShellLaunchEnvironment.flattened,
      ShellLaunchEnvironment.legacySetEnvironment]
  rw [← hflat] at hlayers
  have hhistfile : (request.received false).context.histfile = request.context.histfile := rfl
  unfold childEnvironment
  rw [hhistfile]
  cases request.context.histfile with
  | none => exact hlayers
  | some histfile => exact valuesOf_setenv_congr hlayers (utf8 "HISTFILE") histfile

theorem received_placed {request : CreateSessionRequest} (h : request.Placed) (structured : Bool) :
    (request.received structured).Placed where
  sessionId := h.sessionId
  ringBufferSize := h.ringBufferSize
  shell := h.shell
  argumentCount := h.argumentCount
  arguments := h.arguments
  cwd := h.cwd
  historyFile := h.historyFile
  logPath := h.logPath
  stateFile := h.stateFile
  stateIncarnation := h.stateIncarnation

/-- What the new form carries the old form carries too, in one layer, and the shell finds the same
values under every name that is not unset. -/
theorem create_forms_agree {request : CreateSessionRequest} {structured : Bytes}
    (hfits : request.Fits) (hencode : encodeCreateRequestV2 request = .ok structured) :
    decodeCreateRequestV2 structured = .ok request ∧
    ∃ payload old context oldContext,
      encodeCreateRequest request = .ok payload ∧ decodeCreateRequest payload = .ok old ∧
      old = { request with launchEnvironment :=
        { savedSet := [], savedUnset := [], connection := []
          private_ := request.launchEnvironment.savedSet ++ request.launchEnvironment.connection ++
            request.launchEnvironment.private_ } } ∧
      request.launch = .ok context ∧ old.launch = .ok oldContext ∧
      ∀ inherited name, name ∉ request.launchEnvironment.savedUnset.map utf8 →
        valuesOf (childEnvironment oldContext inherited) name =
          valuesOf (childEnvironment context inherited) name := by
  have hplaced := placed_of_encodeCreate hencode
  obtain ⟨payload, hpayload⟩ := encodeCreate_isOk hfits.launchEnvironment hplaced false
  refine ⟨decode_encodeCreate hfits hencode, payload, request.received false, request.context,
    (request.received false).context, hpayload, decode_encodeCreate hfits hpayload, rfl,
    launch_ok hfits.launchEnvironment hplaced, ?_, fun inherited name hname =>
      valuesOf_childEnvironment_received request inherited hname⟩
  exact launch_ok (received_accepted hfits.launchEnvironment false) (received_placed hplaced false)

end launches

section sample

def sampleLaunch : CreateSessionRequest where
  sessionId := 7
  shell := "/bin/sh"
  arguments := ["-l"]
  cwd := some "/"
  launchEnvironment :=
    { savedSet := [("LANG", "C")], savedUnset := ["EDITOR"], connection := [("TERM", "xterm")]
      private_ := [("PERSIST_SESSION_ID", "7")] }
  historyFile := some "/h"
  ringBufferSize := 1
  logPath := none
  stateFile := "/s"
  stateIncarnation := List.replicate 16 1

theorem sampleLaunch_fits : sampleLaunch.Fits where
  sessionId := by decide
  launchEnvironment := ShellLaunchEnvironment.validate_eq_ok.mp (Eq.refl (Except.ok ()))
  stateIncarnation := rfl

theorem create_forms_agree_sample :
    ∃ payload old context oldContext,
      encodeCreateRequest sampleLaunch = .ok payload ∧ decodeCreateRequest payload = .ok old ∧
      old.launchEnvironment.private_ =
        [("LANG", "C"), ("TERM", "xterm"), ("PERSIST_SESSION_ID", "7")] ∧
      sampleLaunch.launch = .ok context ∧ old.launch = .ok oldContext ∧
      valuesOf (childEnvironment oldContext [(utf8 "LANG", utf8 "de"), (utf8 "EDITOR", utf8 "vi")])
          (utf8 "LANG") =
        valuesOf (childEnvironment context [(utf8 "LANG", utf8 "de"), (utf8 "EDITOR", utf8 "vi")])
          (utf8 "LANG") := by
  have hok : (encodeCreateRequestV2 sampleLaunch).isOk = true := by decide +kernel
  cases hencode : encodeCreateRequestV2 sampleLaunch with
  | error e =>
    rw [hencode] at hok
    cases hok
  | ok structured =>
    obtain ⟨-, payload, old, context, oldContext, hpayload, hold, rfl, hcontext, holdContext,
      hvalues⟩ := create_forms_agree sampleLaunch_fits hencode
    refine ⟨payload, _, context, oldContext, hpayload, hold, rfl, hcontext, holdContext, ?_⟩
    exact hvalues _ _ (by decide +kernel)

end sample

end PersistShell

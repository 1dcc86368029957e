import PersistShell.Core.Launch
import PersistShell.Ipc.Session

/-! Which Create requests can be sent: the checks on a request as one condition on it, and that
a request that passes them encodes in both forms. -/

namespace PersistShell

/-- What the protocol asks of a path. -/
def PathOk (path : String) : Prop := tooLong path maxHolderPath = false ∧ isAbsolute path = true

/-- What the protocol asks of an argument. -/
def ArgumentOk (argument : String) : Prop :=
  tooLong argument maxHolderArgument = false ∧ (utf8 argument).contains 0 = false

/-- What `validateCreate` checks besides the number of variables. -/
structure CreateSessionRequest.Placed (request : CreateSessionRequest) : Prop where
  sessionId : request.sessionId ≠ 0
  ringBufferSize : 0 < request.ringBufferSize ∧ request.ringBufferSize ≤ maxHolderRingBuffer
  shell : PathOk request.shell
  argumentCount : request.arguments.length ≤ maxHolderArguments
  arguments : ∀ argument ∈ request.arguments, ArgumentOk argument
  cwd : ∀ path ∈ request.cwd, PathOk path
  historyFile : ∀ path ∈ request.historyFile, PathOk path
  logPath : ∀ path ∈ request.logPath, PathOk path
  stateFile : PathOk request.stateFile
  stateIncarnation : request.stateIncarnation ≠ zeroId

theorem validateCreate_eq_ok {request : CreateSessionRequest} {u : Unit} :
    validateCreate request = .ok u ↔
      request.launchEnvironment.entryCount ≤ maxHolderEnvVars ∧ request.Placed := by
  unfold validateCreate
  simp only [bind_eq_ok, rejectIf_eq_ok, exists_and_left, exists_const, Bool.or_eq_true, not_or,
    Bool.not_eq_true, Bool.not_eq_true', Bool.not_eq_false, decide_eq_false_iff_not, not_lt,
    gt_iff_lt, List.any_eq_false, Option.any_eq_false, optionalAbsolute, Option.all_eq_true]
  constructor
  · rintro ⟨⟨⟨⟨⟨⟨⟨⟨hshell, hcount⟩, hargument⟩, hvars⟩, hcwd⟩, hhistory⟩, hlog⟩, hstate⟩,
      ⟨hid, hring, hmax, hshell', hcwd', hhistory', hlog', hstate', hincarnation⟩, harguments⟩
    exact ⟨hvars, hid, ⟨Nat.pos_of_ne_zero hring, hmax⟩, ⟨hshell, hshell'⟩, hcount,
      fun argument hmem => ⟨hargument argument hmem, harguments argument hmem⟩,
      fun path hmem => ⟨hcwd path hmem, hcwd' path hmem⟩,
      fun path hmem => ⟨hhistory path hmem, hhistory' path hmem⟩,
      fun path hmem => ⟨hlog path hmem, hlog' path hmem⟩, ⟨hstate, hstate'⟩, hincarnation⟩
  · rintro ⟨hvars, h⟩
    exact ⟨⟨⟨⟨⟨⟨⟨⟨h.shell.1, h.argumentCount⟩, fun a ha => (h.arguments a ha).1⟩, hvars⟩,
        fun p hp => (h.cwd p hp).1⟩, fun p hp => (h.historyFile p hp).1⟩,
        fun p hp => (h.logPath p hp).1⟩, h.stateFile.1⟩,
      ⟨h.sessionId, Nat.pos_iff_ne_zero.mp h.ringBufferSize.1, h.ringBufferSize.2, h.shell.2,
        fun p hp => (h.cwd p hp).2, fun p hp => (h.historyFile p hp).2,
        fun p hp => (h.logPath p hp).2, h.stateFile.2, h.stateIncarnation⟩,
      fun a ha => (h.arguments a ha).2⟩

/-- A list is encoded when each of its elements is. -/
theorem exists_mapM_eq_ok {ε α β : Type} {f : α → Except ε β} {l : List α}
    (h : ∀ a ∈ l, ∃ b, f a = .ok b) : ∃ bs, l.mapM f = .ok bs := by
  induction l with
  | nil => exact ⟨[], rfl⟩
  | cons a l ih =>
    obtain ⟨hb, hl⟩ := List.forall_mem_cons.mp h
    obtain ⟨b, hb⟩ := hb
    obtain ⟨bs, hbs⟩ := ih hl
    refine ⟨b :: bs, ?_⟩
    rw [List.mapM_cons, hb]
    change (l.mapM f >>= fun bs => pure (b :: bs)) = _
    rw [hbs]
    rfl

theorem putString_isOk {value : String} {max : Nat} (hmax : max ≤ 65535) (hne : utf8 value ≠ [])
    (hsize : (utf8 value).length ≤ max) (hzero : (utf8 value).contains 0 = false) :
    ∃ bytes, putString value max = .ok bytes := by
  have hfields : ¬ (utf8 value = [] ∨ (utf8 value).length > max ∨ (utf8 value).length > 65535) := by
    simp only [not_or, not_lt, gt_iff_lt]
    exact ⟨hne, hsize, hsize.trans hmax⟩
  refine ⟨putU16 (utf8 value).length ++ utf8 value, ?_⟩
  rw [putString, if_neg hfields, if_neg (ne_true_of_eq_false hzero)]

theorem putStringAllowEmpty_isOk {value : String} {max : Nat} (hmax : max ≤ 65535)
    (hsize : (utf8 value).length ≤ max) (hzero : (utf8 value).contains 0 = false) :
    ∃ bytes, putStringAllowEmpty value max = .ok bytes := by
  have hfields : ¬ ((utf8 value).length > max ∨ (utf8 value).length > 65535) := by
    simp only [not_or, not_lt, gt_iff_lt]
    exact ⟨hsize, hsize.trans hmax⟩
  refine ⟨putU16 (utf8 value).length ++ utf8 value, ?_⟩
  rw [putStringAllowEmpty, if_neg hfields, if_neg (ne_true_of_eq_false hzero)]

theorem PathOk.putString {path : String} (h : PathOk path) :
    ∃ bytes, putString path maxHolderPath = .ok bytes := by
  obtain ⟨hsize, habsolute⟩ := h
  simp only [isAbsolute, Bool.and_eq_true, Bool.not_eq_true', List.isEmpty_eq_false_iff] at habsolute
  exact putString_isOk (by decide) habsolute.1.1 (Nat.le_of_not_lt (of_decide_eq_false hsize))
    habsolute.1.2

theorem PathOk.putOptionalString {path : Option String} (h : ∀ p ∈ path, PathOk p) :
    ∃ bytes, putOptionalString path maxHolderPath = .ok bytes := by
  cases path with
  | none => exact ⟨_, rfl⟩
  | some path =>
    obtain ⟨bytes, hbytes⟩ := (h path rfl).putString
    exact ⟨putU8 1 ++ bytes, bind_eq_ok.mpr ⟨bytes, hbytes, rfl⟩⟩

/-- A valid name is a nonempty string without a zero byte. -/
theorem putString_of_validName {name : String} (h : validName name = true) :
    ∃ bytes, putString name maxHolderEnvName = .ok bytes := by
  simp only [validName, Bool.and_eq_true, decide_eq_true_eq, List.all_eq_true] at h
  obtain ⟨⟨hsize, hfirst⟩, hbytes⟩ := h
  refine putString_isOk (by decide) (fun hnil => ?_) hsize ?_
  · rw [hnil] at hfirst
    cases hfirst
  · rw [← Bool.not_eq_true, List.contains_iff_mem]
    exact fun hzero => absurd (hbytes 0 hzero) (by decide)

theorem putEnvironmentPairs_isOk {environment : List (String × String)}
    (h : ∀ entry ∈ environment, PairOk entry) :
    ∃ bytes, putEnvironmentPairs environment = .ok bytes := by
  have hfields : ∀ entry ∈ environment, ∃ bytes, (do
      return (← putString entry.1 maxHolderEnvName) ++
        (← putStringAllowEmpty entry.2 maxHolderEnvValue) :
      Except HolderProtocolError Bytes) = .ok bytes := by
    intro entry hmem
    obtain ⟨hname, hsize, hzero⟩ := h entry hmem
    obtain ⟨name, hname⟩ := putString_of_validName hname
    obtain ⟨value, hvalue⟩ : ∃ bytes, putStringAllowEmpty entry.2 maxHolderEnvValue = .ok bytes :=
      putStringAllowEmpty_isOk (by decide) hsize hzero
    exact ⟨name ++ value, bind_eq_ok.mpr ⟨name, hname, bind_eq_ok.mpr ⟨value, hvalue, rfl⟩⟩⟩
  obtain ⟨fields, hfields⟩ := exists_mapM_eq_ok hfields
  exact ⟨_, bind_eq_ok.mpr ⟨fields, hfields, rfl⟩⟩

theorem putEnvironmentNames_isOk {names : List String} (h : ∀ name ∈ names, validName name = true) :
    ∃ bytes, putEnvironmentNames names = .ok bytes := by
  obtain ⟨fields, hfields⟩ := exists_mapM_eq_ok fun name hmem => putString_of_validName (h name hmem)
  exact ⟨_, bind_eq_ok.mpr ⟨fields, hfields, rfl⟩⟩

theorem putLaunchEnvironment_isOk {environment : ShellLaunchEnvironment} (h : environment.Accepted)
    (structured : Bool) : ∃ bytes, putLaunchEnvironment environment structured = .ok bytes := by
  have hset : ∀ entry ∈ environment.savedSet, PairOk entry := fun e he => (h.savedSet e he).1
  have hconnection : ∀ entry ∈ environment.connection, PairOk entry :=
    fun e he => (h.connection e he).1
  cases structured with
  | true =>
    obtain ⟨_, h₁⟩ := putEnvironmentPairs_isOk hset
    obtain ⟨_, h₂⟩ := putEnvironmentNames_isOk fun name hmem => (h.savedUnset name hmem).1
    obtain ⟨_, h₃⟩ := putEnvironmentPairs_isOk hconnection
    obtain ⟨_, h₄⟩ := putEnvironmentPairs_isOk h.private_
    exact ⟨_, bind_eq_ok.mpr ⟨_, h₁, bind_eq_ok.mpr ⟨_, h₂, bind_eq_ok.mpr ⟨_, h₃,
      bind_eq_ok.mpr ⟨_, h₄, rfl⟩⟩⟩⟩⟩
  | false =>
    refine putEnvironmentPairs_isOk fun entry hmem => ?_
    rcases List.mem_append.mp hmem with hmem | hmem
    · exact (List.mem_append.mp hmem).elim (hset entry) (hconnection entry)
    · exact h.private_ entry hmem

/-- A request that passes the checks encodes, whichever form the peer takes. -/
theorem encodeCreate_isOk {request : CreateSessionRequest} (henvironment :
    request.launchEnvironment.Accepted) (hplaced : request.Placed) (structured : Bool) :
    ∃ payload, encodeCreate request structured = .ok payload := by
  obtain ⟨_, hshell⟩ := hplaced.shell.putString
  obtain ⟨_, harguments⟩ := exists_mapM_eq_ok (f := (putStringAllowEmpty · maxHolderArgument))
    fun argument hmem => putStringAllowEmpty_isOk (by decide)
      (Nat.le_of_not_lt (of_decide_eq_false (hplaced.arguments argument hmem).1))
      (hplaced.arguments argument hmem).2
  obtain ⟨_, hcwd⟩ := PathOk.putOptionalString hplaced.cwd
  obtain ⟨_, henvironment'⟩ := putLaunchEnvironment_isOk henvironment structured
  obtain ⟨_, hhistory⟩ := PathOk.putOptionalString hplaced.historyFile
  obtain ⟨_, hlog⟩ := PathOk.putOptionalString hplaced.logPath
  obtain ⟨_, hstate⟩ := hplaced.stateFile.putString
  exact ⟨_, bind_eq_ok.mpr ⟨(), validateCreate_eq_ok.mpr ⟨henvironment.count, hplaced⟩,
    bind_eq_ok.mpr ⟨_, hshell, bind_eq_ok.mpr ⟨_, harguments, bind_eq_ok.mpr ⟨_, hcwd,
      bind_eq_ok.mpr ⟨_, henvironment', bind_eq_ok.mpr ⟨_, hhistory, bind_eq_ok.mpr ⟨_, hlog,
        bind_eq_ok.mpr ⟨_, hstate, rfl⟩⟩⟩⟩⟩⟩⟩⟩⟩

theorem placed_of_encodeCreate {request : CreateSessionRequest} {structured : Bool} {payload : Bytes}
    (h : encodeCreate request structured = .ok payload) : request.Placed := by
  obtain ⟨_, hvalid, -⟩ := bind_eq_ok.mp h
  exact (validateCreate_eq_ok.mp hvalid).2

end PersistShell

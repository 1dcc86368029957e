import PersistShell.Core.Json
import PersistShell.Ipc.Create
import PersistShell.Ipc.OperationCodecs

/-! The two forms of Create are codecs, and with them all payloads of the holder. The legacy form
flattens the launch environment into one layer; what it carries is the request with the flattened
environment. -/

namespace PersistShell
open Reader

namespace ShellLaunchEnvironment

/-- All layers that set variables as one private layer. -/
def flattened (e : ShellLaunchEnvironment) : ShellLaunchEnvironment :=
  ⟨[], [], [], e.legacySetEnvironment⟩

theorem flattened_count (e : ShellLaunchEnvironment) : e.flattened.entryCount ≤ e.entryCount := by
  simp only [flattened, entryCount, legacySetEnvironment, List.length_append, List.length_nil]
  omega

theorem flattened_names (e : ShellLaunchEnvironment) :
    List.Sublist e.flattened.names e.names := by
  simp only [flattened, names, legacySetEnvironment, List.map_append, List.map_nil,
    List.nil_append, List.append_assoc]
  exact (List.Sublist.refl _).append (List.sublist_append_right _ _)

theorem flattened_bytes (e : ShellLaunchEnvironment) : e.flattened.bytes ≤ e.bytes := by
  simp only [flattened, bytes, legacySetEnvironment, List.map_append, List.sum_append,
    List.map_nil, List.sum_nil]
  omega

/-- What was valid in four layers is valid in one. -/
theorem Accepted.flattened {e : ShellLaunchEnvironment} (h : e.Accepted) :
    e.flattened.Accepted where
  count := e.flattened_count.trans h.count
  savedSet _ hmem := by cases hmem
  savedUnset _ hmem := by cases hmem
  connection _ hmem := by cases hmem
  private_ entry hmem := by
    rcases List.mem_append.mp hmem with hmem | hmem
    · rcases List.mem_append.mp hmem with hmem | hmem
      · exact (h.savedSet entry hmem).1
      · exact (h.connection entry hmem).1
    · exact h.private_ entry hmem
  distinct := h.distinct.sublist e.flattened_names
  size := e.flattened_bytes.trans h.size

end ShellLaunchEnvironment

section extends_

theorem extends_environmentPairs : readEnvironmentPairs.Extends := by
  refine (extends_unsigned 2).bind fun count => (Extends.reject _ _).bind fun _ => ?_
  exact extends_repeated ((extends_string _).bind fun _ => (extends_string _).bind fun _ =>
    .pure _) count

theorem extends_environmentNames : readEnvironmentNames.Extends :=
  (extends_unsigned 2).bind fun count => (Extends.reject _ _).bind fun _ =>
    extends_repeated (extends_string _) count

theorem extends_launchOrInvalid (r : Except PersistError ShellLaunchEnvironment) :
    (launchOrInvalid r).Extends := by
  unfold launchOrInvalid
  split
  · exact .pure _
  · exact .throw _

theorem extends_launchEnvironment (structured : Bool) :
    (readLaunchEnvironment structured).Extends := by
  unfold readLaunchEnvironment
  split
  · exact extends_environmentPairs.bind fun _ => extends_environmentNames.bind fun _ =>
      extends_environmentPairs.bind fun _ => extends_environmentPairs.bind fun _ =>
        (Extends.reject _ _).bind fun _ => extends_launchOrInvalid _
  · exact extends_environmentPairs.bind fun _ => extends_launchOrInvalid _

theorem sealed_create (structured : Bool) : (readCreate structured).Sealed :=
  (extends_unsigned 4).seals fun _ => (extends_unsigned 4).seals fun _ =>
    (extends_string _).seals fun _ => (extends_unsigned 2).seals fun _ =>
      (Extends.reject _ _).seals fun _ => (extends_repeated (extends_string _) _).seals fun _ =>
        (extends_optionalString _).seals fun _ => (extends_launchEnvironment _).seals fun _ =>
          (extends_optionalString _).seals fun _ => (extends_optionalString _).seals fun _ =>
            (extends_string _).seals fun _ => (extends_take 16).seals fun _ =>
              .finish (.convert _ fun _ => .pure _)

end extends_

section reads

theorem reads_reject {α : Type} {c : Prop} [Decidable c] {e : HolderProtocolError}
    {k : Unit → Reader α} {bytes : Bytes} {a : α} (hc : ¬ c) (h : (k ()).Reads bytes a) :
    (rejectIf c e >>= k).Reads bytes a := by
  intro rest
  rw [rejectIf, if_neg hc]
  exact h rest

theorem reads_environmentPairs {environment : List (String × String)} {bytes : Bytes}
    (hcount : environment.length ≤ maxHolderEnvVars)
    (h : putEnvironmentPairs environment = .ok bytes) :
    readEnvironmentPairs.Reads bytes environment := by
  obtain ⟨fields, hfields, h⟩ := bind_eq_ok.mp h
  cases h
  have hlength : environment.length < 2 ^ 16 := by
    have hmax : maxHolderEnvVars < 2 ^ 16 := by decide
    omega
  refine (reads_u16 hlength).bind (reads_reject (Nat.not_lt.mpr hcount) ?_)
  refine reads_repeated (fun entry _ field hput => ?_) hfields
  obtain ⟨name, hname, hput⟩ := bind_eq_ok.mp hput
  obtain ⟨value, hvalue, hput⟩ := bind_eq_ok.mp hput
  cases hput
  exact (reads_string (allowEmpty_of_putString hname)).bind
    ((reads_string hvalue).andThen (.pure entry))

theorem reads_environmentNames {names : List String} {bytes : Bytes}
    (hcount : names.length ≤ maxHolderEnvVars) (h : putEnvironmentNames names = .ok bytes) :
    readEnvironmentNames.Reads bytes names := by
  obtain ⟨fields, hfields, h⟩ := bind_eq_ok.mp h
  cases h
  have hlength : names.length < 2 ^ 16 := by
    have hmax : maxHolderEnvVars < 2 ^ 16 := by decide
    omega
  refine (reads_u16 hlength).bind (reads_reject (Nat.not_lt.mpr hcount) ?_)
  exact reads_repeated (fun _ _ _ hput => reads_string (allowEmpty_of_putString hput)) hfields

theorem reads_launchOrInvalid {r : Except PersistError ShellLaunchEnvironment}
    {e : ShellLaunchEnvironment} (h : r = .ok e) : (launchOrInvalid r).Reads [] e := by
  rw [h]
  exact .pure e

/-- What the receiver makes of a launch environment. -/
def ShellLaunchEnvironment.received (e : ShellLaunchEnvironment) (structured : Bool) :
    ShellLaunchEnvironment :=
  if structured then e else e.flattened

theorem reads_launchEnvironment {e : ShellLaunchEnvironment} {structured : Bool} {bytes : Bytes}
    (haccepted : e.Accepted) (h : putLaunchEnvironment e structured = .ok bytes) :
    (readLaunchEnvironment structured).Reads bytes (e.received structured) := by
  have hcount : e.entryCount ≤ maxHolderEnvVars := haccepted.count
  rw [ShellLaunchEnvironment.entryCount] at hcount
  cases structured with
  | true =>
    obtain ⟨saved, hsaved, h⟩ := bind_eq_ok.mp h
    obtain ⟨unset, hunset, h⟩ := bind_eq_ok.mp h
    obtain ⟨connection, hconnection, h⟩ := bind_eq_ok.mp h
    obtain ⟨private_, hprivate, h⟩ := bind_eq_ok.mp h
    cases h
    simp only [List.append_assoc]
    refine (reads_environmentPairs (by omega) hsaved).bind ?_
    refine (reads_environmentNames (by omega) hunset).bind ?_
    refine (reads_environmentPairs (by omega) hconnection).bind ?_
    refine (reads_environmentPairs (by omega) hprivate).andThen ?_
    refine reads_reject (Nat.not_lt.mpr hcount) (reads_launchOrInvalid ?_)
    exact ShellLaunchEnvironment.new_eq_ok.mpr ⟨rfl, haccepted⟩
  | false =>
    have hlength : e.legacySetEnvironment.length ≤ maxHolderEnvVars := by
      simp only [ShellLaunchEnvironment.legacySetEnvironment, List.length_append]
      omega
    refine (reads_environmentPairs hlength h).andThen (reads_launchOrInvalid ?_)
    exact ShellLaunchEnvironment.new_eq_ok.mpr ⟨rfl, haccepted.flattened⟩

/-- What the receiver makes of a request. -/
def CreateSessionRequest.received (request : CreateSessionRequest) (structured : Bool) :
    CreateSessionRequest :=
  { request with launchEnvironment := request.launchEnvironment.received structured }

/-- The fields are values of their types. -/
structure CreateSessionRequest.Fits (request : CreateSessionRequest) : Prop where
  sessionId : request.sessionId < 2 ^ 32
  launchEnvironment : request.launchEnvironment.Accepted
  stateIncarnation : request.stateIncarnation.length = 16

theorem received_accepted {e : ShellLaunchEnvironment} (h : e.Accepted) (structured : Bool) :
    (e.received structured).Accepted := by
  cases structured with
  | true => exact h
  | false => exact h.flattened

theorem validateCreate_received {request : CreateSessionRequest} (hfits : request.Fits)
    (hplaced : request.Placed) (structured : Bool) :
    validateCreate (request.received structured) = .ok () :=
  validateCreate_eq_ok.mpr ⟨(received_accepted hfits.launchEnvironment structured).count,
    { sessionId := hplaced.sessionId
      ringBufferSize := hplaced.ringBufferSize
      shell := hplaced.shell
      argumentCount := hplaced.argumentCount
      arguments := hplaced.arguments
      cwd := hplaced.cwd
      historyFile := hplaced.historyFile
      logPath := hplaced.logPath
      stateFile := hplaced.stateFile
      stateIncarnation := hplaced.stateIncarnation }⟩

/-- A request that is encoded is read back with the environment that its form carries. -/
theorem decode_encodeCreate {request : CreateSessionRequest} {structured : Bool} {payload : Bytes}
    (hfits : request.Fits) (hencode : encodeCreate request structured = .ok payload) :
    Reader.decode (readCreate structured) payload = .ok (request.received structured) := by
  have hplaced := placed_of_encodeCreate hencode
  obtain ⟨_, -, hencode⟩ := bind_eq_ok.mp hencode
  obtain ⟨shell, hshell, hencode⟩ := bind_eq_ok.mp hencode
  obtain ⟨arguments, harguments, hencode⟩ := bind_eq_ok.mp hencode
  obtain ⟨cwd, hcwd, hencode⟩ := bind_eq_ok.mp hencode
  obtain ⟨environment, henvironment, hencode⟩ := bind_eq_ok.mp hencode
  obtain ⟨historyFile, hhistory, hencode⟩ := bind_eq_ok.mp hencode
  obtain ⟨logPath, hlog, hencode⟩ := bind_eq_ok.mp hencode
  obtain ⟨stateFile, hstate, hencode⟩ := bind_eq_ok.mp hencode
  cases hencode
  have hring : request.ringBufferSize < 2 ^ 32 := by
    have hmax : maxHolderRingBuffer < 2 ^ 32 := by decide
    have := hplaced.ringBufferSize.2
    omega
  have hcount : request.arguments.length < 2 ^ 16 := by
    have hmax : maxHolderArguments < 2 ^ 16 := by decide
    have := hplaced.argumentCount
    omega
  have hincarnation : (Reader.fixed 16).Reads request.stateIncarnation request.stateIncarnation := by
    have := reads_take request.stateIncarnation
    rwa [hfits.stateIncarnation] at this
  simp only [List.append_assoc]
  rw [readCreate, (reads_u32 hfits.sessionId).decode_bind, (reads_u32 hring).decode_bind,
    (reads_string (allowEmpty_of_putString hshell)).decode_bind, (reads_u16 hcount).decode_bind,
    decode_reject (Nat.not_lt.mpr hplaced.argumentCount),
    (reads_repeated (fun _ _ _ h => reads_string h) harguments).decode_bind,
    (reads_optionalString hcwd).decode_bind,
    (reads_launchEnvironment hfits.launchEnvironment henvironment).decode_bind,
    (reads_optionalString hhistory).decode_bind, (reads_optionalString hlog).decode_bind,
    (reads_string (allowEmpty_of_putString hstate)).decode_bind, hincarnation.decode_last,
    decode_finish]
  exact (decode_convert (validateCreate_received hfits hplaced structured) _).trans rfl

theorem codec_createV2 : Codec encodeCreateRequestV2 decodeCreateRequestV2
    CreateSessionRequest.Fits :=
  .of_sealed (sealed_create true) fun _ _ hfits hencode => decode_encodeCreate hfits hencode

/-- The environment of the request is in the private layer. -/
def CreateSessionRequest.OnlyPrivate (request : CreateSessionRequest) : Prop :=
  request.launchEnvironment.savedSet = [] ∧ request.launchEnvironment.savedUnset = [] ∧
    request.launchEnvironment.connection = []

theorem received_of_onlyPrivate {request : CreateSessionRequest} (h : request.OnlyPrivate) :
    request.received false = request := by
  obtain ⟨_, _, _, _, ⟨savedSet, savedUnset, connection, private_⟩, _, _, _, _, _⟩ := request
  obtain ⟨rfl, rfl, rfl⟩ := h
  rfl

theorem codec_create : Codec encodeCreateRequest decodeCreateRequest
    fun request => request.Fits ∧ request.OnlyPrivate := by
  refine .of_sealed (sealed_create false) fun request bytes hfits hencode => ?_
  rw [decode_encodeCreate hfits.1 hencode, received_of_onlyPrivate hfits.2]

end reads

section takes

/-- Two encoders of elements that agree on what the first one accepts. -/
theorem mapM_of_agree {α β ε : Type} {f g : α → Except ε β} {l : List α} {bs : List β}
    (h : ∀ a ∈ l, ∀ b, f a = .ok b → g a = .ok b) (hf : l.mapM f = .ok bs) :
    l.mapM g = .ok bs := by
  induction l generalizing bs with
  | nil => exact hf
  | cons a l ih =>
    rw [List.mapM_cons] at hf ⊢
    obtain ⟨b, hb, hf⟩ := PersistShell.bind_eq_ok.mp hf
    obtain ⟨rest, hrest, hf⟩ := PersistShell.bind_eq_ok.mp hf
    obtain ⟨ha, hl⟩ := List.forall_mem_cons.mp h
    exact PersistShell.bind_eq_ok.mpr ⟨b, ha b hb,
      PersistShell.bind_eq_ok.mpr ⟨rest, ih hl hrest, hf⟩⟩

theorem utf8_ne_nil_of_validName {name : String} (h : validName name = true) : utf8 name ≠ [] := by
  intro hnil
  simp only [validName, hnil, Bool.and_eq_true] at h
  cases h.1.2

theorem takes_environmentPairs : readEnvironmentPairs.Takes fun environment bytes =>
    (∀ entry ∈ environment, validName entry.1 = true) →
      putEnvironmentPairs environment = .ok bytes := by
  refine (takes_unsigned 2).bind fun count _ h => ?_
  obtain ⟨-, rfl⟩ := h
  refine (takes_reject _ _).bind fun _ _ h => ?_
  obtain ⟨-, rfl⟩ := h
  let putEntry (entry : String × String) : Except HolderProtocolError Bytes := do
    return (← putStringAllowEmpty entry.1 maxHolderEnvName) ++
      (← putStringAllowEmpty entry.2 maxHolderEnvValue)
  refine (@takes_repeated _ _ putEntry ?_ count).mono fun environment bytes h => ?_
  · refine (takes_string _).bind fun name field hname => ?_
    refine (takes_string _).bind fun value field' hvalue => .pure ?_
    rw [List.append_nil]
    exact PersistShell.bind_eq_ok.mpr ⟨field, hname, PersistShell.bind_eq_ok.mpr
      ⟨field', hvalue, rfl⟩⟩
  · obtain ⟨rfl, fields, hfields, rfl⟩ := h
    intro hvalid
    refine PersistShell.bind_eq_ok.mpr ⟨fields, mapM_of_agree (fun entry hmem field h => ?_) hfields,
      rfl⟩
    obtain ⟨name, hname, h⟩ := PersistShell.bind_eq_ok.mp h
    exact PersistShell.bind_eq_ok.mpr ⟨name,
      putString_of_allowEmpty (utf8_ne_nil_of_validName (hvalid entry hmem)) hname, h⟩

theorem takes_environmentNames : readEnvironmentNames.Takes fun names bytes =>
    (∀ name ∈ names, validName name = true) → putEnvironmentNames names = .ok bytes := by
  refine (takes_unsigned 2).bind fun count _ h => ?_
  obtain ⟨-, rfl⟩ := h
  refine (takes_reject _ _).bind fun _ _ h => ?_
  obtain ⟨-, rfl⟩ := h
  refine (takes_repeated (takes_string _) count).mono fun names bytes h => ?_
  obtain ⟨rfl, fields, hfields, rfl⟩ := h
  intro hvalid
  refine PersistShell.bind_eq_ok.mpr ⟨fields, mapM_of_agree (fun name hmem field h => ?_) hfields,
    rfl⟩
  exact putString_of_allowEmpty (utf8_ne_nil_of_validName (hvalid name hmem)) h

theorem takes_launchOrInvalid (r : Except PersistError ShellLaunchEnvironment) :
    (launchOrInvalid r).Takes fun e bytes => r = .ok e ∧ bytes = [] := by
  unfold launchOrInvalid
  split
  · exact .pure ⟨rfl, rfl⟩
  · exact .throw _

theorem takes_launchEnvironment (structured : Bool) :
    (readLaunchEnvironment structured).Takes fun e bytes =>
      putLaunchEnvironment e structured = .ok bytes := by
  unfold readLaunchEnvironment
  split
  · refine takes_environmentPairs.bind fun savedSet saved hsaved => ?_
    refine takes_environmentNames.bind fun savedUnset unset hunset => ?_
    refine takes_environmentPairs.bind fun connection current hconnection => ?_
    refine takes_environmentPairs.bind fun private_ own hprivate => ?_
    refine (takes_reject _ _).bind fun _ _ h => ?_
    obtain ⟨-, rfl⟩ := h
    refine (takes_launchOrInvalid _).mono fun e bytes h => ?_
    obtain ⟨hnew, rfl⟩ := h
    obtain ⟨rfl, haccepted⟩ := ShellLaunchEnvironment.new_eq_ok.mp hnew
    have hsaved := hsaved fun entry hmem => (haccepted.savedSet entry hmem).1.1
    have hunset := hunset fun name hmem => (haccepted.savedUnset name hmem).1
    have hconnection := hconnection fun entry hmem => (haccepted.connection entry hmem).1.1
    have hprivate := hprivate fun entry hmem => (haccepted.private_ entry hmem).1
    rw [putLaunchEnvironment, if_pos ‹_›, hsaved, hunset, hconnection, hprivate]
    simp only [List.append_nil, ← List.append_assoc]
    rfl
  · refine takes_environmentPairs.bind fun environment bytes hpairs => ?_
    refine (takes_launchOrInvalid _).mono fun e _ h => ?_
    obtain ⟨hnew, rfl⟩ := h
    obtain ⟨rfl, haccepted⟩ := ShellLaunchEnvironment.new_eq_ok.mp hnew
    rw [putLaunchEnvironment, if_neg ‹_›, List.append_nil]
    exact hpairs fun entry hmem => (haccepted.private_ entry hmem).1

theorem PathOk.ne_nil {path : String} (h : PathOk path) : utf8 path ≠ [] := by
  intro hnil
  have habsolute := h.2
  rw [isAbsolute, hnil] at habsolute
  cases habsolute

/-- The bytes of a request that is accepted are those the encoder writes for it. -/
theorem takes_create (structured : Bool) : (readCreate structured).Takes fun request bytes =>
    encodeCreate request structured = .ok bytes := by
  unfold readCreate
  refine (takes_unsigned 4).bind fun sessionId _ h => ?_
  obtain ⟨-, rfl⟩ := h
  refine (takes_unsigned 4).bind fun ringBufferSize _ h => ?_
  obtain ⟨-, rfl⟩ := h
  refine (takes_string _).bind fun shell shellField hshell => ?_
  refine (takes_unsigned 2).bind fun argumentCount _ h => ?_
  obtain ⟨-, rfl⟩ := h
  refine (takes_reject _ _).bind fun _ _ h => ?_
  obtain ⟨-, rfl⟩ := h
  refine (takes_repeated (takes_string _) _).bind fun arguments _ h => ?_
  obtain ⟨rfl, argumentFields, harguments, rfl⟩ := h
  refine (takes_optionalString _).bind fun cwd cwdField hcwd => ?_
  refine (takes_launchEnvironment _).bind fun environment environmentField henvironment => ?_
  refine (takes_optionalString _).bind fun historyFile historyField hhistory => ?_
  refine (takes_optionalString _).bind fun logPath logField hlog => ?_
  refine (takes_string _).bind fun stateFile stateField hstate => ?_
  refine (takes_take 16).bind fun stateIncarnation _ h => ?_
  obtain ⟨rfl, -⟩ := h
  refine takes_finish.bind fun _ _ h => ?_
  subst h
  refine (takes_convert _).bind fun _ _ h => .pure ?_
  obtain ⟨hvalid, rfl⟩ := h
  have hplaced := (validateCreate_eq_ok.mp hvalid).2
  have hshell := putString_of_allowEmpty hplaced.shell.ne_nil hshell
  have hcwd := hcwd fun path hmem => (hplaced.cwd path hmem).ne_nil
  have hhistory := hhistory fun path hmem => (hplaced.historyFile path hmem).ne_nil
  have hlog := hlog fun path hmem => (hplaced.logPath path hmem).ne_nil
  have hstate := putString_of_allowEmpty hplaced.stateFile.ne_nil hstate
  refine PersistShell.bind_eq_ok.mpr ⟨(), hvalid, PersistShell.bind_eq_ok.mpr ⟨_, hshell,
    PersistShell.bind_eq_ok.mpr ⟨_, harguments, PersistShell.bind_eq_ok.mpr ⟨_, hcwd,
    PersistShell.bind_eq_ok.mpr ⟨_, henvironment, PersistShell.bind_eq_ok.mpr ⟨_, hhistory,
    PersistShell.bind_eq_ok.mpr ⟨_, hlog, PersistShell.bind_eq_ok.mpr ⟨_, hstate, ?_⟩⟩⟩⟩⟩⟩⟩⟩
  simp only [List.append_nil, List.nil_append, List.append_assoc]
  rfl

theorem canonical_create : Canonical encodeCreateRequest decodeCreateRequest :=
  .of_takes (sealed_create false) (takes_create false)

theorem canonical_createV2 : Canonical encodeCreateRequestV2 decodeCreateRequestV2 :=
  .of_takes (sealed_create true) (takes_create true)

end takes

section payloads

/-- Every payload of the holder is read back as it was sent, and neither a part of it nor more is
accepted; where a payload has one form only, it is the encoding of what it is read as. -/
theorem holder_codecs [SerdeJson] [LawfulSerdeJson] :
    (Codec encodeCreateRequest decodeCreateRequest
        (fun request => request.Fits ∧ request.OnlyPrivate) ∧
      Codec encodeCreateRequestV2 decodeCreateRequestV2 CreateSessionRequest.Fits ∧
      Codec (orInvalid encodeAttachRequest) decodeAttachRequest (·.sessionId < 2 ^ 32) ∧
      Codec (orInvalid encodeOperationRequest) decodeOperationRequest (·.sessionId < 2 ^ 32) ∧
      Codec encodeOperationResponse decodeOperationResponse (·.sessionId < 2 ^ 32) ∧
      Codec encodeSessionExitedEvent decodeSessionExitedEvent SessionExitedEvent.Fits ∧
      Codec encodeSessionExitedEventV2 decodeSessionExitedEventV2
        (·.toSessionExitedEvent.Fits) ∧
      Codec encodeExitContextResponse decodeExitContextResponse ExitContextResponse.Fits ∧
      Codec encodeExitContextResponseV2 decodeExitContextResponseV2
        (·.toExitContextResponse.Fits) ∧
      Codec (orInvalid encodeResizeRequest) decodeResizeRequest
        (fun request => request.rows < 2 ^ 16 ∧ request.cols < 2 ^ 16) ∧
      Codec (orInvalid encodeSignalRequest) decodeSignalRequest (·.signal < 2 ^ 32) ∧
      Codec (orInvalid encodeLogDegraded) decodeLogDegraded
        (fun event => event.sessionId < 2 ^ 32 ∧ event.droppedBytes < 2 ^ 64) ∧
      Codec (orInvalid encodeInventoryRequest) decodeInventoryRequest (·.cursor < 2 ^ 32) ∧
      Codec encodeInventoryResponse decodeInventoryResponse InventoryResponse.Fits) ∧
    Canonical encodeCreateRequest decodeCreateRequest ∧
    Canonical encodeCreateRequestV2 decodeCreateRequestV2 ∧
    Canonical (orInvalid encodeAttachRequest) decodeAttachRequest ∧
    Canonical (orInvalid encodeOperationRequest) decodeOperationRequest ∧
    Canonical encodeOperationResponse decodeOperationResponse ∧
    Canonical encodeSessionExitedEvent decodeSessionExitedEvent ∧
    Canonical (orInvalid encodeResizeRequest) decodeResizeRequest ∧
    Canonical (orInvalid encodeSignalRequest) decodeSignalRequest ∧
    Canonical (orInvalid encodeLogDegraded) decodeLogDegraded := by
  refine ⟨⟨codec_create, codec_createV2, codec_attachRequest, codec_operationRequest,
    codec_operationResponse, codec_sessionExited, codec_sessionExitedV2, codec_exitContext,
    codec_exitContextV2, codec_resizeRequest, codec_signalRequest, codec_logDegraded,
    codec_inventoryRequest, codec_inventoryResponse⟩, ?_⟩
  exact ⟨canonical_create, canonical_createV2, canonical_attachRequest, canonical_operationRequest,
    canonical_operationResponse, canonical_sessionExited, canonical_resizeRequest,
    canonical_signalRequest, canonical_logDegraded⟩

theorem sampleEditor_sorted : ([("EDITOR", "vi")].map Prod.fst).Pairwise (· < ·) :=
  List.pairwise_singleton _ _

def sampleExit : SessionExitedEventV2 where
  sessionId := 7
  exitCode := -1
  cwd := some "/"
  environment := some
    { formatVersion := 1
      policyVersion := 1
      policyFingerprint := String.ofList (List.replicate 16 'a')
      envSet := [("EDITOR", "vi")]
      envUnset := []
      captureStatus := .complete
      envSet_sorted := sampleEditor_sorted
      envUnset_sorted := EnvironmentSnapshot.sorted_nil }

theorem sampleExit_lawful :
    @LawfulSerdeJson (Json.serdeSnapshots sampleExit.environment.toList) :=
  Json.serdeSnapshots_lawful fun s hs => by
    obtain rfl := List.mem_singleton.mp hs
    exact List.find?_cons_of_pos (decide_eq_true rfl)

theorem holder_codecs_exit :
    letI := Json.serdeSnapshots sampleExit.environment.toList
    ∃ bytes, encodeSessionExitedEventV2 sampleExit = .ok bytes ∧
      decodeSessionExitedEventV2 bytes = .ok sampleExit := by
  let _ := Json.serdeSnapshots sampleExit.environment.toList
  have _ := sampleExit_lawful
  obtain ⟨⟨-, -, -, -, -, -, hexit, -⟩, -⟩ := holder_codecs
  have hok : (encodeSessionExitedEventV2 sampleExit).isOk = true := by decide +kernel
  cases hencode : encodeSessionExitedEventV2 sampleExit with
  | error e =>
    rw [hencode] at hok
    cases hok
  | ok bytes =>
    refine ⟨bytes, rfl, hexit.round_trip sampleExit bytes ?_ hencode⟩
    exact ⟨by decide, by decide⟩

end payloads

end PersistShell

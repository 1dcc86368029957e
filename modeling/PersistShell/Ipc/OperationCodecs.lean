import PersistShell.Ipc.Codec
import PersistShell.Ipc.Operation
import PersistShell.Ipc.Session

/-! The payloads of fixed shape and those of the operations on a session are codecs. -/

namespace PersistShell
open Reader

theorem decode_encode_status (status : OperationStatus) :
    OperationStatus.decode status.encode = .ok status := by
  cases status <;> rfl

theorem encode_status_lt (status : OperationStatus) : status.encode < 2 ^ 8 := by
  cases status <;> decide

theorem encode_decode_status {n : Nat} {status : OperationStatus}
    (h : OperationStatus.decode n = .ok status) : status.encode = n := by
  unfold OperationStatus.decode at h
  split at h <;> cases h <;> rfl

section fixedShape

theorem sealed_operationRequest : readOperationRequest.Sealed :=
  (extends_unsigned 4).seals fun _ => .finish (.reject _ _ (.pure _))

theorem codec_operationRequest :
    Codec (orInvalid encodeOperationRequest) decodeOperationRequest (·.sessionId < 2 ^ 32) := by
  refine .of_sealed sealed_operationRequest fun request bytes hfits hencode => ?_
  obtain ⟨hencode, hne⟩ := orInvalid_eq_ok.mp hencode
  rw [encodeOperationRequest] at hencode
  split at hencode
  · exact absurd hencode.symm hne
  · rename_i hzero
    subst hencode
    rw [readOperationRequest, (reads_u32 hfits).decode_last, decode_finish, decode_reject hzero]
    rfl

theorem canonical_operationRequest :
    Canonical (orInvalid encodeOperationRequest) decodeOperationRequest := by
  refine .of_takes sealed_operationRequest ?_
  refine (takes_unsigned 4).bind fun sessionId _ h => ?_
  obtain ⟨-, rfl⟩ := h
  refine takes_finish.bind fun _ _ h => ?_
  subst h
  refine (takes_reject _ _).bind fun _ _ h => .pure ?_
  obtain ⟨hzero, rfl⟩ := h
  refine orInvalid_eq_ok.mpr ⟨?_, by simp [toBeBytes]⟩
  rw [encodeOperationRequest, if_neg hzero, List.append_nil, List.append_nil, List.append_nil]
  rfl

theorem sealed_resizeRequest : readResizeRequest.Sealed :=
  (extends_unsigned 2).seals fun _ => (extends_unsigned 2).seals fun _ =>
    .finish (.reject _ _ (.pure _))

theorem codec_resizeRequest :
    Codec (orInvalid encodeResizeRequest) decodeResizeRequest fun request =>
      request.rows < 2 ^ 16 ∧ request.cols < 2 ^ 16 := by
  refine .of_sealed sealed_resizeRequest fun request bytes hfits hencode => ?_
  obtain ⟨hencode, hne⟩ := orInvalid_eq_ok.mp hencode
  rw [encodeResizeRequest] at hencode
  split at hencode
  · exact absurd hencode.symm hne
  · rename_i hzero
    subst hencode
    rw [readResizeRequest, (reads_u16 hfits.1).decode_bind, (reads_u16 hfits.2).decode_last,
      decode_finish, decode_reject hzero]
    rfl

theorem canonical_resizeRequest :
    Canonical (orInvalid encodeResizeRequest) decodeResizeRequest := by
  refine .of_takes sealed_resizeRequest ?_
  refine (takes_unsigned 2).bind fun rows _ h => ?_
  obtain ⟨-, rfl⟩ := h
  refine (takes_unsigned 2).bind fun cols _ h => ?_
  obtain ⟨-, rfl⟩ := h
  refine takes_finish.bind fun _ _ h => ?_
  subst h
  refine (takes_reject _ _).bind fun _ _ h => .pure ?_
  obtain ⟨hzero, rfl⟩ := h
  refine orInvalid_eq_ok.mpr ⟨?_, by simp [toBeBytes]⟩
  rw [encodeResizeRequest, if_neg hzero, List.append_nil, List.append_nil, List.append_nil]
  rfl

theorem sealed_signalRequest : readSignalRequest.Sealed :=
  (extends_unsigned 4).seals fun _ => .finish (.reject _ _ (.pure _))

theorem codec_signalRequest :
    Codec (orInvalid encodeSignalRequest) decodeSignalRequest (·.signal < 2 ^ 32) := by
  refine .of_sealed sealed_signalRequest fun request bytes hfits hencode => ?_
  obtain ⟨hencode, hne⟩ := orInvalid_eq_ok.mp hencode
  rw [encodeSignalRequest] at hencode
  split at hencode
  · exact absurd hencode.symm hne
  · rename_i hvalid
    subst hencode
    rw [readSignalRequest, (reads_u32 hfits).decode_last, decode_finish, decode_reject hvalid]
    rfl

theorem canonical_signalRequest :
    Canonical (orInvalid encodeSignalRequest) decodeSignalRequest := by
  refine .of_takes sealed_signalRequest ?_
  refine (takes_unsigned 4).bind fun signal _ h => ?_
  obtain ⟨-, rfl⟩ := h
  refine takes_finish.bind fun _ _ h => ?_
  subst h
  refine (takes_reject _ _).bind fun _ _ h => .pure ?_
  obtain ⟨hvalid, rfl⟩ := h
  refine orInvalid_eq_ok.mpr ⟨?_, by simp [toBeBytes]⟩
  rw [encodeSignalRequest, if_neg hvalid, List.append_nil, List.append_nil, List.append_nil]
  rfl

theorem sealed_logDegraded : readLogDegraded.Sealed :=
  (extends_unsigned 4).seals fun _ => (extends_unsigned 8).seals fun _ =>
    .finish (.reject _ _ (.pure _))

theorem codec_logDegraded :
    Codec (orInvalid encodeLogDegraded) decodeLogDegraded fun event =>
      event.sessionId < 2 ^ 32 ∧ event.droppedBytes < 2 ^ 64 := by
  refine .of_sealed sealed_logDegraded fun event bytes hfits hencode => ?_
  obtain ⟨hencode, hne⟩ := orInvalid_eq_ok.mp hencode
  rw [encodeLogDegraded] at hencode
  split at hencode
  · exact absurd hencode.symm hne
  · rename_i hzero
    subst hencode
    rw [readLogDegraded, (reads_u32 hfits.1).decode_bind, (reads_u64 hfits.2).decode_last,
      decode_finish, decode_reject hzero]
    rfl

theorem canonical_logDegraded : Canonical (orInvalid encodeLogDegraded) decodeLogDegraded := by
  refine .of_takes sealed_logDegraded ?_
  refine (takes_unsigned 4).bind fun sessionId _ h => ?_
  obtain ⟨-, rfl⟩ := h
  refine (takes_unsigned 8).bind fun droppedBytes _ h => ?_
  obtain ⟨-, rfl⟩ := h
  refine takes_finish.bind fun _ _ h => ?_
  subst h
  refine (takes_reject _ _).bind fun _ _ h => .pure ?_
  obtain ⟨hzero, rfl⟩ := h
  refine orInvalid_eq_ok.mpr ⟨?_, by simp [toBeBytes]⟩
  rw [encodeLogDegraded, if_neg hzero, List.append_nil, List.append_nil, List.append_nil]
  rfl

theorem decode_encode_attachMode (mode : HolderAttachMode) :
    HolderAttachMode.decode mode.encode = .ok mode := by
  cases mode <;> rfl

theorem encode_attachMode_lt (mode : HolderAttachMode) : mode.encode < 2 ^ 8 := by
  cases mode <;> decide

theorem encode_decode_attachMode {n : Nat} {mode : HolderAttachMode}
    (h : HolderAttachMode.decode n = .ok mode) : mode.encode = n := by
  unfold HolderAttachMode.decode at h
  split at h <;> cases h <;> rfl

theorem sealed_attachRequest : readAttachRequest.Sealed :=
  (extends_unsigned 4).seals fun _ => (extends_unsigned 1).seals fun _ =>
    (Extends.convert _).seals fun _ => (extends_unsigned 4).seals fun _ =>
      .finish (.reject _ _ (.pure _))

theorem codec_attachRequest :
    Codec (orInvalid encodeAttachRequest) decodeAttachRequest (·.sessionId < 2 ^ 32) := by
  refine .of_sealed sealed_attachRequest fun request bytes hfits hencode => ?_
  obtain ⟨hencode, hne⟩ := orInvalid_eq_ok.mp hencode
  rw [encodeAttachRequest] at hencode
  split at hencode
  · exact absurd hencode.symm hne
  · rename_i hvalid
    subst hencode
    have hreplay : request.replayBytes < 2 ^ 32 := by
      have hmax : maxHolderRingBuffer < 2 ^ 32 := by decide
      omega
    rw [List.append_assoc, readAttachRequest, (reads_u32 hfits).decode_bind,
      (reads_u8 (encode_attachMode_lt _)).decode_bind,
      decode_convert (decode_encode_attachMode _), (reads_u32 hreplay).decode_last, decode_finish,
      decode_reject hvalid]
    rfl

theorem canonical_attachRequest :
    Canonical (orInvalid encodeAttachRequest) decodeAttachRequest := by
  refine .of_takes sealed_attachRequest ?_
  refine (takes_unsigned 4).bind fun sessionId _ h => ?_
  obtain ⟨-, rfl⟩ := h
  refine (takes_unsigned 1).bind fun n _ h => ?_
  obtain ⟨-, rfl⟩ := h
  refine (takes_convert _).bind fun mode _ h => ?_
  obtain ⟨hmode, rfl⟩ := h
  refine (takes_unsigned 4).bind fun replayBytes _ h => ?_
  obtain ⟨-, rfl⟩ := h
  refine takes_finish.bind fun _ _ h => ?_
  subst h
  refine (takes_reject _ _).bind fun _ _ h => .pure ?_
  obtain ⟨hvalid, rfl⟩ := h
  refine orInvalid_eq_ok.mpr ⟨?_, by simp [toBeBytes]⟩
  rw [encodeAttachRequest, if_neg hvalid, encode_decode_attachMode hmode]
  simp [putU32, putU8]

theorem sealed_inventoryRequest : readInventoryRequest.Sealed :=
  (extends_unsigned 4).seals fun _ => (extends_unsigned 2).seals fun _ =>
    .finish (.reject _ _ (.pure _))

theorem codec_inventoryRequest :
    Codec (orInvalid encodeInventoryRequest) decodeInventoryRequest (·.cursor < 2 ^ 32) := by
  refine .of_sealed sealed_inventoryRequest fun request bytes hfits hencode => ?_
  obtain ⟨rfl, hne⟩ := orInvalid_eq_ok.mp hencode
  have hvalid : validInventoryRequest request = true := by
    refine eq_true_of_ne_false fun hfalse => hne ?_
    rw [encodeInventoryRequest, if_neg (ne_true_of_eq_false hfalse)]
  exact decode_encodeInventoryRequest hvalid hfits

end fixedShape

section responses

theorem sealed_operationResponse : readOperationResponse.Sealed :=
  (extends_unsigned 4).seals fun _ => (extends_unsigned 1).seals fun _ =>
    (Extends.convert _).seals fun _ => (extends_string _).seals fun _ =>
      .finish (.reject _ _ (.pure _))

theorem codec_operationResponse :
    Codec encodeOperationResponse decodeOperationResponse (·.sessionId < 2 ^ 32) := by
  refine .of_sealed sealed_operationResponse fun response bytes hfits hencode => ?_
  obtain ⟨_, hvalid, hencode⟩ := bind_eq_ok.mp hencode
  obtain ⟨message, hmessage, hencode⟩ := bind_eq_ok.mp hencode
  cases hencode
  have hzero : response.sessionId ≠ 0 := (not_or.mp (rejectIf_eq_ok.mp hvalid)).1
  rw [List.append_assoc, readOperationResponse, (reads_u32 hfits).decode_bind,
    (reads_u8 (encode_status_lt _)).decode_bind, decode_convert (decode_encode_status _),
    (reads_string hmessage).decode_last, decode_finish, decode_reject hzero]
  rfl

theorem canonical_operationResponse :
    Canonical encodeOperationResponse decodeOperationResponse := by
  refine .of_takes sealed_operationResponse ?_
  refine (takes_unsigned 4).bind fun sessionId _ h => ?_
  obtain ⟨-, rfl⟩ := h
  refine (takes_unsigned 1).bind fun n _ h => ?_
  obtain ⟨-, rfl⟩ := h
  refine (takes_convert _).bind fun status _ h => ?_
  obtain ⟨hstatus, rfl⟩ := h
  refine (takes_string _).bind fun message field hmessage => ?_
  refine takes_finish.bind fun _ _ h => ?_
  subst h
  refine (takes_reject _ _).bind fun _ _ h => .pure ?_
  obtain ⟨hzero, rfl⟩ := h
  have hlength : (utf8 message).length ≤ maxHolderErrorMessage := by
    rw [putStringAllowEmpty] at hmessage
    split at hmessage
    · cases hmessage
    · rename_i hfits
      exact Nat.le_of_not_lt (not_or.mp hfits).1
  refine bind_eq_ok.mpr ⟨(), rejectIf_eq_ok.mpr ?_, bind_eq_ok.mpr ⟨field, hmessage, ?_⟩⟩
  · exact not_or.mpr ⟨hzero, Nat.not_lt.mpr hlength⟩
  · simp only [encode_decode_status hstatus, List.append_nil, List.append_assoc]
    rfl

/-- The fields of an exit event are values of their types. -/
structure SessionExitedEvent.Fits (event : SessionExitedEvent) : Prop where
  sessionId : event.sessionId < 2 ^ 32
  exitCode : -2 ^ 31 ≤ event.exitCode ∧ event.exitCode < 2 ^ 31

theorem extends_sessionExitedFields : readSessionExitedFields.Extends :=
  (extends_unsigned 4).bind fun _ => extends_i32.bind fun _ =>
    (extends_optionalString _).bind fun _ => .pure _

theorem reads_sessionExitedFields {event : SessionExitedEvent} {bytes : Bytes}
    (hfits : event.Fits) (hencode : encodeSessionExitedEvent event = .ok bytes) :
    readSessionExitedFields.Reads bytes event ∧ checkSessionExited event = .ok () := by
  obtain ⟨_, hzero, hencode⟩ := bind_eq_ok.mp hencode
  obtain ⟨_, hcwd, hencode⟩ := bind_eq_ok.mp hencode
  obtain ⟨field, hfield, hencode⟩ := bind_eq_ok.mp hencode
  cases hencode
  refine ⟨?_, bind_eq_ok.mpr ⟨(), hzero, hcwd⟩⟩
  rw [List.append_assoc]
  exact (reads_u32 hfits.sessionId).bind ((reads_i32 hfits.exitCode.1 hfits.exitCode.2).bind
    ((reads_optionalString hfield).andThen (.pure event)))

theorem sealed_sessionExited : readSessionExitedEvent.Sealed :=
  extends_sessionExitedFields.seals fun _ => .finish (.convert _ fun _ => .pure _)

theorem codec_sessionExited :
    Codec encodeSessionExitedEvent decodeSessionExitedEvent SessionExitedEvent.Fits := by
  refine .of_sealed sealed_sessionExited fun event bytes hfits hencode => ?_
  obtain ⟨hreads, hcheck⟩ := reads_sessionExitedFields hfits hencode
  rw [readSessionExitedEvent, hreads.decode_last, decode_finish, decode_convert hcheck]
  rfl

theorem nonempty_of_validateCwd {cwd : Option String} (h : validateCwd cwd = .ok ()) :
    ∀ path ∈ cwd, utf8 path ≠ [] := by
  rintro path ⟨⟩ hnil
  simp only [validateCwd] at h
  split at h
  · cases h
  · rw [if_pos (Or.inl hnil)] at h
    cases h

theorem canonical_sessionExited :
    Canonical encodeSessionExitedEvent decodeSessionExitedEvent := by
  refine .of_takes sealed_sessionExited ?_
  have hfields : readSessionExitedFields.Takes fun event bytes =>
      (∀ path ∈ event.cwd, utf8 path ≠ []) → ∃ field,
        putOptionalString event.cwd maxHolderPath = .ok field ∧
          bytes = putU32 event.sessionId ++ putI32 event.exitCode ++ field := by
    refine (takes_unsigned 4).bind fun sessionId _ h => ?_
    obtain ⟨-, rfl⟩ := h
    refine takes_i32.bind fun exitCode _ h => ?_
    subst h
    refine (takes_optionalString _).bind fun cwd field h => .pure fun hne => ?_
    exact ⟨field, h hne, by simp [putU32]⟩
  refine hfields.bind fun event bytes hbytes => takes_finish.bind fun _ _ h => ?_
  subst h
  refine (takes_convert _).bind fun _ _ h => .pure ?_
  obtain ⟨hcheck, rfl⟩ := h
  obtain ⟨_, hzero, hcwd⟩ := bind_eq_ok.mp hcheck
  obtain ⟨field, hfield, rfl⟩ := hbytes (nonempty_of_validateCwd hcwd)
  simp only [List.append_nil]
  exact bind_eq_ok.mpr ⟨(), hzero, bind_eq_ok.mpr ⟨(), hcwd, bind_eq_ok.mpr ⟨field, hfield, rfl⟩⟩⟩

/-- The fields of an exit context are values of their types. -/
structure ExitContextResponse.Fits (response : ExitContextResponse) : Prop where
  sessionId : response.sessionId < 2 ^ 32
  exitCode : ∀ code ∈ response.exitCode, -2 ^ 31 ≤ code ∧ code < 2 ^ 31

theorem extends_exitContextFields : readExitContextFields.Extends :=
  (extends_unsigned 4).bind fun _ => (extends_unsigned 1).bind fun _ =>
    (Extends.convert _).bind fun _ => extends_bool.bind fun _ => extends_i32.bind fun _ =>
      (extends_optionalString _).bind fun _ => .pure _

theorem reads_exitContextFields {response : ExitContextResponse} {bytes : Bytes}
    (hfits : response.Fits) (hencode : encodeExitContextResponse response = .ok bytes) :
    readExitContextFields.Reads bytes response ∧
      validateExitContextResponse response = .ok () := by
  obtain ⟨_, hvalid, hencode⟩ := bind_eq_ok.mp hencode
  obtain ⟨field, hfield, hencode⟩ := bind_eq_ok.mp hencode
  cases hencode
  have hexit : (if response.exitCode.isSome then some (response.exitCode.getD 0) else none) =
      response.exitCode := by
    cases response.exitCode <;> rfl
  have hcode : i32.Reads (putI32 (response.exitCode.getD 0)) (response.exitCode.getD 0) := by
    cases hsome : response.exitCode with
    | none => exact reads_i32 (by decide) (by decide)
    | some code => exact reads_i32 (hfits.exitCode code hsome).1 (hfits.exitCode code hsome).2
  refine ⟨?_, hvalid⟩
  simp only [List.append_assoc]
  refine (reads_u32 hfits.sessionId).bind ((reads_u8 (encode_status_lt _)).bind ?_)
  refine .convert (decode_encode_status _) ((reads_bool _).bind (hcode.bind ?_))
  refine (reads_optionalString hfield).andThen ?_
  rw [hexit]
  exact .pure response

theorem sealed_exitContext : readExitContextResponse.Sealed :=
  extends_exitContextFields.seals fun _ => .finish (.convert _ fun _ => .pure _)

theorem codec_exitContext :
    Codec encodeExitContextResponse decodeExitContextResponse ExitContextResponse.Fits := by
  refine .of_sealed sealed_exitContext fun response bytes hfits hencode => ?_
  obtain ⟨hreads, hvalid⟩ := reads_exitContextFields hfits hencode
  rw [readExitContextResponse, hreads.decode_last, decode_finish, decode_convert hvalid]
  rfl

theorem extends_entry : decodeEntry.Extends :=
  (extends_unsigned 4).bind fun _ => (extends_unsigned 4).bind fun _ =>
    (extends_unsigned 1).bind fun _ => (Extends.convert _).bind fun _ => extends_bool.bind fun _ =>
      extends_i32.bind fun _ => (extends_unsigned 8).bind fun _ => (extends_unsigned 8).bind fun _ =>
        (extends_unsigned 4).bind fun _ => extends_bool.bind fun _ =>
          (extends_unsigned 1).bind fun _ => (Extends.convert _).bind fun _ =>
            extends_bool.bind fun _ => (Extends.convert _).bind fun _ => .pure _

theorem sealed_inventoryResponse : readInventoryResponse.Sealed :=
  (extends_unsigned 4).seals fun _ => (Extends.reject _ _).seals fun _ =>
    (extends_unsigned 2).seals fun _ => (Extends.reject _ _).seals fun _ =>
      (extends_repeated extends_entry _).seals fun _ => .finish (.pure _)

/-- The fields of a page are values of their types. -/
structure InventoryResponse.Fits (response : InventoryResponse) : Prop where
  entries : ∀ entry ∈ response.entries, entry.Fits
  nextCursor : ∀ cursor, response.nextCursor = some cursor → cursor < 2 ^ 32

theorem codec_inventoryResponse :
    Codec encodeInventoryResponse decodeInventoryResponse InventoryResponse.Fits :=
  .of_sealed sealed_inventoryResponse fun _ _ hfits hencode =>
    decode_encodeInventoryResponse hfits.entries hfits.nextCursor hencode

end responses

section environment

variable [SerdeJson]

theorem extends_environmentField : readEnvironmentField.Extends := by
  refine (extends_optionalBytesU32 _).bind fun encoded => ?_
  split
  · exact .pure _
  · split
    · exact .pure _
    · exact .throw _

theorem sealed_sessionExitedV2 : readSessionExitedEventV2.Sealed :=
  extends_sessionExitedFields.seals fun _ => extends_environmentField.seals fun _ =>
    .finish (.convert _ fun _ => .pure _)

theorem sealed_exitContextV2 : readExitContextResponseV2.Sealed :=
  extends_exitContextFields.seals fun _ => extends_environmentField.seals fun _ =>
    .finish (.convert _ fun _ => .pure _)

variable [LawfulSerdeJson]

theorem decode_encodeEnvironmentSnapshot {snapshot : EnvironmentSnapshot} {encoded : Bytes}
    (h : encodeEnvironmentSnapshot snapshot = .ok encoded) :
    decodeEnvironmentSnapshot encoded = .ok snapshot := by
  obtain ⟨_, hlimits, h⟩ := bind_eq_ok.mp h
  cases hvec : SerdeJson.snapshotToVec snapshot with
  | error e =>
    rw [hvec] at h
    cases h
  | ok bytes =>
    rw [hvec] at h
    obtain ⟨_, hsize, h⟩ := bind_eq_ok.mp h
    cases h
    refine bind_eq_ok.mpr ⟨(), hsize, ?_⟩
    rw [LawfulSerdeJson.round_trip hvec]
    exact bind_eq_ok.mpr ⟨(), hlimits, rfl⟩

theorem reads_environmentField {environment : Option EnvironmentSnapshot} {bytes : Bytes}
    (h : encodeEnvironmentField environment = .ok bytes) :
    readEnvironmentField.Reads bytes environment := by
  cases environment with
  | none =>
    have hput : putOptionalBytesU32 none maxShellEnvironmentBytes = .ok bytes := h
    exact (reads_optionalBytesU32 (by decide) hput).andThen (.pure none)
  | some snapshot =>
    simp only [encodeEnvironmentField] at h
    cases hencoded : encodeEnvironmentSnapshot snapshot with
    | error e =>
      rw [hencoded] at h
      cases h
    | ok encoded =>
      rw [hencoded] at h
      refine (reads_optionalBytesU32 (by decide) h).andThen ?_
      simp only [decode_encodeEnvironmentSnapshot hencoded]
      exact .pure _

theorem codec_sessionExitedV2 :
    Codec encodeSessionExitedEventV2 decodeSessionExitedEventV2 (·.toSessionExitedEvent.Fits) := by
  refine .of_sealed sealed_sessionExitedV2 fun event bytes hfits hencode => ?_
  obtain ⟨fields, hfields, hencode⟩ := bind_eq_ok.mp hencode
  obtain ⟨field, hfield, hencode⟩ := bind_eq_ok.mp hencode
  cases hencode
  obtain ⟨hreads, hcheck⟩ := reads_sessionExitedFields hfits hfields
  rw [readSessionExitedEventV2, hreads.decode_bind, (reads_environmentField hfield).decode_last,
    decode_finish, decode_convert hcheck]
  rfl

theorem codec_exitContextV2 :
    Codec encodeExitContextResponseV2 decodeExitContextResponseV2
      (·.toExitContextResponse.Fits) := by
  refine .of_sealed sealed_exitContextV2 fun response bytes hfits hencode => ?_
  obtain ⟨_, hvalid, hencode⟩ := bind_eq_ok.mp hencode
  obtain ⟨fields, hfields, hencode⟩ := bind_eq_ok.mp hencode
  obtain ⟨field, hfield, hencode⟩ := bind_eq_ok.mp hencode
  cases hencode
  obtain ⟨hreads, -⟩ := reads_exitContextFields hfits hfields
  rw [readExitContextResponseV2, hreads.decode_bind, (reads_environmentField hfield).decode_last,
    decode_finish, decode_convert hvalid]
  rfl

end environment

end PersistShell

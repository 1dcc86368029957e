import PersistShell.Holder.Server

/-! Which system calls each part of the holder may fail with. A part that returns has not
seen any of its calls on connections and terminals fail, and one that fails has seen at most
one, of the kinds listed for it. -/

namespace PersistShell
namespace Holder
open Program

/-- Only a call in `A` is ever reported to have failed, and `m` fails then. -/
def Reports {α : Type} (A : IoCall → Prop) (m : Holder α) : Prop :=
  ∀ w, match m w with
    | (.ok _, w') => w'.failures = w.failures
    | (.err _, w') => w'.failures = w.failures ∨
        ∃ f : Failure, A f.call ∧ w'.failures = f :: w.failures
    | (.panic, _) => True

section rules
variable {α β : Type} {A : IoCall → Prop} {m : Holder α}

theorem Reports.mono {A' : IoCall → Prop} (h : Reports A m) (hA : ∀ c, A c → A' c) :
    Reports A' m := by
  intro w
  have := h w
  revert this
  rcases m w with ⟨_ | _ | _, w'⟩
  · exact id
  · exact Or.imp_right fun ⟨f, hf, hw⟩ => ⟨f, hA _ hf, hw⟩
  · exact id

theorem Reports.pure (a : α) : Reports A (Pure.pure a : Holder α) := fun _ => rfl

theorem Reports.fail (e : PersistError) : Reports A (Program.fail e : Holder α) := fun _ => .inl rfl

theorem Reports.read (f : World → α) : Reports A (Program.read f : Holder α) := fun _ => rfl

theorem Reports.update {f : World → World} (h : ∀ w, (f w).failures = w.failures) :
    Reports A (Program.update f : Holder Unit) := h

theorem Reports.bind {f : α → Holder β} (hm : Reports A m) (hf : ∀ a, Reports A (f a)) :
    Reports A (m >>= f) := by
  intro w
  have := hm w
  rw [bind_apply]
  revert this
  rcases m w with ⟨a | e | _, w'⟩
  · intro hw
    have := hf a w'
    dsimp only at hw ⊢
    rw [← hw]
    exact this
  · exact id
  · exact id

theorem Reports.attempt (h : Reports (fun _ => False) m) : Reports A (Program.attempt m) := by
  intro w
  have := h w
  rw [attempt_apply]
  revert this
  rcases m w with ⟨a | e | _, w'⟩
  · exact id
  · rintro (h | ⟨f, hf, -⟩)
    · exact h
    · exact hf.elim
  · exact id

theorem Reports.unwrap (o : Option α) : Reports A (Program.unwrap o : Holder α) := by
  cases o with
  | none => exact fun _ => trivial
  | some a => exact Reports.pure a

theorem Reports.lift (r : Except PersistError α) : Reports A (Program.lift r : Holder α) := by
  cases r with
  | ok a => exact Reports.pure a
  | error e => exact Reports.fail e

theorem Reports.reject (c : Prop) [Decidable c] (e : PersistError) :
    Reports A (rejectIf c e : Holder Unit) := by
  unfold rejectIf
  split
  · exact Reports.fail e
  · exact Reports.pure ()

theorem Reports.forEach {f : β → Holder Unit} (h : ∀ b, Reports A (f b)) (bs : List β) :
    Reports A (Program.forEach bs f) := by
  induction bs with
  | nil => exact Reports.pure ()
  | cons b bs ih => exact Reports.bind (h b) fun _ => ih

theorem Reports.abort : Reports A (Program.abort : Holder α) := fun _ => trivial

theorem failIo_reports {call : IoCall} (h : A call) (source : Errno) :
    Reports A (failIo call source : Holder α) := fun _ => .inr ⟨⟨call, source⟩, h, rfl⟩

end rules

section calls
variable {A : IoCall → Prop} {fd : Fd} {s : SessionId}

theorem failures_act (w : World) (a : Activity) : (w.act a).failures = w.failures := by
  unfold World.act
  split <;> rfl

theorem failures_foldl_act (w : World) (as : List Activity) :
    (as.foldl World.act w).failures = w.failures := by
  induction as generalizing w with
  | nil => rfl
  | cons a as ih => exact (ih _).trans (failures_act w a)

theorem call_reports : Reports A call := by
  intro w
  unfold call
  split <;> rename_i h <;> split at h <;> cases h
  · rfl
  · exact failures_foldl_act _ _

theorem note_reports (n : Note) : Reports A (note n) := Reports.update fun _ => rfl

theorem server_reports : Reports A server := Reports.read _

theorem modifyServer_reports (f : HolderServer → HolderServer) : Reports A (modifyServer f) :=
  Reports.update fun _ => rfl

theorem modifyConnection_reports (f : Connection → Connection) :
    Reports A (modifyConnection fd f) := modifyServer_reports _

theorem modifyRuntime_reports (f : Runtime → Runtime) : Reports A (modifyRuntime f) :=
  modifyServer_reports _

theorem modifySession_reports (f : Session → Session) : Reports A (modifySession s f) :=
  modifyRuntime_reports _

theorem connection_reports : Reports A (connection fd) := .bind server_reports fun _ => .unwrap _

theorem nowMs_reports : Reports A nowMs := .bind call_reports fun _ => .pure _

theorem control_reports (operation : String) : Reports A (control operation) := by
  refine .bind call_reports fun turn => ?_
  cases turn.fault with
  | none => exact .pure _
  | some source => exact .fail _

theorem epollControl_reports (writable : Bool) : Reports A (epollControl fd writable) :=
  .bind (control_reports _) fun _ => .update fun _ => rfl

theorem reactorAdd_reports (writable : Bool) : Reports A (reactorAdd fd writable) :=
  .bind server_reports fun _ => .bind (modifyServer_reports _) fun _ =>
    .bind (epollControl_reports _) fun _ => modifyServer_reports _

theorem reactorModify_reports (writable : Bool) : Reports A (reactorModify fd writable) :=
  .bind server_reports fun _ => .bind (.reject _ _) fun _ => epollControl_reports _

theorem reactorRemove_reports : Reports A (reactorRemove fd) :=
  .bind (modifyServer_reports _) fun _ => .bind call_reports fun _ => .update fun _ => rfl

theorem protocol_reports {α : Type} (context : String) (r : Except HolderProtocolError α) :
    Reports A (protocol context r) := .lift _

theorem generation_reports : Reports A generation := .bind server_reports fun _ => .pure _

theorem eventFrame_reports (kind : HolderMessageType) (payload : Bytes) :
    Reports A (eventFrame kind payload) := .bind generation_reports fun _ => .pure _

theorem updateConnection_reports (f : Connection → Connection) :
    Reports A (updateConnection fd f) :=
  .bind connection_reports fun _ => modifyConnection_reports _

theorem queueFrame_reports (frame : HolderFrame) : Reports A (queueFrame fd frame) := by
  refine .bind server_reports fun h => ?_
  split
  · exact .fail _
  · exact .bind (.lift _) fun _ => .bind (modifyConnection_reports _) fun _ =>
      reactorModify_reports _

theorem respond_reports (request : HolderFrame) (kind : HolderMessageType) (payload : Bytes) :
    Reports A (respond fd request kind payload) :=
  .bind generation_reports fun _ => queueFrame_reports _

theorem operationResponse_reports (request : HolderFrame) (kind : HolderMessageType)
    (response : OperationResponse) : Reports A (operationResponse fd request kind response) :=
  .bind (protocol_reports _ _) fun _ => respond_reports _ _ _

end calls

section connections
variable {A : IoCall → Prop} {fd : Fd} {s : SessionId} {frame : HolderFrame} {minor : Nat}

theorem detachConnection_reports : Reports A (detachConnection fd) := by
  refine .bind server_reports fun h => .bind (modifyConnection_reports _) fun _ =>
    .bind (note_reports _) fun _ => ?_
  split
  · exact .pure _
  · split
    · exact modifyServer_reports _
    · exact .pure _

theorem removeConnection_reports : Reports A (removeConnection fd) :=
  .bind reactorRemove_reports fun _ => .bind detachConnection_reports fun _ =>
    .bind (modifyServer_reports _) fun _ => note_reports _

theorem disconnect_reports : Reports A (disconnect fd) := by
  refine .bind removeConnection_reports fun _ => .bind server_reports fun h => ?_
  split
  · exact .bind (modifyServer_reports _) fun _ => .forEach (fun _ => removeConnection_reports) _
  · exact .pure _

theorem queueOrDisconnect_reports (n : Option Note) :
    Reports A (queueOrDisconnect fd frame n) := by
  refine .bind (.attempt (queueFrame_reports _)) fun r => ?_
  cases r with
  | ok _ => exact .forEach (fun _ => note_reports _) _
  | error _ => exact disconnect_reports

theorem sendControl_reports : Reports A (sendControl frame) := by
  refine .bind server_reports fun h => ?_
  split
  · exact .pure _
  · exact queueOrDisconnect_reports _

theorem releaseWriter_reports : Reports A (releaseWriter s) := by
  refine .bind server_reports fun h => ?_
  split
  · exact .pure _
  · exact .bind (modifyServer_reports _) fun _ => .bind (note_reports _) fun _ =>
      .bind (eventFrame_reports _ _) fun _ => queueOrDisconnect_reports _

theorem detachSession_reports : Reports A (detachSession s) :=
  .bind server_reports fun _ => .bind (modifyServer_reports _) fun _ =>
    .forEach (fun _ => note_reports _) _

theorem dropClosedController_reports : Reports A dropClosedController := by
  refine .bind server_reports fun h => ?_
  split
  · exact .pure _
  · split
    · refine .bind call_reports fun turn => ?_
      split
      · exact disconnect_reports
      · exact .pure _
    · exact .pure _

theorem handleControlHello_reports : Reports A (handleControlHello fd minor frame) := by
  refine .bind (.reject _ _) fun _ => .bind dropClosedController_reports fun _ =>
    .bind (protocol_reports _ _) fun hello => .bind connection_reports fun c =>
    .bind server_reports fun h => .bind generation_reports fun _ =>
    .bind (queueFrame_reports _) fun _ => ?_
  split
  · exact .bind (updateConnection_reports _) fun _ => modifyServer_reports _
  · exact updateConnection_reports _

theorem handleDataHello_reports : Reports A (handleDataHello fd minor frame) := by
  refine .bind (protocol_reports _ _) fun hello => .bind connection_reports fun c =>
    .bind server_reports fun h => ?_
  dsimp only
  cases dataHelloAccepted h c.peer hello minor with
  | true =>
    exact .bind (updateConnection_reports _) fun _ => .bind generation_reports fun _ =>
      .bind (queueFrame_reports _) fun _ => updateConnection_reports _
  | false =>
    exact .bind generation_reports fun _ => .bind (queueFrame_reports _) fun _ =>
      updateConnection_reports _

theorem handleHello_reports : Reports A (handleHello fd minor frame) := by
  unfold handleHello
  split
  · exact handleControlHello_reports
  · exact handleDataHello_reports
  · exact .fail _

theorem handleCapability_reports : Reports A (handleCapability fd minor frame) := by
  refine .bind connection_reports fun c => .bind (.reject _ _) fun _ =>
    .bind (protocol_reports _ _) fun request => .bind (.reject _ _) fun _ =>
    .bind server_reports fun h => ?_
  split
  · exact .fail _
  · exact .bind (.reject _ _) fun _ => .bind (modifyServer_reports _) fun _ =>
      .bind (updateConnection_reports _) fun _ => .bind generation_reports fun _ =>
      queueFrame_reports _

end connections

section sessions
variable {A : IoCall → Prop} {fd : Fd} {s : SessionId} {frame : HolderFrame} {minor : Nat}

theorem openSession_reports (h : A (.openPty s)) : Reports A (openSession s) := by
  refine .bind call_reports fun turn => ?_
  split
  · exact failIo_reports h _
  · exact fun _ => rfl

theorem create_reports (request : CreateSessionRequest) (h : A (.openPty request.sessionId)) :
    Reports A (create request) := by
  refine .bind server_reports fun server => ?_
  dsimp only
  split
  · exact .pure _
  · split
    · exact .pure _
    · exact .bind (openSession_reports h) fun _ => .bind nowMs_reports fun _ =>
        .bind (.unwrap _) fun _ => .bind (modifyRuntime_reports _) fun _ =>
        .bind (note_reports _) fun _ => .pure _

theorem writeInput_reports (bytes : Bytes) : Reports A (writeInput bytes) := by
  refine .bind call_reports fun turn => ?_
  split <;> exact .pure _

theorem flushInputLoop_reports (h : A (.writePty s)) (fuel : Nat) :
    Reports A (flushInputLoop s fuel) := by
  induction fuel with
  | zero => exact .abort
  | succ fuel ih =>
    refine .bind server_reports fun server => ?_
    split
    · exact .abort
    · split
      · exact .pure _
      · exact .pure _
      · refine .bind (writeInput_reports _) fun r => ?_
        split
        · exact .pure _
        · exact .bind (modifySession_reports _) fun _ => ih
        · exact .pure _
        · exact failIo_reports h _

theorem flushInput_reports (h : A (.writePty s)) : Reports A (flushInput s) :=
  .bind server_reports fun _ => .bind (.unwrap _) fun _ => .bind (flushInputLoop_reports h _)
    fun _ => .bind server_reports fun _ => .pure _

theorem queueInput_reports (h : A (.writePty s)) (data : Bytes) : Reports A (queueInput s data) := by
  refine .bind server_reports fun server => ?_
  split
  · exact .fail _
  · exact .bind (.reject _ _) fun _ => .bind (.reject _ _) fun _ => .bind nowMs_reports fun _ =>
      .bind (modifySession_reports _) fun _ => flushInput_reports h

theorem resize_reports : Reports A (resize s) := by
  refine .bind server_reports fun server => ?_
  split
  · exact .fail _
  · exact control_reports _

theorem signal_reports : Reports A (signal s) := by
  refine .bind server_reports fun server => ?_
  split
  · exact .fail _
  · exact control_reports _

theorem signalChild_reports : Reports A signalChild := .bind call_reports fun _ => .pure _

theorem close_reports : Reports A (close s) := by
  refine .bind server_reports fun server => ?_
  split
  · exact .pure _
  · split
    · exact .pure _
    · split
      · exact .bind signalChild_reports fun _ => .bind (modifySession_reports _) fun _ => .pure _
      · exact .pure _

theorem kill_reports : Reports A (kill s) := by
  refine .bind server_reports fun server => ?_
  split
  · exact .pure _
  · split
    · refine .bind signalChild_reports fun sent => ?_
      split <;> exact .pure _
    · exact .pure _

theorem retireExited_reports : Reports A (retireExited s) := by
  refine .bind server_reports fun server => ?_
  split
  · exact .pure _
  · split
    · exact .pure _
    · refine .bind call_reports fun turn => ?_
      split
      · exact .pure _
      · exact .bind server_reports fun _ => .bind (note_reports _) fun _ =>
          .bind (modifyRuntime_reports _) fun _ => .pure _

theorem requireWriter_reports : Reports A (requireWriter fd) := by
  refine .bind connection_reports fun c => ?_
  split
  · exact .fail _
  · exact .bind server_reports fun _ => .bind (.reject _ _) fun _ => .pure _

theorem handleInput_reports (h : ∀ s, A (.writePty s)) : Reports A (handleInput fd frame) := by
  refine .bind requireWriter_reports fun s => .bind (note_reports _) fun _ =>
    .bind (queueInput_reports (h s) _) fun _ => .bind server_reports fun server => ?_
  split
  · exact .pure _
  · exact reactorModify_reports _

theorem handleResize_reports : Reports A (handleResize fd frame) :=
  .bind requireWriter_reports fun _ => .bind (protocol_reports _ _) fun _ =>
    .bind (note_reports _) fun _ => resize_reports

theorem handleSignalFrame_reports : Reports A (handleSignalFrame fd frame) :=
  .bind requireWriter_reports fun _ => .bind (protocol_reports _ _) fun _ =>
    .bind (note_reports _) fun _ => signal_reports

theorem claimWriter_reports (mode : HolderAttachMode) : Reports A (claimWriter fd s mode) := by
  refine .bind server_reports fun server => .bind (note_reports _) fun _ => ?_
  split
  · exact .bind (modifyServer_reports _) fun _ => .pure _
  · exact .pure _

theorem revokeWriter_reports (previous : Option Fd) : Reports A (revokeWriter previous s) := by
  unfold revokeWriter
  split
  · exact .pure _
  · exact .bind (eventFrame_reports _ _) fun _ => queueOrDisconnect_reports _

theorem attach_reports : Reports A (attach fd frame) := by
  refine .bind (protocol_reports _ _) fun request => .bind server_reports fun server => ?_
  split
  · exact operationResponse_reports _ _ _
  · refine .bind detachConnection_reports fun _ => .bind (claimWriter_reports _) fun _ =>
      .bind (revokeWriter_reports _) fun _ => .bind (updateConnection_reports _) fun _ =>
      .bind (operationResponse_reports _ _ _) fun _ => .bind server_reports fun _ =>
      .bind (.unwrap _) fun replay => .bind (.forEach (fun chunk => ?_) _) fun _ => ?_
    · exact .bind (eventFrame_reports _ _) fun _ => queueFrame_reports _
    · split
      · exact .bind (eventFrame_reports _ _) fun _ => queueFrame_reports _
      · exact .pure _

theorem handleData_reports (h : ∀ s, A (.writePty s)) : Reports A (handleData fd frame) := by
  unfold handleData
  split
  · exact attach_reports
  · split
    · exact detachConnection_reports
    · exact .fail _
  · exact handleInput_reports h
  · exact handleResize_reports
  · exact handleSignalFrame_reports
  · exact .fail _

theorem handleCreate_reports (h : ∀ s, A (.openPty s)) :
    Reports A (handleCreate fd minor frame) := by
  refine .bind (protocol_reports _ _) fun request => .bind (create_reports _ (h _)) fun r => ?_
  dsimp only
  split
  · exact operationResponse_reports _ _ _
  · exact .bind (reactorAdd_reports _) fun _ => operationResponse_reports _ _ _

variable [SerdeJson]

theorem handleControl_reports (h : ∀ s, A (.openPty s)) :
    Reports A (handleControl fd minor frame) := by
  have hrequest : ∀ {request : OperationRequest → Holder OperationResponse}
      (context : String) (kind : HolderMessageType), (∀ q, Reports A (request q)) →
      Reports A (do
        let request' ← protocol context (decodeOperationRequest frame.payload)
        operationResponse fd frame kind (← request request')) := fun _ _ hr =>
    .bind (protocol_reports _ _) fun _ => .bind (hr _) fun _ => operationResponse_reports _ _ _
  unfold handleControl
  split
  · exact handleCapability_reports
  · refine .bind connection_reports fun c => .bind (.reject _ _) fun _ => ?_
    split
    · exact .bind (protocol_reports _ _) fun _ => .bind server_reports fun _ =>
        .bind (protocol_reports _ _) fun _ => respond_reports _ _ _
    · exact handleCreate_reports h
    · exact hrequest _ _ fun _ => close_reports
    · exact hrequest _ _ fun _ => kill_reports
    · exact .bind (protocol_reports _ _) fun _ => .bind server_reports fun _ =>
        .bind (protocol_reports _ _) fun _ => respond_reports _ _ _
    · exact hrequest _ _ fun _ => retireExited_reports
    · split
      · exact .bind (respond_reports _ _ _) fun _ => modifyServer_reports _
      · exact .fail _
    · exact .fail _

theorem processFrame_reports (hopen : ∀ s, A (.openPty s)) (hwrite : ∀ s, A (.writePty s)) :
    Reports A (processFrame fd minor frame) := by
  refine .bind connection_reports fun c => ?_
  split
  · exact handleHello_reports
  · exact handleControl_reports hopen
  · exact .bind (.reject _ _) fun _ => handleData_reports hwrite

end sessions

section events
variable {A : IoCall → Prop} {fd : Fd} {s : SessionId}

theorem readLoop_reports (h : A (.readPeer fd)) (fuel : Nat) : Reports A (readLoop fd fuel) := by
  induction fuel with
  | zero => exact .abort
  | succ fuel ih =>
    refine .bind call_reports fun turn => ?_
    split
    · exact .pure _
    · exact failIo_reports h _
    · split
      · exact .pure _
      · exact .pure _
      · exact .bind connection_reports fun _ => .bind (.lift _) fun _ =>
          .bind (modifyConnection_reports _) fun _ => .bind ih fun _ => .pure _

theorem receiveFrames_reports (h : A (.readPeer fd)) (events : Nat) :
    Reports A (receiveFrames fd events) := by
  unfold receiveFrames
  split
  · exact .bind connection_reports fun _ => .bind (.read _) fun _ => readLoop_reports h _
  · exact .pure _

theorem flushLoop_reports (h : A (.writePeer fd)) (fuel : Nat) : Reports A (flushLoop fd fuel) := by
  induction fuel with
  | zero => exact .abort
  | succ fuel ih =>
    refine .bind connection_reports fun c => ?_
    split
    · exact .pure _
    · refine .bind call_reports fun turn => ?_
      split
      · exact .pure _
      · exact failIo_reports h _
      · split
        · exact .pure _
        · exact .bind (modifyConnection_reports _) fun _ => ih

theorem flush_reports (h : A (.writePeer fd)) : Reports A (flush fd) := by
  refine .bind connection_reports fun _ => .bind (flushLoop_reports h _) fun open_ => ?_
  split
  · exact .bind connection_reports fun _ => .pure _
  · exact .pure _

theorem flushConnection_reports (h : A (.writePeer fd)) (events : Nat) :
    Reports A (flushConnection fd events) := by
  unfold flushConnection
  split
  · refine .bind (flush_reports h) fun open_ => ?_
    split
    · exact .bind disconnect_reports fun _ => .pure _
    · refine .bind server_reports fun h => ?_
      split
      · exact .pure _
      · exact reactorModify_reports _
  · refine .bind server_reports fun h => ?_
    split
    · exact .pure _
    · exact reactorModify_reports _

theorem readOutput_reports (len : Nat) : Reports A (readOutput fd len) := by
  refine .bind call_reports fun turn => .bind (.read _) fun t => ?_
  split
  · exact .pure _
  · split
    · split <;> exact .pure _
    · exact .bind (.update fun _ => rfl) fun _ => .pure _

theorem storeChunk_reports (chunk : Bytes) : Reports A (storeChunk s chunk) := by
  refine .bind (modifySession_reports _) fun _ => .bind (note_reports _) fun _ =>
    .bind nowMs_reports fun _ => .bind (modifySession_reports _) fun _ =>
    .bind server_reports fun h => ?_
  split
  · exact .bind call_reports fun _ => .pure _
  · exact .pure _

theorem drainLoop_reports (h : A (.readPty s)) (fuel : Nat) : Reports A (drainLoop s fd fuel) := by
  have hdry : Reports A (do
      noteDry fd
      return ([], 0) : Holder (List Bytes × Nat)) :=
    .bind (.bind (.read _) fun _ => note_reports _) fun _ => .pure _
  induction fuel with
  | zero => exact .abort
  | succ fuel ih =>
    refine .bind (readOutput_reports _) fun r => ?_
    split
    · exact hdry
    · exact .bind (storeChunk_reports _) fun _ => .bind ih fun _ => .pure _
    · exact hdry
    · exact failIo_reports h _

theorem drainOutput_reports (h : ∀ s, A (.readPty s)) : Reports A (drainOutput fd) := by
  refine .bind server_reports fun server => ?_
  split
  · exact .fail _
  · refine .bind server_reports fun _ => .bind (.unwrap _) fun session => ?_
    have hlast : ∀ (s : SessionId) (r : List Bytes × Nat), Reports A (do
        if r.2 > 0 then modifyRuntime (·.degradeLog s)
        return { sessionId := s, chunks := r.1, logDropped := r.2 : OutputBatch }) := by
      intro s r
      split
      · exact .bind (modifyRuntime_reports _) fun _ => .pure _
      · exact .pure _
    split
    · exact .bind (.read _) fun _ => .bind (drainLoop_reports (h _) _) fun r => hlast _ r
    · exact hlast _ ([], 0)

theorem publishOutput_reports (batch : OutputBatch) : Reports A (publishOutput batch) := by
  refine .bind server_reports fun h => .bind (.forEach (fun chunk => ?_) _) fun _ => ?_
  · exact .bind (eventFrame_reports _ _) fun _ =>
      .forEach (fun _ => queueOrDisconnect_reports _) _
  · split
    · exact .bind (eventFrame_reports _ _) fun _ => sendControl_reports
    · exact .pure _

theorem handlePty_reports (hread : ∀ s, A (.readPty s)) (hwrite : ∀ s, A (.writePty s))
    (events : Nat) : Reports A (handlePty fd events) := by
  have hlast : Reports A (if hasAny events epollOut then do
        let s ← unwrap ((← server).runtime.sessionForPty fd)
        let pending ← flushInput s
        reactorModify fd pending
      else pure ()) := by
    split
    · exact .bind server_reports fun _ => .bind (.unwrap _) fun _ =>
        .bind (flushInput_reports (hwrite _)) fun _ => reactorModify_reports _
    · exact .pure _
  by_cases h : hasAny events (epollIn ||| epollHup ||| epollErr) = true
  · simp only [handlePty, h, if_true]
    exact .bind (drainOutput_reports hread) fun _ => .bind (publishOutput_reports _) fun _ => hlast
  · simp only [handlePty, h]
    exact hlast

theorem handleLogFailures_reports : Reports A handleLogFailures :=
  .bind call_reports fun _ => .forEach (fun _ => .bind (modifyRuntime_reports _) fun _ =>
    .bind (eventFrame_reports _ _) fun _ => sendControl_reports) _

theorem pollExit_reports (pty : PtySession) : Reports A (pollExit pty) := by
  unfold pollExit
  split
  · exact .pure _
  · refine .bind call_reports fun turn => ?_
    split
    · exact .fail _
    · refine .bind (.read _) fun _ => ?_
      split <;> first | exact .pure _ | exact .fail _

theorem dropPty_reports (exited : ExitedSession) : Reports A (dropPty exited) := fun _ => rfl

variable [SerdeJson]

theorem pollSession_reports : Reports A (pollSession s) := by
  refine .bind server_reports fun h => ?_
  split
  · exact .pure _
  · split
    · exact .pure _
    · refine .bind (pollExit_reports _) fun code => ?_
      split
      · exact .pure _
      · exact .bind (.bind call_reports fun _ => .pure _) fun _ => .bind nowMs_reports fun _ =>
          .bind (modifySession_reports _) fun _ => .pure _

theorem pollSessions_reports (ids : List SessionId) : Reports A (pollSessions ids) := by
  induction ids with
  | nil => exact .pure _
  | cons s ids ih => exact .bind pollSession_reports fun _ => .bind ih fun _ => .pure _

theorem reapExited_reports : Reports A reapExited :=
  .bind server_reports fun _ => .bind (pollSessions_reports _) fun _ =>
    .bind (.forEach dropPty_reports _) fun _ => .pure _

theorem announceExit_reports (exited : ExitedSession) : Reports A (announceExit exited) := by
  have hlast : ∀ legacyPayload v2Payload, Reports A
      (announceToController exited.sessionId legacyPayload v2Payload) := by
    intro legacyPayload v2Payload
    refine .bind server_reports fun h => ?_
    split
    · exact .pure _
    · exact .bind (eventFrame_reports _ _) fun _ => queueOrDisconnect_reports _
  refine .bind reactorRemove_reports fun _ => .bind releaseWriter_reports fun _ =>
    .bind (protocol_reports _ _) fun _ => .bind (protocol_reports _ _) fun _ =>
    .bind server_reports fun _ => .bind (.forEach (fun _ => .bind connection_reports fun _ =>
      .bind (eventFrame_reports _ _) fun _ => queueOrDisconnect_reports _) _) fun _ => ?_
  split
  · exact .bind detachSession_reports fun _ => hlast _ _
  · exact hlast _ _

theorem handleSignal_reports (h : ∀ s, A (.readPty s)) : Reports A handleSignal := by
  refine .bind (.bind call_reports fun turn => ?_) fun signal => ?_
  · split
    · exact .fail _
    · exact .pure _
  · split
    · exact .pure _
    · split
      · refine .bind (.bind server_reports fun _ => .bind (.forEach (fun _ => ?_) _) fun _ =>
          .bind reapExited_reports fun _ => .forEach announceExit_reports _) fun _ => .pure _
        exact .bind (drainOutput_reports h) fun _ => publishOutput_reports _
      · exact .pure _

end events

end Holder
end PersistShell

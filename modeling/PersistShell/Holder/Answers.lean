import PersistShell.Holder.Quiet

/-! The requests that the holder answers without a change that the invariant sees. -/

namespace PersistShell
namespace Holder
open Program

section runtime
variable {J : World → Prop} {s : SessionId}

theorem core_of_get {w : World} {session : Session}
    (h : w.server.runtime.sessions[s]? = some session) : w.core s = some session.core := by
  rw [World.core, h]
  rfl

theorem queueInput_keeps (hJ : QuietClosed J) (data : Bytes) : Keeps J (queueInput s data) := by
  refine Triple.bind server_triple fun h => ?_
  cases hs : h.runtime.sessions[s]? with
  | none => exact Triple.fail fun _ hw => hw.1
  | some session =>
    -- from here on the session exists, whatever the calls in between do
    have hJ' : QuietClosed fun w => J w ∧ w.core s ≠ none := by
      intro w w' hq hw
      rw [hq.core]
      exact ⟨hJ w w' hq hw.1, hw.2⟩
    have hrest : Triple (fun w => J w ∧ w.core s ≠ none) (do
        rejectIf (session.exitCode.isSome ∨ data = [])
          (PersistError.invalidArgument "holder session is not writable")
        rejectIf (session.input.bytes + data.length > maxPendingInput)
          (PersistError.invalidArgument "holder input queue limit exceeded")
        let now ← nowMs
        modifySession s fun session =>
          { session with input := session.input.push data, lastActiveAtMs := now }
        flushInput s) (fun _ w => J w ∧ w.core s ≠ none) (fun _ w => J w ∧ w.core s ≠ none) := by
      refine Keeps.bind (Keeps.reject _ _) fun _ => Keeps.bind (Keeps.reject _ _) fun _ => ?_
      refine Keeps.bind (nowMs_triple hJ'.call) fun now => ?_
      exact Keeps.bind (modifySession_keeps hJ' fun _ => rfl) fun _ =>
        flushInput_keeps hJ' fun _ hw => hw.2
    refine hrest.conseq ?_ (fun _ _ hw => hw.1) fun _ _ hw => hw.1
    rintro w ⟨hw, rfl⟩
    rw [core_of_get hs]
    exact ⟨hw, Option.some_ne_none _⟩

theorem resize_keeps (hJ : QuietClosed J) : Keeps J (resize s) := by
  refine Keeps.bind (Keeps.read _) fun h => ?_
  cases h.runtime.ptyFd s with
  | none => exact Keeps.fail _
  | some fd => exact control_keeps hJ.call _

theorem signal_keeps (hJ : QuietClosed J) : Keeps J (signal s) := by
  refine Keeps.bind (Keeps.read _) fun h => ?_
  cases h.runtime.sessions[s]?.bind Session.pty with
  | none => exact Keeps.fail _
  | some pty => exact control_keeps hJ.call _

theorem signalChild_keeps (hJ : QuietClosed J) : Keeps J signalChild :=
  Keeps.bind (call_triple hJ.call) fun _ => Keeps.pure _

theorem close_keeps (hJ : QuietClosed J) : Keeps J (close s) := by
  refine Keeps.bind (Keeps.read _) fun h => ?_
  cases h.runtime.sessions[s]? with
  | none => exact Keeps.pure _
  | some session =>
    dsimp only
    split
    · exact Keeps.pure _
    · split
      · exact Keeps.bind (signalChild_keeps hJ) fun _ =>
          Keeps.bind (modifySession_keeps hJ fun _ => rfl) fun _ => Keeps.pure _
      · exact Keeps.pure _

theorem kill_keeps (hJ : QuietClosed J) : Keeps J (kill s) := by
  refine Keeps.bind (Keeps.read _) fun h => ?_
  cases h.runtime.sessions[s]? with
  | none => exact Keeps.pure _
  | some session =>
    dsimp only
    split
    · refine Keeps.bind (signalChild_keeps hJ) fun sent => ?_
      cases sent <;> exact Keeps.pure _
    · exact Keeps.pure _

theorem quiet_degradeLog (w : World) (s : SessionId) :
    Quiet w { w with server := { w.server with runtime := w.server.runtime.degradeLog s } } := by
  unfold Runtime.degradeLog
  cases hs : w.server.runtime.sessions[s]? with
  | none => exact .refl w
  | some session =>
    dsimp only
    have hcore : ∀ s', ((w.server.runtime.sessions.insert s
        { session with logState := .degraded })[s']?).map Session.core = w.core s' := by
      intro s'
      rw [World.core, NatMap.get_insert]
      split
      · rename_i heq
        rw [← heq, hs]
        rfl
      · rfl
    split
    · exact { quiet_of_eq rfl rfl rfl rfl rfl rfl rfl rfl with core := hcore }
    · exact { quiet_of_eq rfl rfl rfl rfl rfl rfl rfl rfl with core := hcore }

theorem degradeLog_keeps (hJ : QuietClosed J) : Keeps J (modifyRuntime (·.degradeLog s)) :=
  modifyRuntime_keeps hJ fun w => quiet_degradeLog w s

end runtime

section requests
variable {J : World → Prop} {fd : Fd} {frame : HolderFrame}

theorem handleInventory_keeps (hJ : QuietClosed J) : Keeps J (handleInventory fd frame) :=
  Keeps.bind (protocol_keeps _ _) fun _ => Keeps.bind (Keeps.read _) fun _ =>
    Keeps.bind (protocol_keeps _ _) fun _ => respond_keeps hJ _ _ _ _

theorem handleClose_keeps (hJ : QuietClosed J) : Keeps J (handleClose fd frame) :=
  Keeps.bind (protocol_keeps _ _) fun _ => Keeps.bind (close_keeps hJ) fun _ =>
    operationResponse_keeps hJ _ _ _ _

theorem handleKill_keeps (hJ : QuietClosed J) : Keeps J (handleKill fd frame) :=
  Keeps.bind (protocol_keeps _ _) fun _ => Keeps.bind (kill_keeps hJ) fun _ =>
    operationResponse_keeps hJ _ _ _ _

theorem handleGetExitContext_keeps [SerdeJson] (hJ : QuietClosed J) (minor : Nat) :
    Keeps J (handleGetExitContext fd minor frame) :=
  Keeps.bind (protocol_keeps _ _) fun _ => Keeps.bind (Keeps.read _) fun _ =>
    Keeps.bind (protocol_keeps _ _) fun _ => respond_keeps hJ _ _ _ _

theorem handleShutdownAll_keeps (hJ : QuietClosed J) : Keeps J (handleShutdownAll fd frame) :=
  Keeps.bind (respond_keeps hJ _ _ _ _) fun _ =>
    modifyServer_keeps hJ fun _ => quiet_of_eq rfl rfl rfl rfl rfl rfl rfl rfl

theorem handleCapability_keeps (hJ : QuietClosed J) (hfd : Registered J fd) (minor : Nat) :
    Keeps J (handleCapability fd minor frame) := by
  refine Keeps.bind (connection_keeps hfd) fun c => Keeps.bind (Keeps.reject _ _) fun _ => ?_
  refine Keeps.bind (protocol_keeps _ _) fun request => Keeps.bind (Keeps.reject _ _) fun _ => ?_
  refine Triple.bind server_triple fun h => ?_
  cases hc : h.controller.filter fun controller => controller.fd = fd with
  | none => exact Triple.fail fun _ hw => hw.1
  | some controller =>
    obtain ⟨hcontroller, -⟩ := Option.filter_eq_some_iff.mp hc
    refine Triple.bind (Q := fun _ w => J w ∧ w.server = h) ?_ fun _ => ?_
    · unfold rejectIf
      split
      · exact Triple.fail fun _ hw => hw.1
      · exact Triple.pure fun _ => id
    refine Triple.bind (Q := fun _ => J) (.update ?_) fun _ => ?_
    · rintro w ⟨hw, rfl⟩
      refine hJ w _ (quiet_of_eq rfl rfl ?_ rfl rfl rfl rfl rfl) hw
      rw [World.controllerFd, World.controllerFd, hcontroller]
      rfl
    · exact Keeps.bind (updateConnection_keeps hJ hfd fun _ => ⟨rfl, rfl⟩) fun _ =>
        Keeps.bind generation_keeps fun _ => queueFrame_keeps hJ _ _

theorem requireWriter_triple (hfd : Registered J fd) :
    Triple J (requireWriter fd)
      (fun s w => J w ∧ w.server.writers[s]? = some fd ∧ w.place fd = some s ∧
        w.server.runtime.isRunning s = true) (fun _ => J) := by
  refine .bind (connection_triple hfd) fun c => ?_
  cases hs : c.attachedSession with
  | none => exact .fail fun _ hw => hw.1
  | some s =>
    refine .bind (server_triple) fun h => ?_
    by_cases hreject : h.writers[s]? ≠ some fd ∨ (!h.runtime.isRunning s) = true
    · exact .bind (Q := fun _ _ => False) (by
        rw [rejectIf, if_pos hreject]
        exact .fail fun _ hw => hw.1.1) fun _ => .of_false fun _ => id
    · refine .bind (Q := fun _ w => (J w ∧ w.server.connections[fd]? = some c) ∧ w.server = h)
        (by rw [rejectIf, if_neg hreject]; exact .pure fun _ => id) fun _ => .pure ?_
      rintro w ⟨⟨hw, hc⟩, rfl⟩
      simp only [not_or, not_not, Bool.not_eq_true', Bool.not_eq_false] at hreject
      refine ⟨hw, hreject.1, ?_, hreject.2⟩
      rw [World.place, hc]
      exact hs

end requests

end Holder
end PersistShell

import PersistShell.Holder.Output
import PersistShell.Holder.Attach

/-! Shells that are gone are collected. When SIGCHLD arrives every terminal is drained, then
every exit is recorded and its terminal dropped, and then it is told to those attached. -/

namespace PersistShell

/-- Only which sessions are reaped matters. -/
theorem Inv.reaped_congr {ph : Phase} {w : World} {reaped : List SessionId} (h : Inv ph w)
    (hreaped : ∀ s, s ∈ reaped ↔ s ∈ ph.reaped) : Inv { ph with reaped } w := by
  refine { h with exit := fun s core hcore => ?_ }
  rw [h.exit s core hcore]
  exact or_congr Iff.rfl (hreaped s).symm

namespace Holder
open Program

section reap
variable {J : World → Prop} {E : PersistError → World → Prop} {dried : List Fd}
  {p : Fd → Option SessionId} {gone reaped : List SessionId} {s : SessionId}

theorem pollExit_keeps (hJ : CallClosed J) (pty : PtySession) : Keeps J (pollExit pty) := by
  unfold pollExit
  split
  · exact Keeps.pure _
  · refine Keeps.bind (call_triple hJ) fun turn => ?_
    split
    · exact Keeps.fail _
    · refine Keeps.bind (Keeps.read _) fun t => ?_
      split <;> first | exact Keeps.pure _ | exact Keeps.fail _

theorem core_withExit (session : Session) (pty : PtySession) (code : Int)
    (state : Option ShellState) (now : Nat) :
    (session.withExit pty code state now).core =
      { pty := some { pty with exitStatus := some code }, ring := session.ring,
        exitCode := some code } := by
  cases state <;> rfl

variable [SerdeJson]

/-- At most the session that was asked for is collected. -/
theorem pollSession_triple (s : SessionId) :
    Triple (Inv { dried, ptys := some p, reaped }) (pollSession s)
      (fun r w => Inv { dried, ptys := some p, reaped := (r.map (·.sessionId)).toList ++ reaped } w ∧
        ∀ exited, r = some exited → exited.sessionId = s ∧ p exited.ptyFd = some s)
      (fun _ => Sound) := by
  refine .bind server_triple fun h => ?_
  have hnone : Triple (fun w => Inv { dried, ptys := some p, reaped } w ∧ w.server = h)
      (pure none : Holder (Option ExitedSession))
      (fun r w => Inv
          { dried, ptys := some p, reaped := (r.map (·.sessionId)).toList ++ reaped } w ∧
        ∀ exited, r = some exited → exited.sessionId = s ∧ p exited.ptyFd = some s)
      (fun _ => Sound) := .pure fun _ hw => ⟨hw.1, nofun⟩
  have hcall : CallClosed fun w => Inv { dried, ptys := some p, reaped } w ∧ w.server = h :=
    fun _ _ hc hw => ⟨hw.1.quiet hc.quiet, hc.server.trans hw.2⟩
  cases hsession : h.runtime.sessions[s]? with
  | none => exact hnone
  | some session =>
    cases hpty : session.pty with
    | none => simpa only [hpty] using hnone
    | some pty =>
      simp only [hpty]
      refine .bind ((pollExit_keeps hcall pty).conseq (fun _ => id) (fun _ _ => id)
        fun _ _ hw => hw.1.sound rfl) fun code => ?_
      cases code with
      | none => exact hnone
      | some code =>
        refine .bind (Triple.bind (R := fun _ w => Inv { dried, ptys := some p, reaped } w ∧
          w.server = h) (call_triple hcall) fun _ => .pure fun _ => id) fun state => ?_
        refine .bind (nowMs_triple hcall) fun now => .bind (Q := fun _ w =>
          Inv { dried, ptys := some p, reaped := s :: reaped } w ∧ p pty.masterFd = some s)
          (.update ?_) fun _ => .pure fun w hw => ⟨hw.1, ?_⟩
        · rintro w ⟨hw, rfl⟩
          refine ⟨hw.reap hsession hpty (core_withExit _ _ _ _ _) rfl, ?_⟩
          rw [← hw.ptys p rfl]
          exact (hw.ptyOf _ s).mpr ⟨_, pty, core_of_get hsession, hpty, rfl⟩
        · rintro exited ⟨⟩
          exact ⟨rfl, hw.2⟩

theorem pollSessions_triple (ids : List SessionId) :
    Triple (Inv { dried, ptys := some p, reaped }) (pollSessions ids)
      (fun exited w => Inv { dried, ptys := some p, reaped := exited.map (·.sessionId) ++ reaped } w ∧
        (∀ e ∈ exited, p e.ptyFd = some e.sessionId) ∧ (exited.map (·.sessionId)).Sublist ids)
      (fun _ => Sound) := by
  induction ids generalizing reaped with
  | nil => exact .pure fun _ hw => ⟨hw, by simp⟩
  | cons s ids ih =>
    refine .bind (pollSession_triple s) fun r => ?_
    refine Triple.pre (P := fun w =>
      Inv { dried, ptys := some p, reaped := (r.map (·.sessionId)).toList ++ reaped } w ∧
        ∀ exited, r = some exited → exited.sessionId = s ∧ p exited.ptyFd = some s) ?_ fun _ => id
    by_cases hr : ∀ exited, r = some exited → exited.sessionId = s ∧ p exited.ptyFd = some s
    · refine .bind (ih.pre fun w hw => hw.1) fun rest => .pure ?_
      rintro w ⟨hw, hptys, hids⟩
      cases r with
      | none => exact ⟨hw, hptys, hids.trans (List.sublist_cons_self _ _)⟩
      | some exited =>
        obtain ⟨rfl, hpty⟩ := hr exited rfl
        refine ⟨?_, ?_, hids.cons_cons _⟩
        · refine hw.reaped_congr fun s' => ?_
          simp only [Option.toList, Option.map_some, List.map_append, List.map_cons, List.map_nil,
            List.mem_append, List.mem_cons]
          tauto
        · intro e he
          rcases List.mem_append.mp he with he | he
          · cases List.mem_singleton.mp he
            exact hpty
          · exact hptys e he
    · exact .of_false fun w hw => hr hw.2

omit [SerdeJson] in
theorem dropPty_run (exited : ExitedSession) (w : World) :
    dropPty exited w = (.ok (), w.dropPty exited.sessionId exited.ptyFd) := rfl

/-- Between two drops: the sessions still to come have their terminals, and the exits of the
others are recorded. -/
structure Dropping (dried : List Fd) (all left : List ExitedSession) (w : World) : Prop where
  inv : Inv { dried, reaped := left.map (·.sessionId) } w
  ptys : ∀ e ∈ left, w.server.runtime.ptyToSession[e.ptyFd]? = some e.sessionId ∧ e.ptyFd ∈ dried
  distinct : (left.map (·.sessionId)).Nodup
  recorded : ∀ e ∈ all, e ∈ left ∨ hasExited e.sessionId w.log = true

omit [SerdeJson] in
theorem Dropping.drop {all left : List ExitedSession} {e : ExitedSession} {w : World}
    (h : Dropping dried all (e :: left) w) :
    Dropping dried all left (w.dropPty e.sessionId e.ptyFd) := by
  obtain ⟨hpty, hdry⟩ := h.ptys e List.mem_cons_self
  obtain ⟨hfresh, hdistinct⟩ := List.nodup_cons.mp h.distinct
  have hfact := h.inv.fact_exited rfl (fun _ _ => rfl) hpty hdry
  have hbefore : Inv { dried, reaped := e.sessionId :: left.map (·.sessionId) } w := h.inv
  have hdropped : Inv { dried, reaped := left.map (·.sessionId) }
      (w.dropPty e.sessionId e.ptyFd) := by
    let ph : Phase := { dried }
    exact Inv.dropPty (show Inv { ph with reaped := _ } w from hbefore) hpty hfact rfl
  refine ⟨hdropped, fun e' he' => ?_, hdistinct, fun e' he' => ?_⟩
  · obtain ⟨hpty', hdry'⟩ := h.ptys e' (List.mem_cons_of_mem _ he')
    refine ⟨?_, hdry'⟩
    change (w.server.runtime.ptyToSession.erase e.ptyFd)[e'.ptyFd]? = _
    rw [NatMap.get_erase, if_neg, hpty']
    intro heq
    rw [heq, hpty'] at hpty
    exact hfresh (List.mem_map.mpr ⟨e', he', Option.some.inj hpty⟩)
  · change e' ∈ left ∨ hasExited e'.sessionId (.exited e.sessionId e.ptyFd _ :: w.log) = true
    rw [hasExited]
    rcases h.recorded e' he' with hmem | hexited
    · rcases List.mem_cons.mp hmem with rfl | hmem
      · exact .inr (if_pos rfl)
      · exact .inl hmem
    · right
      split
      · rfl
      · exact hexited

/-- Every terminal was found empty before, so every exit is recorded in order. -/
theorem reapExited_triple (hdried : ∀ fd, p fd ≠ none → fd ∈ dried) :
    Triple (Inv { dried, ptys := some p }) reapExited
      (fun exited => Inv { gone := exited.map (·.sessionId) }) (fun _ => Sound) := by
  refine .bind server_triple fun h => ?_
  have hnodup : h.runtime.sessions.keys.Nodup := h.runtime.sessions.nodup_keys
  refine .bind ((pollSessions_triple _).pre fun w hw => hw.1) fun exited => ?_
  refine .bind (Q := fun _ => Dropping dried exited []) ?_ fun _ => .pure fun w hw => ?_
  · refine (Triple.forEach (I := Dropping dried exited) (fun e left w hw => ?_) exited).pre ?_
    · rw [dropPty_run]
      exact hw.drop
    · rintro w ⟨hw, hptys, hids⟩
      refine ⟨{ hw with ptys := nofun, exit := ?_ }, fun e he => ?_, hids.nodup hnodup,
        fun e he => .inl he⟩
      · simpa using hw.exit
      · have hpty := hptys e he
        refine ⟨(hw.ptys p rfl e.ptyFd).trans hpty, hdried _ ?_⟩
        rw [hpty]
        exact Option.some_ne_none _
  · refine { hw.inv with dried := nofun, gone := fun s hs => ?_ }
    obtain ⟨e, he, rfl⟩ := List.mem_map.mp hs
    exact (hw.recorded e he).resolve_left (List.not_mem_nil)

end reap

section announce
variable {E : PersistError → World → Prop} {gone : List SessionId} {s : SessionId}

/-- The exit is told to one connection, or the connection is gone. -/
theorem announceTo_triple {fd : Fd} {fds : List Fd} {frame : HolderFrame} (hs : s ∈ gone)
    (hfd : fd ∉ fds) :
    Triple (fun w => Inv { gone } w ∧ ∀ b ∈ fd :: fds, w.role b = some .data)
      (queueOrDisconnect fd frame (some (.announced s fd)))
      (fun _ w => Inv { gone } w ∧ ∀ b ∈ fds, w.role b = some .data) E := by
  have hquiet : QuietClosed fun w => Inv { gone } w ∧ ∀ b ∈ fd :: fds, w.role b = some .data := by
    intro w w' hq hw
    simp only [hq.role]
    exact ⟨hw.1.quiet hq, hw.2⟩
  have hcontroller : ∀ w, (Inv { gone } w ∧ ∀ b ∈ fd :: fds, w.role b = some .data) →
      w.controllerFd ≠ some fd := by
    intro w hw hc
    have := hw.1.controller fd hc nofun
    rw [hw.2 fd List.mem_cons_self] at this
    cases this
  refine queueOrDisconnect_triple hquiet (fun w hw _ => ⟨?_, fun b hb => ?_⟩)
    (disconnect_triple hquiet hcontroller fun w hw => ⟨?_, fun b hb => ?_⟩)
  · exact hw.1.inert trivial (hw.1.gone s hs)
  · exact hw.2 b (List.mem_cons_of_mem _ hb)
  · exact hw.1.remove_other nofun nofun rfl (hcontroller w hw)
  · rw [role_remove, if_neg fun heq : b = fd => hfd (heq ▸ hb)]
    exact hw.2 b (List.mem_cons_of_mem _ hb)

theorem announceToController_triple (hs : s ∈ gone) (legacyPayload v2Payload : Bytes) :
    Triple (Inv { gone }) (announceToController s legacyPayload v2Payload)
      (fun _ => Inv { gone }) E := by
  have hquiet : QuietClosed (Inv { gone }) := fun _ _ hq h => h.quiet hq
  refine .bind server_triple fun h => ?_
  cases h.controller with
  | none => exact .pure fun _ hw => hw.1
  | some controller =>
    refine .bind ((eventFrame_triple _ _).pre fun _ hw => hw.1) fun frame => ?_
    exact queueOrDisconnect_triple hquiet
      (fun w hw _ => hw.inert (n := .announced _ _) trivial (hw.gone _ hs))
      (disconnect_inv rfl nofun rfl)

variable [SerdeJson]

theorem announceExit_triple (exited : ExitedSession) (hs : exited.sessionId ∈ gone) :
    Triple (Inv { gone }) (announceExit exited) (fun _ => Inv { gone }) (fun _ => Sound) := by
  have hquiet : QuietClosed (Inv { gone }) := fun _ _ hq h => h.quiet hq
  have hprotocol : ∀ (context : String) (r : Except HolderProtocolError Bytes),
      Triple (Inv { gone }) (protocol context r) (fun _ => Inv { gone }) (fun _ => Sound) :=
    fun context r => .lift (fun _ _ _ => id) fun _ _ _ hw => hw.sound rfl
  refine .bind (reactorRemove_triple hquiet _) fun _ => ?_
  refine .bind (releaseWriter_inv rfl rfl rfl _) fun _ => ?_
  refine .bind (hprotocol _ _) fun legacyPayload => .bind (hprotocol _ _) fun v2Payload => ?_
  refine .bind server_triple fun h => ?_
  have hnodup := attachedTo_nodup h exited.sessionId
  refine .bind (Q := fun _ => Inv { gone }) ?_ fun _ => ?_
  · refine (Triple.forEach (I := fun fds w =>
      (Inv { gone } w ∧ ∀ b ∈ fds, w.role b = some .data) ∧
        fds <:+ attachedTo h exited.sessionId) (fun fd fds => ?_) _).conseq ?_
        (fun _ _ hw => hw.1.1) fun _ _ => id
    · by_cases hfds : fd :: fds <:+ attachedTo h exited.sessionId
      · have hfd : fd ∉ fds := (List.nodup_cons.mp (hfds.sublist.nodup hnodup)).1
        refine Triple.pre (P := fun w => Inv { gone } w ∧ ∀ b ∈ fd :: fds, w.role b = some .data)
          (.bind (.post (connection_triple fun w hw => ?_) fun _ _ hw => hw.1) fun c => ?_)
          fun w hw => hw.1
        · rw [hw.2 fd List.mem_cons_self]
          exact Option.some_ne_none _
        · refine .bind (eventFrame_triple _ _) fun frame => ?_
          exact (announceTo_triple hs hfd).post fun _ w hw =>
            ⟨hw, (List.suffix_cons fd fds).trans hfds⟩
      · exact .of_false fun w hw => hfds hw.2
    · rintro w ⟨hw, rfl⟩
      refine ⟨⟨hw, fun b hb => hw.data b exited.sessionId ?_⟩, List.suffix_refl _⟩
      rw [← mem_attachedTo.mp hb, hw.place]
      rfl
  · have hcontroller := announceToController_triple (E := fun _ => Sound) hs legacyPayload v2Payload
    split
    · exact .bind (detachSession_inv rfl _) fun _ => hcontroller
    · exact hcontroller

/-- One SIGCHLD. -/
theorem handleChild_triple : Triple (Inv {}) handleChild (fun _ => Inv {}) (fun _ => Sound) := by
  refine .bind server_triple fun h => ?_
  let p : Fd → Option SessionId := fun fd => h.runtime.ptyToSession[fd]?
  refine .bind (Q := fun _ w => ∃ dried, Inv { dried, ptys := some p } w ∧
    ∀ fd, p fd ≠ none → fd ∈ dried) ?_ fun _ => ?_
  · refine (Triple.forEach (I := fun fds w => ∃ dried, Inv { dried, ptys := some p } w ∧
      ∀ fd, p fd ≠ none → fd ∈ fds ∨ fd ∈ dried) (fun fd fds => ?_) _).conseq ?_
      (fun _ w ⟨dried, hw, hp⟩ => ⟨dried, hw, fun fd hfd => (hp fd hfd).resolve_left
        List.not_mem_nil⟩) fun _ _ => id
    · rintro w ⟨dried, hw, hp⟩
      refine (drainAndPublish_triple fd).post (fun _ w hw => ⟨fd :: dried, hw, fun fd' hfd' => ?_⟩) w hw
      rcases hp fd' hfd' with hmem | hmem
      · rcases List.mem_cons.mp hmem with rfl | hmem
        · exact .inr List.mem_cons_self
        · exact .inl hmem
      · exact .inr (List.mem_cons_of_mem _ hmem)
    · rintro w ⟨hw, rfl⟩
      refine ⟨[], { hw with ptys := fun q hq fd => ?_ }, fun fd hfd => .inl ?_⟩
      · cases hq
        rfl
      · exact (NatMap.mem_keys_iff _ _).mpr (Option.ne_none_iff_exists'.mp hfd)
  · rintro w ⟨dried, hw, hp⟩
    refine Triple.bind (reapExited_triple hp) (fun exited => ?_) w hw
    refine (Triple.forEach (I := fun left w => Inv { gone := exited.map (·.sessionId) } w ∧
      left <:+ exited) (fun e left => ?_) exited).conseq (fun w hw => ⟨hw, List.suffix_refl _⟩)
      (fun _ w hw => { hw.1 with gone := nofun }) fun _ _ => id
    by_cases hleft : e :: left <:+ exited
    · refine (announceExit_triple e ?_).conseq (fun w hw => hw.1)
        (fun _ w hw => ⟨hw, (List.suffix_cons e left).trans hleft⟩) fun _ _ => id
      exact List.mem_map_of_mem (hleft.subset List.mem_cons_self)
    · exact .of_false fun w hw => hleft hw.2

end announce

end Holder

end PersistShell

import PersistShell.Holder.Sessions

/-! Output on its way from a terminal to the connections attached to its session: the drain
loop reads until the terminal is empty, and then each chunk is queued to each connection. -/

namespace PersistShell

/-- The invariant at some place inside a handler where nobody claims a slot. -/
def Sound (w : World) : Prop := ∃ ph : Phase, ph.claim = none ∧ Inv ph w

theorem Inv.sound {ph : Phase} {w : World} (h : Inv ph w) (hclaim : ph.claim = none) : Sound w :=
  ⟨ph, hclaim, h⟩

theorem Sound.facts {w : World} (h : Sound w) : Run.Each Fact w.log :=
  let ⟨_, _, hinv⟩ := h
  hinv.facts

namespace Holder
open Program

section drain
variable {J : World → Prop} {E : PersistError → World → Prop} {ph : Phase} {fd : Fd}
  {s : SessionId} {chunks : List Bytes}

/-- A read gives the next bytes of the terminal; when it gives none, there are none. -/
theorem readOutput_triple (hJ : CallClosed J) (len : Nat) :
    Triple J (readOutput fd len) (fun r w' =>
      (J w' ∧ ∀ t, w'.terminals[fd]? = some t → t.unread = []) ∧ (∀ chunk, r = .ok chunk → chunk = []) ∨
      ∃ chunk w t, r = .ok chunk ∧ chunk ≠ [] ∧ J w ∧ w.terminals[fd]? = some t ∧
        chunk <+: t.unread ∧
        w' = { w with
          terminals := w.terminals.insert fd { t with taken := t.taken + chunk.length } }) E := by
  refine .bind (call_triple hJ) fun turn => .bind (Q := fun t w => J w ∧ w.terminals[fd]? = t)
    (.read fun w hw => ⟨hw, rfl⟩) fun t => ?_
  cases t with
  | none =>
    refine .pure fun w hw => .inl ⟨⟨hw.1, fun t ht => ?_⟩, nofun⟩
    cases hw.2.symm.trans ht
  | some t =>
    dsimp only
    by_cases hempty : t.unread = []
    · rw [if_pos hempty]
      have hstop : ∀ w, J w ∧ w.terminals[fd]? = some t →
          J w ∧ ∀ t, w.terminals[fd]? = some t → t.unread = [] := by
        rintro w ⟨hw, ht⟩
        refine ⟨hw, fun t' ht' => ?_⟩
        cases ht.symm.trans ht'
        exact hempty
      split
      · exact .pure fun w hw => .inl ⟨hstop w hw, fun _ he => by cases he; rfl⟩
      · exact .pure fun w hw => .inl ⟨hstop w hw, fun _ he => by cases he; rfl⟩
      · exact .pure fun w hw => .inl ⟨hstop w hw, nofun⟩
    · rw [if_neg hempty]
      refine .bind (Q := fun _ w' => ∃ w, J w ∧ w.terminals[fd]? = some t ∧ w' = { w with
        terminals := w.terminals.insert fd { t with taken := t.taken +
          (t.unread.take (max 1 (min (turn.count.getD len) len))).length } })
        (.update fun w hw => ⟨w, hw.1, hw.2, rfl⟩) fun _ => .pure ?_
      rintro w' ⟨w, hw, ht, rfl⟩
      refine .inr ⟨_, w, t, rfl, ?_, hw, ht, List.take_prefix _ _, rfl⟩
      intro hnil
      rcases List.take_eq_nil_iff.mp hnil with h | h
      · have := Nat.le_max_left 1 (min (turn.count.getD len) len)
        omega
      · exact hempty h

/-- The loop is at work on the terminal of `s`, has read `chunks` so far, and ends within
`fuel` passes. -/
structure Draining (ph : Phase) (s : SessionId) (fd : Fd) (chunks : List Bytes) (fuel : Nat)
    (w : World) : Prop where
  inv : Inv { ph with draining := some fd, owed := owing s chunks } w
  pty : w.server.runtime.ptyToSession[fd]? = some s
  fuel : drainFuel w fd ≤ fuel

theorem draining_quiet {fuel : Nat} : QuietClosed (Draining ph s fd chunks fuel) := fun _ _ hq h =>
  ⟨h.inv.quiet hq, (hq.pty fd).trans h.pty, (hq.fuel fd).trans h.fuel⟩

theorem drainFuel_drain {w : World} {t : Terminal} {chunk : Bytes}
    (ht : w.terminals[fd]? = some t) (hchunk : chunk <+: t.unread) (hne : chunk ≠ []) :
    drainFuel (w.drain s fd t chunk) fd < drainFuel w fd := by
  have hpos := List.length_pos_iff.mpr hne
  have hle := hchunk.length_le
  have hunread : (w.drain s fd t chunk).unread fd = t.written.length - (t.taken + chunk.length) := by
    rw [World.unread, World.drain, NatMap.get_insert, if_pos rfl]
    simp [Terminal.unread]
  have hunread' : w.unread fd = t.written.length - t.taken := by
    rw [World.unread, ht]
    simp [Terminal.unread]
  have hscript : (w.drain s fd t chunk).script = w.script := rfl
  rw [Terminal.unread, List.length_drop] at hle
  rw [drainFuel, drainFuel, hscript, hunread, hunread']
  omega

theorem storeChunk_triple {chunk : Bytes} {fuel : Nat} (hne : chunk ≠ []) :
    Triple (fun w' => ∃ w t, Draining ph s fd chunks (fuel + 1) w ∧ w.terminals[fd]? = some t ∧
        chunk <+: t.unread ∧ w' = { w with
          terminals := w.terminals.insert fd { t with taken := t.taken + chunk.length } })
      (storeChunk s chunk) (fun _ => Draining ph s fd (chunks ++ [chunk]) fuel) E := by
  refine .bind (Q := fun _ w' => ∃ w t, Draining ph s fd chunks (fuel + 1) w ∧
    w.terminals[fd]? = some t ∧ chunk <+: t.unread ∧ w' = { w.drain s fd t chunk with
      log := w.log }) (.update ?_) fun _ => ?_
  · rintro _ ⟨w, t, hw, ht, hchunk, rfl⟩
    exact ⟨w, t, hw, ht, hchunk, rfl⟩
  refine .bind (Q := fun _ => Draining ph s fd (chunks ++ [chunk]) fuel) (.update ?_) fun _ => ?_
  · rintro _ ⟨w, t, hw, ht, hchunk, rfl⟩
    refine ⟨hw.inv.drain hw.pty ht hchunk, hw.pty, Nat.le_of_lt_succ ?_⟩
    exact (drainFuel_drain ht hchunk hne).trans_le hw.fuel
  refine .bind (nowMs_triple draining_quiet.call) fun now => ?_
  refine .bind (Q := fun _ => Draining ph s fd (chunks ++ [chunk]) fuel) (.update fun w hw =>
    draining_quiet w _ (quiet_session fun _ _ => rfl) hw) fun _ => ?_
  refine .bind (Q := fun _ => Draining ph s fd (chunks ++ [chunk]) fuel) (.read fun _ => id)
    fun h => ?_
  split
  · exact .bind (call_triple draining_quiet.call) fun _ => .pure fun _ => id
  · exact .pure fun _ => id

theorem drainLoop_triple (hclaim : ph.claim = none) (fuel : Nat) (chunks : List Bytes) :
    Triple (Draining ph s fd chunks fuel) (drainLoop s fd fuel)
      (fun r => Inv { ph with
        draining := none, dried := fd :: ph.dried, owed := owing s (chunks ++ r.1) })
      (fun _ => Sound) := by
  induction fuel generalizing chunks with
  | zero =>
    refine .of_false fun w hw => ?_
    have := hw.fuel
    rw [drainFuel] at this
    omega
  | succ fuel ih =>
    have hdry : Triple (fun w => Draining ph s fd chunks (fuel + 1) w ∧
        ∀ t, w.terminals[fd]? = some t → t.unread = []) (do
          noteDry fd
          return ([], 0))
        (fun r : List Bytes × Nat => Inv { ph with
          draining := none, dried := fd :: ph.dried, owed := owing s (chunks ++ r.1) })
        (fun _ => Sound) := by
      refine .bind (.bind (Q := fun t w => (Draining ph s fd chunks (fuel + 1) w ∧
        ∀ t, w.terminals[fd]? = some t → t.unread = []) ∧ w.terminals[fd]? = t)
        (.read fun w hw => ⟨hw, rfl⟩) fun t => .update ?_) fun _ => .pure fun _ => id
      rintro w ⟨⟨hw, hempty⟩, rfl⟩
      rw [List.append_nil]
      exact hw.inv.dryUp hempty
    refine .bind (readOutput_triple draining_quiet.call maxHolderIoFrame) fun r => ?_
    cases r with
    | error source =>
      have hfails : Triple (fun w => Draining ph s fd chunks (fuel + 1) w ∧
          ∀ t, w.terminals[fd]? = some t → t.unread = []) (failIo (.readPty s) source)
          (fun r : List Bytes × Nat => Inv { ph with
            draining := none, dried := fd :: ph.dried, owed := owing s (chunks ++ r.1) })
          (fun _ => Sound) :=
        (failIo_triple draining_quiet _ _).conseq (fun w hw => hw.1)
          (fun _ _ => id) fun _ w hw => hw.inv.sound hclaim
      refine Triple.pre ?_ (P := fun w => Draining ph s fd chunks (fuel + 1) w ∧
        ∀ t, w.terminals[fd]? = some t → t.unread = []) ?_
      · cases source with
        | io => exact hdry
        | _ => exact hfails
      · rintro w (⟨hw, -⟩ | ⟨chunk, _, _, hr, -⟩)
        · exact hw
        · cases hr
    | ok chunk =>
      cases chunk with
      | nil =>
        refine hdry.pre ?_
        rintro w (⟨hw, -⟩ | ⟨chunk, _, _, hr, hne, -⟩)
        · exact hw
        · cases hr
          exact absurd rfl hne
      | cons b bs =>
        refine .bind ((storeChunk_triple (List.cons_ne_nil b bs)).pre ?_) fun dropped =>
          .bind (ih (chunks ++ [b :: bs])) fun r => ?_
        · rintro w' (⟨-, hnil⟩ | ⟨chunk, w, t, hr, -, hw, ht, hchunk, rfl⟩)
          · cases hnil _ rfl
          · cases hr
            exact ⟨w, t, hw, ht, hchunk, rfl⟩
        · refine .pure fun w hw => ?_
          rw [List.append_assoc] at hw
          exact hw

theorem drainOutput_triple (fd : Fd) (dried : List Fd) (ptys : Option (Fd → Option SessionId))
    (gone : List SessionId) :
    Triple (Inv { dried, ptys, gone }) (drainOutput fd)
      (fun batch => Inv
        { dried := fd :: dried, ptys, gone, owed := owing batch.sessionId batch.chunks })
      (fun _ => Sound) := by
  refine .bind server_triple fun h => ?_
  cases hs : h.runtime.sessionForPty fd with
  | none => exact .fail fun w hw => hw.1.sound rfl
  | some s =>
    refine .bind (Q := fun h w => (Inv { dried, ptys, gone } w ∧
      w.server.runtime.ptyToSession[fd]? = some s) ∧ w.server = h) (.read ?_) fun h => ?_
    · rintro w ⟨hw, rfl⟩
      exact ⟨⟨hw, hs⟩, rfl⟩
    refine .bind (Q := fun session w => Inv { dried, ptys, gone } w ∧
      w.server.runtime.ptyToSession[fd]? = some s ∧ session.pty.isSome = true) (.unwrap ?_)
      fun session => ?_
    · rintro w ⟨⟨hw, hfd⟩, rfl⟩
      obtain ⟨core, pty, hcore, hpty, -⟩ := (hw.ptyOf fd s).mp hfd
      obtain ⟨session, hsession, rfl⟩ := Option.map_eq_some_iff.mp hcore
      exact ⟨session, hsession, hw, hfd, by rw [show session.pty = some pty from hpty]; rfl⟩
    by_cases hpty : session.pty.isSome = true
    · simp only [hpty, if_true]
      refine .bind (Q := fun w' w => Draining { dried, ptys, gone } s fd [] (drainFuel w' fd) w)
        (.read fun w hw => ⟨?_, hw.2.1, le_rfl⟩) fun w' => .bind (drainLoop_triple rfl _ _)
        fun r => ?_
      · refine { hw.1 with dry := fun fd' s' n hs' _ => hw.1.dry fd' s' n hs' nofun, streams := ?_ }
        intro fd' s' hs'
        have := hw.1.streams fd' s' hs'
        simpa [owing] using this
      · have hquiet : QuietClosed (Inv { dried := fd :: dried, ptys, gone, owed := owing s r.1 }) :=
          fun _ _ hq h => h.quiet hq
        split
        · exact .bind ((degradeLog_keeps hquiet).conseq (fun _ => id) (fun _ _ => id)
            fun _ w hw => hw.sound rfl) fun _ => .pure fun _ => id
        · exact .pure fun _ => id
    · refine .of_false ?_
      rintro w hw
      exact hpty hw.2.2

end drain

section publish
variable {E : PersistError → World → Prop} {dried : List Fd}
  {ptys : Option (Fd → Option SessionId)} {gone : List SessionId} {s : SessionId}
  {chunk : Bytes} {rest : List Bytes} {targets : List Fd}

/-- A chunk is still owed to the connections in `pending`, and what follows it to all. -/
def owingOne (s : SessionId) (pending : List Fd) (chunk : Bytes) (rest : List Bytes) :
    Fd → SessionId → List Bytes :=
  fun fd s' => if s' = s then (if fd ∈ pending then chunk :: rest else rest) else []

/-- A connection that output of `s` may be queued to, when it is still there. -/
def Receiver (s : SessionId) (w : World) (fd : Fd) : Prop :=
  w.controllerFd ≠ some fd ∧ (w.role fd = none ∨ (table w.log).place fd = some s)

/-- While output of `s` is queued: only `targets` are attached to `s`. -/
structure Publishing (s : SessionId) (targets : List Fd) (w : World) : Prop where
  receivers : ∀ fd ∈ targets, Receiver s w fd
  complete : ∀ fd, (table w.log).place fd = some s → fd ∈ targets

theorem Publishing.quiet {w w' : World} (h : Publishing s targets w) (hq : Quiet w w') :
    Publishing s targets w' := by
  refine ⟨fun fd hfd => ?_, fun fd => ?_⟩
  · rw [Receiver, hq.controller, hq.log, hq.role]
    exact h.receivers fd hfd
  · rw [hq.log]
    exact h.complete fd

theorem Publishing.remove {w : World} (h : Publishing s targets w) (fd : Fd) :
    Publishing s targets (w.remove fd) := by
  refine ⟨fun fd' hfd' => ⟨(h.receivers fd' hfd').1, ?_⟩, fun fd' hs' => ?_⟩
  · rw [role_remove]
    by_cases hne : fd' = fd
    · exact .inl (if_pos hne)
    · rw [if_neg hne, tablePlace_remove]
      exact (h.receivers fd' hfd').2.imp_right fun hs => ⟨hne, hs⟩
  · exact h.complete fd' (tablePlace_remove.mp hs').2

theorem Publishing.output {w : World} {fd : Fd} (h : Publishing s targets w) :
    Publishing s targets { w with log := .output fd s chunk :: w.log } := by
  have htable : table (.output fd s chunk :: w.log) = table w.log := table_cons _ _
  refine ⟨fun fd' hfd' => ⟨(h.receivers fd' hfd').1, ?_⟩, fun fd' hs' => ?_⟩
  · rw [htable]
    exact (h.receivers fd' hfd').2
  · exact h.complete fd' (htable ▸ hs')

/-- One receiver gets the chunk, or it is gone. -/
theorem publishTo_triple {fd : Fd} {pending : List Fd} {frame : HolderFrame}
    (hfd : fd ∈ targets) (hfresh : fd ∉ pending) :
    Triple (fun w => Inv { dried, ptys, gone, owed := owingOne s (fd :: pending) chunk rest } w ∧
        Publishing s targets w)
      (queueOrDisconnect fd frame (some (.output fd s chunk)))
      (fun _ w => Inv { dried, ptys, gone, owed := owingOne s pending chunk rest } w ∧
        Publishing s targets w) E := by
  have hquiet : QuietClosed fun w =>
      Inv { dried, ptys, gone, owed := owingOne s (fd :: pending) chunk rest } w ∧
        Publishing s targets w := fun _ _ hq h => ⟨h.1.quiet hq, h.2.quiet hq⟩
  have hother : ∀ fd' s', fd' ≠ fd →
      owingOne s pending chunk rest fd' s' = owingOne s (fd :: pending) chunk rest fd' s' := by
    intro fd' s' hne
    simp [owingOne, hne]
  refine queueOrDisconnect_triple hquiet (fun w hw hrole => ⟨?_, hw.2.output⟩)
    (disconnect_triple hquiet (fun w hw => (hw.2.receivers fd hfd).1) fun w hw => ⟨?_, hw.2.remove fd⟩)
  · refine hw.1.output ((hw.2.receivers fd hfd).2.resolve_left hrole) ?_
      fun fd' s' _ hne => hother fd' s' hne
    simp [owingOne, hfresh]
  · refine (hw.1.remove_other (nofun) (nofun) rfl (hw.2.receivers fd hfd).1).owe ?_
    intro fd' s' hs'
    exact hother fd' s' (tablePlace_remove.mp hs').1

theorem publishChunk_triple (hnodup : targets.Nodup) :
    Triple (fun w => Inv { dried, ptys, gone, owed := owing s (chunk :: rest) } w ∧
        Publishing s targets w)
      (publishChunk s targets chunk)
      (fun _ w => Inv { dried, ptys, gone, owed := owing s rest } w ∧ Publishing s targets w) E := by
  refine .bind (eventFrame_triple _ _) fun frame => ?_
  refine (Triple.forEach (I := fun bs w =>
    (Inv { dried, ptys, gone, owed := owingOne s bs chunk rest } w ∧ Publishing s targets w) ∧
      bs <:+ targets) (fun b bs => ?_) targets).conseq (fun w hw => ⟨⟨?_, hw.2⟩, List.suffix_refl _⟩)
      (fun _ w hw => ⟨hw.1.1.owe fun fd s' _ => ?_, hw.1.2⟩) fun _ _ => id
  · by_cases hbs : b :: bs <:+ targets
    · have hb : b ∉ bs := (List.nodup_cons.mp (hbs.sublist.nodup hnodup)).1
      refine (publishTo_triple (hbs.subset List.mem_cons_self) hb).conseq (fun w hw => hw.1)
        (fun _ w hw => ⟨hw, (List.suffix_cons b bs).trans hbs⟩) fun _ _ => id
    · exact .of_false fun w hw => hbs hw.2
  · refine hw.1.owe fun fd s' hs' => ?_
    by_cases hs : s' = s
    · subst hs
      simp [owing, owingOne, hw.2.complete fd hs']
    · simp [owing, owingOne, hs]
  · simp [owing, owingOne]

theorem attachedTo_nodup (h : HolderServer) (s : SessionId) : (attachedTo h s).Nodup :=
  h.connections.nodup_keys.sublist List.filter_sublist

theorem publishing_attachedTo {ph : Phase} {w : World} (h : Inv ph w) (hclaim : ph.claim = none)
    (hleaving : ph.leaving = none) (s : SessionId) :
    Publishing s (attachedTo w.server s) w := by
  have hplace : ∀ fd, w.place fd = (table w.log).place fd := fun fd => by
    rw [h.place, hclaim]
    rfl
  refine ⟨fun fd hfd => ⟨fun hc => ?_, .inr ?_⟩, fun fd hs => ?_⟩
  · have hs := mem_attachedTo.mp hfd
    rw [hplace] at hs
    have hcontrol := h.controller fd hc (by simp [hleaving])
    rw [h.data fd s hs] at hcontrol
    cases hcontrol
  · exact (hplace fd).symm.trans (mem_attachedTo.mp hfd)
  · exact mem_attachedTo.mpr ((hplace fd).trans hs)

theorem publishOutput_triple (batch : OutputBatch) :
    Triple (Inv { dried, ptys, gone, owed := owing batch.sessionId batch.chunks })
      (publishOutput batch) (fun _ => Inv { dried, ptys, gone }) (fun _ => Sound) := by
  refine .bind server_triple fun h => ?_
  have hnodup := attachedTo_nodup h batch.sessionId
  refine .bind (Q := fun _ => Inv { dried, ptys, gone }) ?_ fun _ => ?_
  · refine (Triple.forEach (I := fun chunks w =>
      Inv { dried, ptys, gone, owed := owing batch.sessionId chunks } w ∧
        Publishing batch.sessionId (attachedTo h batch.sessionId) w)
        (fun chunk rest => publishChunk_triple hnodup) _).conseq ?_ ?_ fun _ _ => id
    · rintro w ⟨hw, rfl⟩
      exact ⟨hw, publishing_attachedTo hw rfl rfl _⟩
    · intro _ w hw
      exact hw.1.owe fun fd s' _ => by simp [owing]
  · split
    · exact .bind (eventFrame_triple _ _) fun frame => sendControl_inv rfl rfl rfl frame
    · exact .pure fun _ => id

theorem drainAndPublish_triple (fd : Fd) :
    Triple (Inv { dried, ptys, gone }) (drainAndPublish fd)
      (fun _ => Inv { dried := fd :: dried, ptys, gone }) (fun _ => Sound) :=
  .bind (drainOutput_triple fd dried ptys gone) fun batch => publishOutput_triple batch

end publish

end Holder

end PersistShell

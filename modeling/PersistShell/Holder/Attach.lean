import PersistShell.Holder.Detach

/-! A data connection attaches: the slot of the writer is claimed before the connection is
recorded as attached, and the invariant says so in between. -/

namespace PersistShell

section claim
variable {w : World} {fd : Fd} {s : SessionId} {mode : HolderAttachMode} {log : List Note}

theorem tablePlace_attached (fd' : Fd) :
    (table (.attached fd s mode :: log)).place fd' =
      if fd' = fd then some s else (table log).place fd' := by
  rw [table_cons]
  simp only [Note.event, Arbiter.Table.apply, Arbiter.Table.attach, Arbiter.Table.detach]
  by_cases h : fd' = fd
  · subst h
    rw [if_pos rfl, Function.update_self]
  · rw [if_neg h, Function.update_of_ne h, Function.update_of_ne h]

theorem tableHolder_attached (hfree : (table log).place fd = none) (s' : SessionId) :
    (table (.attached fd s mode :: log)).holder s' =
      if mode = .readWrite ∧ s' = s then some fd else (table log).holder s' := by
  have hnot : ∀ r, (table log).holder r ≠ some fd := by
    intro r hr
    rw [coherent_table _ r fd hr] at hfree
    cases hfree
  rw [table_cons]
  simp only [Note.event, Arbiter.Table.apply, Arbiter.Table.attach, Arbiter.Table.detach,
    if_neg (hnot _)]
  by_cases hmode : mode = .readWrite
  · by_cases hs : s' = s
    · subst hs
      simp [hmode]
    · simp [hmode, hs]
  · simp [hmode]

/-- What an attach does before the connection itself is changed. -/
def World.claim (w : World) (fd : Fd) (s : SessionId) (mode : HolderAttachMode) : World :=
  { w with
    server := { w.server with
      writers := if mode = .readWrite then w.server.writers.insert s fd else w.server.writers }
    log := .attached fd s mode :: w.log }

theorem Inv.claim (h : Inv {} w) (hfree : (table w.log).place fd = none)
    (hrole : w.role fd = some .data) (hs : w.core s ≠ none) :
    Inv { claim := some (fd, s) } (w.claim fd s mode) where
  place fd' := by
    change w.place fd' = if some fd = some fd' then none else
      (table (.attached fd s mode :: w.log)).place fd'
    rw [tablePlace_attached, h.place]
    by_cases heq : fd' = fd
    · subst heq
      rw [if_pos rfl]
      exact hfree
    · rw [if_neg (fun he => heq (Option.some.inj he).symm), if_neg heq]
      rfl
  claimed fd' s' hs' := by
    cases hs'
    exact (tablePlace_attached fd).trans (if_pos rfl)
  guest fd' hg := nomatch hg
  holder s' := by
    change _ = (table (.attached fd s mode :: w.log)).holder s'
    rw [tableHolder_attached hfree]
    unfold World.claim
    by_cases hmode : mode = .readWrite
    · simp only [hmode, if_true, true_and, NatMap.get_insert]
      by_cases heq : s' = s
      · rw [if_pos heq, if_pos heq.symm]
      · rw [if_neg heq, if_neg (Ne.symm heq)]
        exact h.holder s'
    · simp only [hmode, if_false, false_and]
      exact h.holder s'
  controller fd' hc _ := h.controller fd' hc (nofun)
  data fd' s' hs' := by
    change w.role fd' = _
    rw [show (w.claim fd s mode).log = .attached fd s mode :: w.log from rfl,
      tablePlace_attached] at hs'
    by_cases heq : fd' = fd
    · rw [heq, hrole]
    · rw [if_neg heq] at hs'
      exact h.data fd' s' hs'
  ptyOf := h.ptyOf
  exit := h.exit
  terminal := h.terminal
  dry := h.dry
  dried fd' hfd' := (List.not_mem_nil hfd').elim
  ptys p hp := nomatch hp
  gone s hs := (List.not_mem_nil hs).elim
  ring := h.ring
  streams fd' s' hs' := by
    rw [show (w.claim fd s mode).log = .attached fd s mode :: w.log from rfl] at hs' ⊢
    rw [tablePlace_attached] at hs'
    by_cases heq : fd' = fd
    · simp [outputsTo, drainedFor, heq]
    · rw [if_neg heq] at hs'
      simpa only [outputsTo, drainedFor, if_neg (Ne.symm heq)] using h.streams fd' s' hs'
  present hr fd' s' hs' := by
    rw [show (w.claim fd s mode).log = .attached fd s mode :: w.log from rfl] at hr hs'
    change w.core s' ≠ none
    rw [tablePlace_attached] at hs'
    by_cases heq : fd' = fd
    · rw [if_pos heq] at hs'
      cases hs'
      exact hs
    · rw [if_neg heq] at hs'
      exact h.present (fun s fds hmem => hr s fds (List.mem_cons_of_mem _ hmem)) fd' s' hs'
  facts := ⟨trivial, h.facts⟩

/-- The connection is recorded as attached. -/
def World.settle (w : World) (fd : Fd) (s : SessionId) : World :=
  { w with server := { w.server with
      connections := w.server.connections.alter fd
        (·.map fun c => { c with attachedSession := some s }) } }

theorem World.role_settle (w : World) (fd : Fd) (s : SessionId) (fd' : Fd) :
    (w.settle fd s).role fd' = w.role fd' :=
  w.role_alter fd fd' _ fun _ => rfl

theorem Inv.settle (h : Inv { claim := some (fd, s) } w) : Inv {} (w.settle fd s) := by
  have hfd : (table w.log).place fd = some s := h.claimed fd s rfl
  have hnone : ∀ {α : Type} {a : α}, none ≠ some a := fun he => Option.some_ne_none _ he.symm
  refine { h with
    place := ?_
    claimed := fun _ _ hc => absurd hc hnone
    controller := ?_
    guest := fun _ hg => absurd hg hnone
    data := ?_ }
  · intro fd'
    rw [if_neg (fun he => by cases he), World.place, World.settle, NatMap.get_alter]
    split
    · rename_i heq
      subst heq
      have hregistered : w.role fd ≠ none := by
        rw [h.data fd s hfd]
        exact Option.some_ne_none _
      obtain ⟨c, hc⟩ := Holder.exists_of_role hregistered
      rw [hc, hfd]
      rfl
    · rename_i hne
      exact (h.place fd').trans (if_neg fun he => hne (Option.some.inj he))
  · intro fd' hc _
    rw [w.role_settle]
    exact h.controller fd' hc hnone
  · intro fd' s' hs'
    rw [w.role_settle]
    exact h.data fd' s' hs'

end claim

/-- The entries that change none of the tables. -/
def Note.inert : Note → Prop
  | .delivered _ _ _ | .announced _ _ => True
  | _ => False

theorem Inv.inert {ph : Phase} {w : World} {n : Note} (h : Inv ph w) (hn : n.inert)
    (hfact : Fact n w.log) : Inv ph { w with log := n :: w.log } := by
  have htable : table (n :: w.log) = table w.log := by
    rw [table_cons]
    cases n <;> first | exact hn.elim | rfl
  have hdrained : ∀ s, drained s (n :: w.log) = drained s w.log := by
    intro s
    cases n <;> first | exact hn.elim | rfl
  have hdry : ∀ fd, lastDry fd (n :: w.log) = lastDry fd w.log := by
    intro fd
    cases n <;> first | exact hn.elim | rfl
  have hexited : ∀ s, hasExited s (n :: w.log) = hasExited s w.log := by
    intro s
    cases n <;> first | exact hn.elim | rfl
  have houtputs : ∀ fd, outputsTo fd (n :: w.log) = outputsTo fd w.log := by
    intro fd
    cases n <;> first | exact hn.elim | rfl
  have hfor : ∀ fd s, drainedFor fd s (n :: w.log) = drainedFor fd s w.log := by
    intro fd s
    cases n <;> first | exact hn.elim | rfl
  refine { h with
    place := ?_, claimed := ?_, holder := ?_, data := ?_, terminal := ?_, dry := ?_, dried := ?_
    gone := ?_, ring := ?_, streams := ?_, present := ?_, facts := ⟨hfact, h.facts⟩ }
  · simp only [htable]
    exact h.place
  · simp only [htable]
    exact h.claimed
  · simp only [htable]
    exact h.holder
  · simp only [htable]
    exact h.data
  · simp only [hdrained]
    exact h.terminal
  · simp only [hdry]
    exact h.dry
  · simp only [hdry]
    exact h.dried
  · simp only [hexited]
    exact h.gone
  · simp only [hdrained]
    exact h.ring
  · simp only [htable, houtputs, hfor]
    exact h.streams
  · intro hr
    simp only [htable]
    exact h.present fun s fds hmem => hr s fds (List.mem_cons_of_mem _ hmem)

namespace Holder
open Program

section data
variable {E : PersistError → World → Prop} {fd : Fd} {s : SessionId} {frame : HolderFrame}

/-- The connection `fd` is a data connection of a holder that is between two steps. -/
def Guarded (fd : Fd) (w : World) : Prop := Inv {} w ∧ w.role fd = some .data

theorem guarded_quiet : QuietClosed (Guarded fd) := by
  intro w w' hq hw
  refine ⟨hw.1.quiet hq, ?_⟩
  rw [hq.role]
  exact hw.2

theorem guarded_registered : Registered (Guarded fd) fd := by
  intro w hw
  rw [hw.2]
  exact Option.some_ne_none _

/-- While `fd` claims a slot, a connection that loses it is not the controller and not `fd`. -/
theorem revokeWriter_triple (previous : Option Fd) :
    Triple (fun w => Inv { claim := some (fd, s) } w ∧ w.core s ≠ none ∧
        ∀ p, previous = some p → p ≠ fd ∧ w.role p = some .data)
      (revokeWriter previous s) (fun _ w => Inv { claim := some (fd, s) } w ∧ w.core s ≠ none) E := by
  cases previous with
  | none => exact .pure fun _ hw => ⟨hw.1, hw.2.1⟩
  | some p =>
    refine .bind (writerFrame_triple _ s) fun frame => ?_
    have hquiet : QuietClosed fun w => Inv { claim := some (fd, s) } w ∧ w.core s ≠ none ∧
        ∀ q, some p = some q → q ≠ fd ∧ w.role q = some .data := by
      intro w w' hq hw
      rw [hq.core]
      simp only [hq.role]
      exact ⟨hw.1.quiet hq, hw.2⟩
    have hcontroller : ∀ w, (Inv { claim := some (fd, s) } w ∧ w.core s ≠ none ∧
        ∀ q, some p = some q → q ≠ fd ∧ w.role q = some .data) → w.controllerFd ≠ some p := by
      intro w hw hc
      have := hw.1.controller p hc (nofun)
      rw [(hw.2.2 p rfl).2] at this
      cases this
    refine queueOrDisconnect_triple hquiet (fun w hw _ => ⟨hw.1, hw.2.1⟩)
      (disconnect_triple hquiet hcontroller fun w hw => ⟨?_, hw.2.1⟩)
    refine hw.1.remove_other ?_ (nofun) rfl (hcontroller w hw)
    exact fun heq => (hw.2.2 p rfl).1 (Option.some.inj heq).symm

theorem claimWriter_triple (mode : HolderAttachMode) :
    Triple (fun w => Guarded fd w ∧ (table w.log).place fd = none ∧ w.core s ≠ none)
      (claimWriter fd s mode)
      (fun previous w => Inv { claim := some (fd, s) } w ∧ w.core s ≠ none ∧
        ∀ p, previous = some p → p ≠ fd ∧ w.role p = some .data) E := by
  rintro w ⟨⟨hinv, hrole⟩, hfree, hs⟩
  have hclaim : Inv { claim := some (fd, s) } (w.claim fd s mode) := hinv.claim hfree hrole hs
  have hprevious : ∀ p, w.server.writers[s]? = some p → p ≠ fd ∧ w.role p = some .data := by
    intro p hp
    have hplace := coherent_table _ s p (by rw [← hinv.holder, hp])
    refine ⟨?_, hinv.data p s hplace⟩
    rintro rfl
    rw [hfree] at hplace
    cases hplace
  unfold World.claim at hclaim
  by_cases hmode : mode = .readWrite
  · rw [if_pos hmode] at hclaim
    simp only [claimWriter, server, note, modifyServer, bind_apply, read_apply, update_apply,
      if_pos hmode]
    exact ⟨hclaim, hs, hprevious⟩
  · rw [if_neg hmode] at hclaim
    simp only [claimWriter, server, note, bind_apply, read_apply, update_apply, if_neg hmode]
    exact ⟨hclaim, hs, fun p hp => by cases hp⟩

theorem replay_eq_none {w : World} {n : Nat} :
    w.server.runtime.replay s n = none ↔ w.core s = none := by
  rw [Runtime.replay, World.core, Option.map_eq_none_iff, Option.map_eq_none_iff]

theorem attach_keeps :
    Triple (Guarded fd) (attach fd frame) (fun _ => Guarded fd) (fun _ => Inv {}) := by
  have hguarded : ∀ {w}, Guarded fd w → Inv {} w := fun h => h.1
  refine .bind ((protocol_keeps (J := Guarded fd) _ _).conseq (fun _ => id) (fun _ _ => id)
    fun _ _ => hguarded) fun request => ?_
  refine .bind server_triple fun h => ?_
  have hresponse : ∀ {J : World → Prop} (_ : QuietClosed J) (_ : ∀ w, J w → Inv {} w)
      (response : OperationResponse),
      Triple J (operationResponse fd frame .attachResp response) (fun _ => J)
        (fun _ => Inv {}) := fun hJ hinv response =>
    (operationResponse_keeps hJ fd frame .attachResp response).conseq (fun _ => id)
      (fun _ _ => id) fun _ => hinv
  split
  · exact (hresponse guarded_quiet (fun _ => hguarded) _).pre fun _ hw => hw.1
  · rename_i hsome
    refine .bind (Q := fun _ w => Guarded fd w ∧ (table w.log).place fd = none ∧
      w.core request.sessionId ≠ none) ?_ fun _ => ?_
    · rintro w ⟨⟨hinv, hrole⟩, rfl⟩
      rw [detachConnection_run]
      refine ⟨⟨hinv.detach (nofun), ?_⟩, ?_, ?_⟩
      · rw [w.role_detach]
        exact hrole
      · rw [show (w.detach fd).log = .detached fd :: w.log from rfl, table_cons]
        exact Function.update_self _ _ _
      · intro hnone
        exact hsome (Option.isNone_iff_eq_none.mpr (replay_eq_none.mpr hnone))
    refine .bind (claimWriter_triple request.mode) fun previous => ?_
    refine .bind (revokeWriter_triple previous) fun _ => ?_
    have hquiet : QuietClosed fun w => Guarded fd w ∧ w.core request.sessionId ≠ none := by
      intro w w' hq hw
      rw [hq.core]
      exact ⟨guarded_quiet w w' hq hw.1, hw.2⟩
    have hclaimed : ∀ w, Inv { claim := some (fd, request.sessionId) } w →
        w.role fd = some .data := fun w hw => hw.data fd _ (hw.claimed fd _ rfl)
    refine .bind (Q := fun _ w => Guarded fd w ∧ w.core request.sessionId ≠ none) (.bind
      (connection_triple fun w hw => ?_) fun c => .update fun w hw => ⟨⟨hw.1.1.settle, ?_⟩, hw.1.2⟩)
      fun _ => ?_
    · rw [hclaimed w hw.1]
      exact Option.some_ne_none _
    · exact (w.role_settle fd _ fd).trans (hclaimed w hw.1.1)
    refine .bind (hresponse hquiet (fun _ hw => hw.1.1) _) fun _ => ?_
    refine .bind server_triple fun h => .bind (Q := fun _ => Guarded fd) (.unwrap ?_) fun replay => ?_
    · rintro w ⟨⟨hinv, hcore⟩, rfl⟩
      obtain ⟨bytes, hbytes⟩ := Option.ne_none_iff_exists'.mp fun hnone =>
        hcore (replay_eq_none (n := request.replayBytes).mp hnone)
      exact ⟨bytes, hbytes, hinv⟩
    refine Triple.conseq (P := Guarded fd) (Keeps.bind (Keeps.forEach (fun chunk => ?_) _) fun _ => ?_)
      (fun _ => id) (fun _ _ => id) fun _ _ => hguarded
    · exact Keeps.bind (eventFrame_triple _ _) fun _ => queueFrame_keeps guarded_quiet fd _
    · split
      · exact Keeps.bind (writerFrame_triple _ _) fun _ => queueFrame_keeps guarded_quiet fd _
      · exact Keeps.pure _

/-- A frame of the writer is handed over: the log says who the writer was. -/
theorem deliver_triple (kind : DeliveryKind) :
    Triple (fun w => Guarded fd w ∧ w.server.writers[s]? = some fd) (note (.delivered fd s kind))
      (fun _ => Guarded fd) E := by
  refine .update fun w hw => ⟨hw.1.1.inert trivial ?_, hw.1.2⟩
  change (table w.log).holder s = some fd
  rw [← hw.1.1.holder, hw.2]

theorem requireWriter_guarded :
    Triple (Guarded fd) (requireWriter fd)
      (fun s w => Guarded fd w ∧ w.server.writers[s]? = some fd) (fun _ => Guarded fd) :=
  (requireWriter_triple guarded_registered).post fun _ _ hw => ⟨hw.1, hw.2.1⟩

theorem handleInput_keeps : Keeps (Guarded fd) (handleInput fd frame) := by
  refine Triple.bind requireWriter_guarded fun s => Triple.bind (deliver_triple _) fun _ => ?_
  refine Keeps.bind (queueInput_keeps guarded_quiet _) fun pending => Keeps.bind (Keeps.read _)
    fun h => ?_
  cases h.runtime.ptyFd s with
  | none => exact Keeps.pure _
  | some ptyFd => exact reactorModify_keeps guarded_quiet _ _

/-- A request that the writer makes of the terminal, once it is decoded. -/
theorem writerRequest_keeps {α : Type} (context : String)
    (decoded : Except HolderProtocolError α) (kind : α → DeliveryKind) {perform : Holder Unit}
    (hperform : Keeps (Guarded fd) perform) :
    Triple (fun w => Guarded fd w ∧ w.server.writers[s]? = some fd)
      (do
        let request ← protocol context decoded
        note (.delivered fd s (kind request))
        perform) (fun _ => Guarded fd) (fun _ => Guarded fd) := by
  refine .bind (Q := fun _ w => Guarded fd w ∧ w.server.writers[s]? = some fd)
    (.lift (fun _ _ _ => id) fun _ _ _ hw => hw.1) fun request => ?_
  exact .bind (deliver_triple _) fun _ => hperform

theorem handleResize_keeps : Keeps (Guarded fd) (handleResize fd frame) :=
  Triple.bind requireWriter_guarded fun _ =>
    writerRequest_keeps _ _ .resize (resize_keeps guarded_quiet)

theorem handleSignalFrame_keeps : Keeps (Guarded fd) (handleSignalFrame fd frame) :=
  Triple.bind requireWriter_guarded fun _ =>
    writerRequest_keeps _ _ .signal (signal_keeps guarded_quiet)

theorem handleData_keeps :
    Triple (Guarded fd) (handleData fd frame) (fun _ => Guarded fd) (fun _ => Inv {}) := by
  have hweak : ∀ {m : Holder Unit}, Keeps (Guarded fd) m →
      Triple (Guarded fd) m (fun _ => Guarded fd) (fun _ => Inv {}) := fun h =>
    h.conseq (fun _ => id) (fun _ _ => id) fun _ _ hw => hw.1
  unfold handleData
  split
  · exact attach_keeps
  · split
    · rintro w ⟨hw, hrole⟩
      rw [detachConnection_run]
      exact ⟨hw.detach (nofun), (w.role_detach fd fd).trans hrole⟩
    · exact hweak (Keeps.fail _)
  · exact hweak handleInput_keeps
  · exact hweak handleResize_keeps
  · exact hweak handleSignalFrame_keeps
  · exact hweak (Keeps.fail _)

end data

end Holder

end PersistShell

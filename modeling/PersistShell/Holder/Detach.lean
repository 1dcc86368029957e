import PersistShell.Holder.Answers

/-! Connections are detached and removed and writer slots taken back, each against the log
entry that it makes. -/

namespace PersistShell

/-- The entries that only change who is attached or who may write, and attach nobody. -/
def Note.clears : Note → Prop
  | .detached _ | .disconnected _ | .released _ => True
  | _ => False

section clears
variable {n : Note} {log : List Note}

theorem table_cons (n : Note) (log : List Note) :
    table (n :: log) = match n.event with
      | none => table log
      | some e => (table log).apply e := by
  unfold table
  cases h : n.event with
  | none => rw [List.filterMap_cons_none h]
  | some e => rw [List.filterMap_cons_some h]; rfl

theorem coherent_table (log : List Note) : (table log).Coherent := Arbiter.coherent_replay _

theorem place_detach {t : Arbiter.Table Fd SessionId} {fd fd' : Fd} {s : SessionId} :
    (t.detach fd).place fd' = some s ↔ fd' ≠ fd ∧ t.place fd' = some s := by
  by_cases h : fd' = fd
  · subst h
    simp [Arbiter.Table.detach]
  · simp [Arbiter.Table.detach, h]

theorem place_of_clears (hn : n.clears) {fd : Fd} {s : SessionId}
    (h : (table (n :: log)).place fd = some s) : (table log).place fd = some s := by
  rw [table_cons] at h
  cases n <;> first | exact hn.elim | skip
  · exact (place_detach.mp h).2
  · exact (place_detach.mp h).2
  · exact h

theorem drained_of_clears (hn : n.clears) (s : SessionId) :
    drained s (n :: log) = drained s log := by
  cases n <;> first | exact hn.elim | rfl

theorem lastDry_of_clears (hn : n.clears) (fd : Fd) : lastDry fd (n :: log) = lastDry fd log := by
  cases n <;> first | exact hn.elim | rfl

theorem outputsTo_of_clears (hn : n.clears) (fd : Fd) :
    outputsTo fd (n :: log) = outputsTo fd log := by
  cases n <;> first | exact hn.elim | rfl

theorem drainedFor_of_clears (hn : n.clears) (fd : Fd) (s : SessionId) :
    drainedFor fd s (n :: log) = drainedFor fd s log := by
  cases n <;> first | exact hn.elim | rfl

theorem hasExited_of_clears (hn : n.clears) (s : SessionId) :
    hasExited s (n :: log) = hasExited s log := by
  cases n <;> first | exact hn.elim | rfl

theorem retiredUnattached_of_clears (h : RetiredUnattached (n :: log)) :
    RetiredUnattached log :=
  fun s fds hmem => h s fds (List.mem_cons_of_mem _ hmem)

theorem fact_of_clears (hn : n.clears) : Fact n log := by
  cases n <;> first | exact hn.elim | exact trivial

end clears

/-- A step that makes one clearing entry and changes connections, writers and the controller
only. -/
theorem Inv.clear {ph ph' : Phase} {w w' : World} {n : Note} (h : Inv ph w) (hn : n.clears)
    (hlog : w'.log = n :: w.log) (hruntime : w'.server.runtime = w.server.runtime)
    (hterminals : w'.terminals = w.terminals)
    (hdraining : ph'.draining = ph.draining) (hreaped : ph'.reaped = ph.reaped)
    (hdried : ph'.dried = ph.dried) (hptys : ph'.ptys = ph.ptys) (hgone : ph'.gone = ph.gone)
    (howed : ph'.owed = ph.owed)
    (hplace : ∀ fd, w'.place fd =
      if ph'.claim.map Prod.fst = some fd then none else (table (n :: w.log)).place fd)
    (hclaimed : ∀ fd s, ph'.claim = some (fd, s) → (table (n :: w.log)).place fd = some s)
    (hholder : ∀ s : SessionId, w'.server.writers[s]? = (table (n :: w.log)).holder s)
    (hcontroller : ∀ fd, w'.controllerFd = some fd → ph'.leaving ≠ some fd →
      w'.role fd = some .control)
    (hguest : ∀ fd, ph'.guest = some fd → w'.role fd = some .pending)
    (hdata : ∀ fd s, (table (n :: w.log)).place fd = some s → w'.role fd = some .data) :
    Inv ph' w' where
  place fd := by rw [hlog]; exact hplace fd
  claimed fd s := by rw [hlog]; exact hclaimed fd s
  guest := hguest
  holder s := by rw [hlog]; exact hholder s
  controller := hcontroller
  data fd s := by rw [hlog]; exact hdata fd s
  ptyOf fd s := by rw [World.core, hruntime]; exact h.ptyOf fd s
  exit s core := by rw [World.core, hruntime, hreaped]; exact h.exit s core
  terminal fd s hs := by
    rw [hruntime] at hs
    rw [hterminals, hlog, drained_of_clears hn]
    exact h.terminal fd s hs
  dry fd s m hs hd hl := by
    rw [hruntime] at hs
    rw [hlog, lastDry_of_clears hn] at hl
    rw [hterminals]
    exact h.dry fd s m hs (hdraining ▸ hd) hl
  dried fd hfd := by
    rw [hlog, lastDry_of_clears hn]
    exact h.dried fd (hdried ▸ hfd)
  ptys p hp fd := by
    rw [hruntime]
    exact h.ptys p (hptys ▸ hp) fd
  gone s hs := by
    rw [hlog, hasExited_of_clears hn]
    exact h.gone s (hgone ▸ hs)
  ring s core hcore := by
    rw [World.core, hruntime] at hcore
    rw [hlog, drained_of_clears hn]
    exact h.ring s core hcore
  streams fd s hs := by
    rw [hlog] at hs ⊢
    rw [outputsTo_of_clears hn, drainedFor_of_clears hn, howed]
    exact h.streams fd s (place_of_clears hn hs)
  present hr fd s hs := by
    rw [hlog] at hr hs
    rw [World.core, hruntime]
    exact h.present (retiredUnattached_of_clears hr) fd s (place_of_clears hn hs)
  facts := by
    rw [hlog]
    exact ⟨fact_of_clears hn, h.facts⟩

namespace World

/-- What `detach_connection` does to the tables. -/
def detach (w : World) (fd : Fd) : World :=
  { w with
    server := { w.server with
      connections := w.server.connections.alter fd
        (·.map fun c => { c with attachedSession := none })
      writers := match w.place fd with
        | none => w.server.writers
        | some s => if w.server.writers[s]? = some fd then w.server.writers.erase s
          else w.server.writers }
    log := .detached fd :: w.log }

theorem role_alter (w : World) (fd fd' : Fd) (f : Connection → Connection)
    (hf : ∀ c, (f c).role = c.role) :
    (w.server.connections.alter fd (·.map f))[fd']?.map (·.role) = w.role fd' := by
  rw [World.role, NatMap.get_alter]
  split
  · rename_i heq
    subst heq
    cases w.server.connections[fd]? with
    | none => rfl
    | some c => exact congrArg some (hf c)
  · rfl

theorem role_detach (w : World) (fd fd' : Fd) : (w.detach fd).role fd' = w.role fd' :=
  w.role_alter fd fd' _ fun _ => rfl

theorem place_detach (w : World) (fd fd' : Fd) :
    (w.detach fd).place fd' = if fd' = fd then none else w.place fd' := by
  simp only [World.place, detach]
  rw [NatMap.get_alter]
  split
  · rename_i heq
    subst heq
    rw [if_pos rfl]
    cases w.server.connections[fd]? with
    | none => rfl
    | some c => rfl
  · rename_i hne
    rw [if_neg (Ne.symm hne)]

theorem writers_detach {w : World} {fd : Fd}
    (h : ∀ s : SessionId, w.server.writers[s]? = some fd → w.place fd = some s) (s : SessionId) :
    (w.detach fd).server.writers[s]? =
      if w.server.writers[s]? = some fd then none else w.server.writers[s]? := by
  simp only [detach]
  split
  · rename_i hplace
    rw [if_neg]
    intro hs
    rw [h s hs] at hplace
    cases hplace
  · rename_i s' hplace
    by_cases hs' : w.server.writers[s']? = some fd
    · rw [if_pos hs', NatMap.get_erase]
      by_cases heq : s' = s
      · subst heq
        rw [if_pos rfl, if_pos hs']
      · rw [if_neg heq, if_neg]
        intro hs
        rw [h s hs] at hplace
        cases hplace
        exact heq rfl
    · rw [if_neg hs', if_neg]
      intro hs
      rw [h s hs] at hplace
      cases hplace
      exact hs' hs

end World

theorem Inv.holder_place {ph : Phase} {w : World} (h : Inv ph w) {fd : Fd}
    (hclaim : ph.claim.map Prod.fst ≠ some fd) (s : SessionId)
    (hs : w.server.writers[s]? = some fd) : w.place fd = some s := by
  rw [h.place, if_neg hclaim]
  exact coherent_table _ s fd (by rw [← h.holder, hs])

theorem Inv.detach {ph : Phase} {w : World} (h : Inv ph w) {fd : Fd}
    (hclaim : ph.claim.map Prod.fst ≠ some fd) : Inv ph (w.detach fd) := by
  refine h.clear (n := .detached fd) trivial rfl rfl rfl rfl rfl rfl rfl rfl rfl ?_ ?_ ?_ ?_ ?_ ?_
  · intro fd'
    rw [w.place_detach, h.place, table_cons]
    simp only [Note.event, Arbiter.Table.apply, Arbiter.Table.detach]
    by_cases heq : fd' = fd
    · subst heq
      rw [if_pos rfl, if_neg hclaim, Function.update_self]
    · rw [if_neg heq, Function.update_of_ne heq]
  · intro fd' s hs
    rw [table_cons]
    refine PersistShell.place_detach.mpr ⟨?_, h.claimed fd' s hs⟩
    rintro rfl
    exact hclaim (by rw [hs]; rfl)
  · intro s
    rw [World.writers_detach (h.holder_place hclaim), h.holder, table_cons]
    rfl
  · intro fd'
    rw [w.role_detach]
    exact h.controller fd'
  · intro fd'
    rw [w.role_detach]
    exact h.guest fd'
  · intro fd' s hs
    rw [w.role_detach]
    exact h.data fd' s (place_of_clears (n := .detached fd) trivial hs)

namespace World

def erase (w : World) (fd : Fd) : World :=
  { w with
    server := { w.server with connections := w.server.connections.erase fd }
    log := .disconnected fd :: w.log }

theorem role_erase (w : World) (fd fd' : Fd) :
    (w.erase fd).role fd' = if fd' = fd then none else w.role fd' := by
  simp only [World.role, erase]
  rw [NatMap.get_erase]
  split
  · rename_i heq
    rw [if_pos heq.symm]
    rfl
  · rename_i hne
    rw [if_neg (Ne.symm hne)]

theorem place_erase (w : World) (fd fd' : Fd) :
    (w.erase fd).place fd' = if fd' = fd then none else w.place fd' := by
  simp only [World.place, erase]
  rw [NatMap.get_erase]
  split
  · rename_i heq
    rw [if_pos heq.symm]
    rfl
  · rename_i hne
    rw [if_neg (Ne.symm hne)]

end World

/-- A connection that is attached to nothing is erased. -/
theorem Inv.erase {ph : Phase} {w : World} (h : Inv ph w) {fd : Fd}
    (hclaim : ph.claim.map Prod.fst ≠ some fd) (hguest : ph.guest ≠ some fd)
    (hleaving : ph.leaving = none) (hfree : (table w.log).place fd = none) :
    Inv { ph with leaving := some fd } (w.erase fd) := by
  have htable : ∀ fd', (table (.disconnected fd :: w.log)).place fd' = (table w.log).place fd' := by
    intro fd'
    rw [table_cons]
    simp only [Note.event, Arbiter.Table.apply, Arbiter.Table.detach]
    by_cases heq : fd' = fd
    · subst heq
      rw [Function.update_self, hfree]
    · rw [Function.update_of_ne heq]
  refine h.clear (n := .disconnected fd) trivial rfl rfl rfl rfl rfl rfl rfl rfl rfl ?_ ?_ ?_ ?_ ?_ ?_
  · intro fd'
    rw [w.place_erase, h.place, htable]
    by_cases heq : fd' = fd
    · subst heq
      rw [if_pos rfl, if_neg hclaim, hfree]
    · rw [if_neg heq]
  · intro fd' s hs
    rw [htable]
    exact h.claimed fd' s hs
  · intro s
    have hnot : (table w.log).holder s ≠ some fd := by
      intro hs
      rw [coherent_table _ s fd hs] at hfree
      cases hfree
    rw [table_cons]
    simp only [Note.event, Arbiter.Table.apply, Arbiter.Table.detach, if_neg hnot]
    exact h.holder s
  · intro fd' hc hne
    have hne' : fd' ≠ fd := fun heq => hne (by rw [heq])
    rw [w.role_erase, if_neg hne']
    exact h.controller fd' hc (by simp [hleaving])
  · intro fd' hg
    have hne : fd' ≠ fd := fun heq => hguest (heq ▸ hg)
    rw [w.role_erase, if_neg hne]
    exact h.guest fd' hg
  · intro fd' s hs
    rw [htable] at hs
    have hne : fd' ≠ fd := by
      rintro rfl
      rw [hs] at hfree
      cases hfree
    rw [w.role_erase, if_neg hne]
    exact h.data fd' s hs

/-- The place where the invariant forgets that a connection is leaving. -/
theorem Inv.left {ph : Phase} {w : World} {leaving : Option Fd} (h : Inv ph w)
    (hc : ∀ fd, w.controllerFd = some fd → leaving ≠ some fd → w.role fd = some .control) :
    Inv { ph with leaving } w :=
  { h with controller := hc }

/-- What is left of the tables when a connection is removed. -/
def World.remove (w : World) (fd : Fd) : World := (w.detach fd).erase fd

section remove
variable {ph : Phase} {w : World} {fd : Fd}

theorem role_remove (w : World) (fd fd' : Fd) :
    (w.remove fd).role fd' = if fd' = fd then none else w.role fd' := by
  rw [World.remove, World.role_erase, World.role_detach]

theorem tablePlace_remove {fd' : Fd} {s : SessionId} :
    (table (w.remove fd).log).place fd' = some s ↔
      fd' ≠ fd ∧ (table w.log).place fd' = some s := by
  change (table (.disconnected fd :: .detached fd :: w.log)).place fd' = some s ↔ _
  rw [table_cons]
  simp only [Note.event, Arbiter.Table.apply]
  rw [place_detach, table_cons]
  simp only [Note.event, Arbiter.Table.apply]
  rw [place_detach]
  exact ⟨fun h => h.2, fun h => ⟨h.1, h⟩⟩

theorem Inv.remove (h : Inv ph w) (hclaim : ph.claim.map Prod.fst ≠ some fd)
    (hguest : ph.guest ≠ some fd) (hleaving : ph.leaving = none) :
    Inv { ph with leaving := some fd } (w.remove fd) := by
  refine (h.detach hclaim).erase hclaim hguest hleaving ?_
  cases hp : (table (w.detach fd).log).place fd with
  | none => rfl
  | some s =>
    change (table (.detached fd :: w.log)).place fd = some s at hp
    rw [table_cons] at hp
    exact absurd rfl (place_detach.mp hp).1

/-- A connection other than the controller is removed. -/
theorem Inv.remove_other (h : Inv ph w) (hclaim : ph.claim.map Prod.fst ≠ some fd)
    (hguest : ph.guest ≠ some fd) (hleaving : ph.leaving = none)
    (hc : w.controllerFd ≠ some fd) : Inv ph (w.remove fd) := by
  have hleft : Inv { ph with leaving := none } (w.remove fd) :=
      (h.remove hclaim hguest hleaving).left fun fd' hfd' _ => by
    have hne : fd' ≠ fd := fun heq => hc (heq ▸ hfd')
    rw [role_remove, if_neg hne]
    exact h.controller fd' hfd' (by simp [hleaving])
  obtain ⟨claim, leaving, guest, draining, reaped, dried, ptys, gone, owed⟩ := ph
  cases hleaving
  exact hleft

end remove

namespace Holder
open Program

variable {J J' : World → Prop} {E : PersistError → World → Prop} {ph : Phase} {fd : Fd}

theorem detachConnection_run (w : World) (fd : Fd) :
    detachConnection fd w = (.ok (), w.detach fd) := by
  unfold detachConnection World.detach World.place
  cases h : w.server.connections[fd]?.bind Connection.attachedSession with
  | none => simp [server, modifyConnection, modifyServer, note, bind_apply, h]
  | some s =>
    by_cases hs : w.server.writers[s]? = some fd <;>
      simp [server, modifyConnection, modifyServer, note, bind_apply, h, hs]

theorem removeConnection_triple (hJ : QuietClosed J) (hremove : ∀ w, J w → J' (w.remove fd)) :
    Triple J (removeConnection fd) (fun _ => J') E := by
  refine .bind (reactorRemove_triple hJ fd) fun _ w hw => ?_
  rw [bind_apply, detachConnection_run]
  exact hremove w hw

theorem reactorRemove_run (fd : Fd) (w : World) : ∃ w' : World,
    reactorRemove fd w = (.ok (), w') ∧
      w'.server = { w.server with reactor := w.server.reactor.forget fd } := by
  obtain ⟨turn, hturn, hcalled⟩ := called_call
    { w with server := { w.server with reactor := w.server.reactor.forget fd } }
  rcases hrun : call { w with server := { w.server with reactor := w.server.reactor.forget fd } }
    with ⟨r, w'⟩
  rw [hrun] at hturn hcalled
  cases hturn
  refine ⟨{ w' with interest := w'.interest.erase fd }, ?_, hcalled.server⟩
  unfold reactorRemove modifyReactor modifyServer
  rw [bind_apply, update_apply]
  dsimp only
  rw [bind_apply, hrun]
  rfl

/-- Besides the connection, removing it changes the reactor only. -/
theorem removeConnection_run (w : World) (fd : Fd) :
    ∃ w' : World, removeConnection fd w = (.ok (), w'.remove fd) ∧
      w'.server = { w.server with reactor := w.server.reactor.forget fd } := by
  obtain ⟨w', hremove, hserver⟩ := reactorRemove_run fd w
  refine ⟨w', ?_, hserver⟩
  unfold removeConnection
  rw [bind_apply, hremove]
  dsimp only
  rw [bind_apply, detachConnection_run]
  rfl

theorem role_removeConnection (w : World) (fd fd' : Fd) :
    (removeConnection fd w).2.role fd' = if fd' = fd then none else w.role fd' := by
  obtain ⟨w', hrun, hserver⟩ := removeConnection_run w fd
  rw [hrun, role_remove]
  split
  · rfl
  · rw [World.role, World.role, hserver]

theorem isController_iff (w : World) (fd : Fd) :
    (w.server.controller.any fun controller => controller.fd = fd) = true ↔
      w.controllerFd = some fd := by
  unfold World.controllerFd
  cases w.server.controller with
  | none => simp
  | some controller => simp

/-- A connection that is not the controller is removed, and that is all. -/
theorem disconnect_triple (hJ : QuietClosed J) (hc : ∀ w, J w → w.controllerFd ≠ some fd)
    (hremove : ∀ w, J w → J' (w.remove fd)) : Triple J (disconnect fd) (fun _ => J') E := by
  have hremoved : Triple J (removeConnection fd)
      (fun _ w => J' w ∧ w.controllerFd ≠ some fd) E :=
    removeConnection_triple hJ fun w hw => ⟨hremove w hw, hc w hw⟩
  refine .bind hremoved fun _ => .bind server_triple fun h => ?_
  by_cases hfd : (h.controller.any fun controller => controller.fd = fd) = true
  · refine .of_false ?_
    rintro w ⟨⟨-, hw⟩, rfl⟩
    exact hw ((isController_iff w fd).mp hfd)
  · rw [if_neg hfd]
    exact .pure fun _ hw => hw.1.1

theorem role_of_mem_data {w : World} {fd : Fd}
    (h : fd ∈ w.server.connections.keys.filter fun fd =>
      w.server.connections[fd]?.any fun c => c.role = .data) : w.role fd = some .data := by
  obtain ⟨-, h⟩ := List.mem_filter.mp h
  rw [World.role]
  cases hc : w.server.connections[fd]? with
  | none => rw [hc] at h; cases h
  | some c => rw [hc] at h; simpa using h

/-- The controller goes, and every data connection with it. -/
theorem disconnect_inv (hclaim : ph.claim = none) (hguest : ph.guest ≠ some fd)
    (hleaving : ph.leaving = none) : Triple (Inv ph) (disconnect fd) (fun _ => Inv ph) E := by
  have hquiet : QuietClosed (Inv ph) := fun _ _ hq h => h.quiet hq
  have hfree : ∀ fd', ph.claim.map Prod.fst ≠ some fd' := by simp [hclaim]
  have hback : ∀ w, Inv { ph with leaving := some fd } w →
      (∀ fd', w.controllerFd = some fd' → fd' ≠ fd) → Inv ph w := by
    intro w h hc
    have hleft : Inv { ph with leaving := none } w := h.left fun fd' hfd' _ =>
      h.controller fd' hfd' (fun heq => hc fd' hfd' (Option.some.inj heq).symm)
    obtain ⟨claim, leaving, guest, draining, reaped, dried, ptys, gone, owed⟩ := ph
    cases hleaving
    exact hleft
  refine .bind (removeConnection_triple hquiet fun w h => h.remove (hfree fd) hguest hleaving)
    fun _ => .bind server_triple fun h => ?_
  by_cases hfd : (h.controller.any fun controller => controller.fd = fd) = true
  · rw [if_pos hfd]
    refine .bind (Q := fun _ w => (Inv ph w ∧ w.controllerFd = none) ∧
      ∀ fd' ∈ h.connections.keys.filter (fun fd =>
        h.connections[fd]?.any fun c => c.role = .data), ph.guest ≠ some fd') (.update ?_)
      fun _ => ?_
    · rintro w ⟨hw, rfl⟩
      refine ⟨⟨hback _ { hw with controller := ?_ } ?_, rfl⟩, fun fd' hfd' hg => ?_⟩
      · exact fun _ hnone => nomatch hnone
      · exact fun _ hnone => nomatch hnone
      · have hrole := hw.guest fd' hg
        rw [role_of_mem_data hfd'] at hrole
        cases hrole
    · refine (Triple.forEach (I := fun bs w => (Inv ph w ∧ w.controllerFd = none) ∧
        ∀ fd' ∈ bs, ph.guest ≠ some fd') (fun b bs => ?_) _).post fun _ _ hw => hw.1.1
      refine removeConnection_triple ?_ ?_
      · intro w w' hq hw
        rw [hq.controller]
        exact ⟨⟨hw.1.1.quiet hq, hw.1.2⟩, hw.2⟩
      · rintro w ⟨⟨hw, hnone⟩, hbs⟩
        refine ⟨⟨hw.remove_other (hfree b) (hbs b List.mem_cons_self) hleaving ?_, hnone⟩,
          fun fd' hfd' => hbs fd' (List.mem_cons_of_mem _ hfd')⟩
        rw [hnone]
        exact Option.some_ne_none b |>.symm
  · rw [if_neg hfd]
    refine .pure ?_
    rintro w ⟨hw, rfl⟩
    refine hback w hw ?_
    rintro fd' hfd' rfl
    exact hfd ((isController_iff w fd').mpr hfd')

theorem queueOrDisconnect_triple {frame : HolderFrame} {n : Option Note} (hJ : QuietClosed J)
    (hqueued : ∀ w, J w → w.role fd ≠ none → J' { w with log := n.toList ++ w.log })
    (hgone : Triple J (disconnect fd) (fun _ => J') E) :
    Triple J (queueOrDisconnect fd frame n) (fun _ => J') E := by
  refine .bind (.attempt (queueFrame_triple hJ fd frame)) fun r => ?_
  cases r with
  | error e => exact hgone
  | ok _ =>
    cases n with
    | none => exact .pure fun w hw => hqueued w hw.1 hw.2
    | some n => exact .bind (.update fun w hw => hqueued w hw.1 hw.2) fun _ => .pure fun _ => id

theorem sendControl_inv (hclaim : ph.claim = none) (hguest : ph.guest = none)
    (hleaving : ph.leaving = none) (frame : HolderFrame) :
    Triple (Inv ph) (sendControl frame) (fun _ => Inv ph) E := by
  have hquiet : QuietClosed (Inv ph) := fun _ _ hq h => h.quiet hq
  refine .bind server_triple fun h => ?_
  cases h.controller with
  | none => exact .pure fun _ hw => hw.1
  | some controller =>
    refine (queueOrDisconnect_triple hquiet (fun _ hw _ => hw) ?_).pre fun _ hw => hw.1
    exact disconnect_inv hclaim (by simp [hguest]) hleaving

end Holder

section release
variable {ph : Phase} {w : World} {s : SessionId}

theorem Inv.release (h : Inv ph w) (s : SessionId) :
    Inv ph { w with
      server := { w.server with writers := w.server.writers.erase s }
      log := .released s :: w.log } := by
  have htable : ∀ fd, (table (.released s :: w.log)).place fd = (table w.log).place fd := by
    intro fd
    rw [table_cons]
    rfl
  refine h.clear (n := .released s) trivial rfl rfl rfl rfl rfl rfl rfl rfl rfl ?_ ?_ ?_ h.controller
    h.guest ?_
  · intro fd
    rw [htable]
    exact h.place fd
  · intro fd s' hs
    rw [htable]
    exact h.claimed fd s' hs
  · intro s'
    rw [NatMap.get_erase, table_cons]
    simp only [Note.event, Arbiter.Table.apply, Arbiter.Table.release]
    by_cases heq : s = s'
    · subst heq
      rw [if_pos rfl, Function.update_self]
    · rw [if_neg heq, Function.update_of_ne (Ne.symm heq)]
      exact h.holder s'
  · intro fd s' hs
    rw [htable] at hs
    exact h.data fd s' hs

/-- The log after all of `fds` were detached. -/
def detachAll (log : List Note) (fds : List Fd) : List Note :=
  fds.foldl (fun log fd => .detached fd :: log) log

theorem holder_detachAll (log : List Note) (fds : List Fd) (s : SessionId) :
    (table (detachAll log fds)).holder s = ((table log).holder s).filter (· ∉ fds) := by
  induction fds generalizing log with
  | nil => cases h : (table log).holder s <;> simp [detachAll, h, Option.filter]
  | cons fd fds ih =>
    rw [detachAll, List.foldl_cons, ← detachAll, ih, table_cons]
    simp only [Note.event, Arbiter.Table.apply, Arbiter.Table.detach]
    cases hs : (table log).holder s with
    | none => simp
    | some d =>
      by_cases hd : d = fd
      · simp [hd, Option.filter]
      · simp [hd, Option.filter]

/-- The connections listed are detached one after the other. -/
theorem Inv.detach_all (h : Inv ph w) (hclaim : ph.claim = none) (fds : List Fd) :
    ∃ w', Inv ph w' ∧ w'.log = detachAll w.log fds ∧ w'.server.runtime = w.server.runtime ∧
      w'.terminals = w.terminals ∧ w'.script = w.script ∧ w'.controllerFd = w.controllerFd ∧
      (∀ fd, w'.role fd = w.role fd) ∧
      ∀ fd, w'.place fd = if fd ∈ fds then none else w.place fd := by
  induction fds generalizing w with
  | nil => exact ⟨w, h, rfl, rfl, rfl, rfl, rfl, fun _ => rfl, fun fd => (if_neg (by simp)).symm⟩
  | cons fd fds ih =>
    have hdetach : Inv ph (w.detach fd) := h.detach (by simp [hclaim])
    obtain ⟨w', hinv, hlog, hruntime, hterminals, hscript, hcontroller, hrole, hplace⟩ := ih hdetach
    refine ⟨w', hinv, hlog, hruntime, hterminals, hscript, hcontroller, fun fd' => ?_,
      fun fd' => ?_⟩
    · rw [hrole, w.role_detach]
    · rw [hplace, w.place_detach]
      by_cases hmem : fd' ∈ fds
      · rw [if_pos hmem, if_pos (List.mem_cons_of_mem _ hmem)]
      · by_cases heq : fd' = fd
        · subst heq
          rw [if_neg hmem, if_pos rfl, if_pos List.mem_cons_self]
        · rw [if_neg hmem, if_neg heq, if_neg]
          simp [heq, hmem]

theorem mem_attachedTo {fd : Fd} : fd ∈ Holder.attachedTo w.server s ↔ w.place fd = some s := by
  rw [Holder.attachedTo, List.mem_filter, NatMap.mem_keys_iff, World.place]
  cases w.server.connections[fd]? with
  | none => simp
  | some c => simp

/-- What `detach_session` does to the tables. -/
def World.detachSession (w : World) (s : SessionId) : World :=
  { w with
    server := { w.server with
      writers := w.server.writers.erase s
      connections := w.server.connections.map fun _ c =>
        if c.attachedSession = some s then { c with attachedSession := none } else c }
    log := detachAll w.log (Holder.attachedTo w.server s) }

theorem World.place_detachSession (w : World) (s : SessionId) (fd : Fd) :
    (w.detachSession s).place fd = if w.place fd = some s then none else w.place fd := by
  have hget : (w.detachSession s).server.connections[fd]? = w.server.connections[fd]?.map fun c =>
      if c.attachedSession = some s then { c with attachedSession := none } else c :=
    NatMap.get_map _ _ _
  by_cases hp : w.place fd = some s
  · rw [if_pos hp]
    obtain ⟨c, hc, hs⟩ := Option.bind_eq_some_iff.mp hp
    rw [World.place, hget, hc, Option.map_some, Option.bind_some, if_pos hs]
  · rw [if_neg hp]
    rw [World.place] at hp
    rw [World.place, World.place, hget]
    cases hc : w.server.connections[fd]? with
    | none => rfl
    | some c =>
      rw [hc, Option.bind_some] at hp
      rw [Option.map_some, Option.bind_some, Option.bind_some, if_neg hp]

theorem Inv.detachSession (h : Inv ph w) (hclaim : ph.claim = none) (s : SessionId) :
    Inv ph (w.detachSession s) := by
  obtain ⟨w', hinv, hlog, hruntime, hterminals, hscript, hcontroller, hrole, hplace⟩ :=
    h.detach_all hclaim (Holder.attachedTo w.server s)
  refine hinv.quiet ⟨fun fd => ?_, fun fd => ?_, fun s' => ?_, hcontroller.symm, fun fd => ?_,
    fun s' => ?_, fun fd => ?_, hlog.symm, (congrArg List.length hscript.symm).le, fun fd => ?_⟩
  · rw [hrole]
    simp only [World.role, World.detachSession]
    rw [NatMap.get_map, Option.map_map]
    congr 1
    funext c
    dsimp only [Function.comp]
    split <;> rfl
  · rw [hplace, w.place_detachSession]
    simp only [mem_attachedTo]
  · rw [hinv.holder, hlog, holder_detachAll, ← h.holder]
    simp only [World.detachSession]
    rw [NatMap.get_erase]
    cases hs' : w.server.writers[s']? with
    | none => simp
    | some fd =>
      have hfd := h.holder_place (by simp [hclaim]) s' hs'
      by_cases heq : s = s'
      · subst heq
        simp [mem_attachedTo, hfd, Option.filter]
      · have hne : ¬ s' = s := fun he => heq he.symm
        simp [mem_attachedTo, hfd, heq, hne, Option.filter]
  · rw [hruntime]
    rfl
  · rw [World.core, World.core, hruntime]
    rfl
  · rw [hterminals]
    exact .refl _
  · rw [Holder.drainFuel, Holder.drainFuel, World.unread, World.unread, hterminals, hscript]
    rfl

end release

namespace Holder
open Program

variable {J J' : World → Prop} {E : PersistError → World → Prop} {ph : Phase} {fd : Fd}

theorem writerFrame_triple (kind : HolderMessageType) (s : SessionId) :
    Triple J (writerFrame kind s) (fun _ => J) E :=
  eventFrame_triple _ _

theorem releaseWriter_inv (hclaim : ph.claim = none) (hguest : ph.guest = none)
    (hleaving : ph.leaving = none) (s : SessionId) :
    Triple (Inv ph) (releaseWriter s) (fun _ => Inv ph) E := by
  have hquiet : QuietClosed (Inv ph) := fun _ _ hq h => h.quiet hq
  refine .bind server_triple fun h => ?_
  cases h.writers[s]? with
  | none => exact .pure fun _ hw => hw.1
  | some fd =>
    refine .bind (Q := fun _ w' => ∃ w, Inv ph w ∧ w' = { w with server := { w.server with
        writers := w.server.writers.erase s } }) (.update fun w hw => ⟨w, hw.1, rfl⟩) fun _ => ?_
    refine .bind (Q := fun _ => Inv ph) (.update ?_) fun _ => ?_
    · rintro _ ⟨w, hw, rfl⟩
      exact hw.release s
    · refine .bind (writerFrame_triple _ s) fun frame => ?_
      exact queueOrDisconnect_triple hquiet (fun _ hw _ => hw)
        (disconnect_inv hclaim (by simp [hguest]) hleaving)

theorem noteDetached_run (fds : List Fd) (w : World) :
    forEach fds (fun fd => note (.detached fd)) w = (.ok (), { w with log := detachAll w.log fds }) := by
  induction fds generalizing w with
  | nil => rfl
  | cons fd fds ih => exact ih _

theorem detachSession_inv (hclaim : ph.claim = none) (s : SessionId) :
    Triple (Inv ph) (detachSession s) (fun _ => Inv ph) E := by
  intro w hw
  have hrun : detachSession s w = (.ok (), w.detachSession s) := by
    unfold detachSession World.detachSession
    rw [bind_apply]
    simp only [server, read_apply]
    rw [bind_apply]
    simp only [modifyServer, update_apply, noteDetached_run]
  rw [hrun]
  exact hw.detachSession hclaim s

end Holder

end PersistShell

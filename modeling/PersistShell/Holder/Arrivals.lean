import PersistShell.Holder.Detach

/-! Connections arrive: they are accepted with a descriptor that is not open, and the
handshake makes them the controller or a data connection. -/

namespace PersistShell

section fresh
variable {w : World} {fd : Fd}

theorem le_foldl_max (fds : List Fd) (n : Nat) : n ≤ fds.foldl max n ∧ ∀ fd ∈ fds, fd ≤ fds.foldl max n := by
  induction fds generalizing n with
  | nil => simp
  | cons fd fds ih =>
    obtain ⟨hn, hfds⟩ := ih (max n fd)
    refine ⟨(Nat.le_max_left n fd).trans hn, ?_⟩
    intro fd' hfd'
    rcases List.mem_cons.mp hfd' with rfl | hmem
    · exact (Nat.le_max_right n fd').trans hn
    · exact hfds fd' hmem

theorem World.isOpen_freshFd (w : World) (suggested : Fd) :
    w.isOpen (w.freshFd suggested) = false := by
  unfold World.freshFd
  split
  · obtain ⟨hbase, hmem⟩ := le_foldl_max (w.server.connections.keys ++ w.terminals.keys)
      (max w.server.socket (max w.server.signals w.server.logs))
    generalize (w.server.connections.keys ++ w.terminals.keys).foldl max
      (max w.server.socket (max w.server.signals w.server.logs)) = top at hbase hmem
    simp only [World.isOpen, Bool.or_eq_false_iff, decide_eq_false_iff_not]
    refine ⟨⟨⟨⟨?_, ?_⟩, ?_⟩, ?_⟩, ?_⟩
    · exact Nat.ne_of_gt (Nat.lt_succ_of_le (le_trans (Nat.le_max_left _ _) hbase))
    · exact Nat.ne_of_gt (Nat.lt_succ_of_le
        (le_trans (le_trans (Nat.le_max_left _ _) (Nat.le_max_right _ _)) hbase))
    · exact Nat.ne_of_gt (Nat.lt_succ_of_le
        (le_trans (le_trans (Nat.le_max_right _ _) (Nat.le_max_right _ _)) hbase))
    · refine Bool.eq_false_iff.mpr fun h => ?_
      have := hmem (top + 1) (List.mem_append_left _
        (NatMap.mem_keys_iff _ _ |>.mpr ((NatMap.contains_iff _ _).mp h)))
      exact Nat.not_succ_le_self _ this
    · refine Bool.eq_false_iff.mpr fun h => ?_
      have := hmem (top + 1) (List.mem_append_right _
        (NatMap.mem_keys_iff _ _ |>.mpr ((NatMap.contains_iff _ _).mp h)))
      exact Nat.not_succ_le_self _ this
  · rename_i h
    exact Bool.eq_false_iff.mpr h

theorem role_of_not_open (h : w.isOpen fd = false) : w.role fd = none := by
  simp only [World.isOpen, Bool.or_eq_false_iff] at h
  cases hc : w.server.connections[fd]? with
  | none => rw [World.role, hc]; rfl
  | some c =>
    have := (NatMap.contains_iff w.server.connections fd).mpr ⟨c, hc⟩
    rw [h.1.2] at this
    cases this

theorem terminal_of_not_open (h : w.isOpen fd = false) : w.terminals[fd]? = none := by
  simp only [World.isOpen, Bool.or_eq_false_iff] at h
  cases ht : w.terminals[fd]? with
  | none => rfl
  | some t =>
    have := (NatMap.contains_iff w.terminals fd).mpr ⟨t, ht⟩
    rw [h.2] at this
    cases this

end fresh

section role
variable {ph : Phase} {w : World} {fd : Fd}

/-- A connection that is attached to nothing takes a new role, or is new altogether. -/
theorem Inv.enter {ph' : Phase} {c : Connection} {m : Std.ExtTreeMap Fd Connection} (h : Inv ph w)
    (hm : ∀ fd', m[fd']? = if fd = fd' then some c else w.server.connections[fd']?)
    (hplace : w.place fd = none) (hfree : (table w.log).place fd = none) (hc : c.attachedSession = none)
    (hcontroller : ∀ fd', w.controllerFd = some fd' → ph'.leaving ≠ some fd' →
      (if fd = fd' then some c.role else w.role fd') = some .control)
    (hguest : ∀ fd', ph'.guest = some fd' →
      (if fd = fd' then some c.role else w.role fd') = some .pending)
    (hph : ph' = { ph with leaving := ph'.leaving, guest := ph'.guest }) :
    Inv ph' { w with server := { w.server with connections := m } } := by
  have hrole : ∀ fd', World.role { w with server := { w.server with connections := m } } fd' =
      if fd = fd' then some c.role else w.role fd' := by
    intro fd'
    simp only [World.role]
    rw [hm]
    split <;> rfl
  rw [hph]
  refine { h with place := ?_, controller := ?_, guest := ?_, data := ?_ }
  · intro fd'
    refine Eq.trans ?_ (h.place fd')
    simp only [World.place]
    rw [hm]
    split
    · rename_i heq
      subst heq
      exact hc.trans hplace.symm
    · rfl
  · intro fd'
    rw [hrole]
    exact hcontroller fd'
  · intro fd'
    rw [hrole]
    exact hguest fd'
  · intro fd' s hs
    rw [hrole, if_neg]
    · exact h.data fd' s hs
    · rintro rfl
      rw [hfree] at hs
      cases hs

theorem Inv.guestLeaves (h : Inv { guest := some fd } w) : Inv {} w :=
  { h with guest := nofun }

/-- The connection `fd` is registered with a holder that is between two steps. -/
def Served (fd : Fd) (w : World) : Prop := Inv {} w ∧ w.role fd ≠ none

theorem Inv.guestStays (h : Inv { guest := some fd } w) : Served fd w :=
  ⟨h.guestLeaves, by rw [h.guest fd rfl]; exact Option.some_ne_none _⟩

end role

namespace Holder
open Program

variable {fd : Fd} {frame : HolderFrame} {minor : Nat}

theorem place_of_role_none {w : World} (h : w.role fd = none) : w.place fd = none := by
  rw [World.role, Option.map_eq_none_iff] at h
  rw [World.place, h]
  rfl

theorem tablePlace_of_role {ph : Phase} {w : World} (h : Inv ph w) (hrole : w.role fd ≠ some .data) :
    (table w.log).place fd = none := by
  cases hs : (table w.log).place fd with
  | none => rfl
  | some s => exact absurd (h.data fd s hs) hrole

/-- A new connection takes a descriptor that is not open. -/
theorem acceptPeer_keeps (n : Nat) :
    Triple (fun w => Inv {} w ∧ w.script.length < n + 1) acceptPeer
      (fun r w => Inv {} w ∧ (r = none ∨ w.script.length < n)) (fun _ => Inv {}) := by
  have hcall : CallClosed (Inv {}) := fun w w' hc h => h.quiet hc.quiet
  refine .bind (call_script_triple hcall n) fun turn => ?_
  have hnone : Triple (fun w => Inv {} w ∧ (w.script.length < n ∨ turn = {}))
      (pure none : Holder (Option Fd)) (fun r w => Inv {} w ∧ (r = none ∨ w.script.length < n))
      (fun _ => Inv {}) := .pure fun _ hw => ⟨hw.1, .inl rfl⟩
  have hfail : ∀ source, Triple (fun w => Inv {} w ∧ (w.script.length < n ∨ turn = {}))
      (fail (.io "accept holder connection" source) : Holder (Option Fd))
      (fun r w => Inv {} w ∧ (r = none ∨ w.script.length < n)) (fun _ => Inv {}) := fun source =>
    .fail fun _ hw => hw.1
  split
  · exact hnone
  · exact hnone
  · exact hfail _
  · rename_i peer hfault hpeer
    -- the turn is not the default one, so the script is shorter now
    have hquiet : QuietClosed fun w => Inv {} w ∧ w.script.length < n := fun w w' hq hw =>
      ⟨hw.1.quiet hq, hq.script.trans_lt hw.2⟩
    refine Triple.pre (P := fun w => Inv {} w ∧ w.script.length < n) ?_ ?_
    · have hweak : ∀ {α : Type} {m : Holder α} {Q : α → World → Prop},
          Triple (fun w => Inv {} w ∧ w.script.length < n) m Q
            (fun _ w => Inv {} w ∧ w.script.length < n) →
          Triple (fun w => Inv {} w ∧ w.script.length < n) m Q (fun _ => Inv {}) := fun h =>
        h.conseq (fun _ => id) (fun _ _ => id) fun _ _ hw => hw.1
      refine .bind (.read (Q := fun _ w => Inv {} w ∧ w.script.length < n) fun _ => id) fun h => ?_
      refine .bind (hweak (Keeps.reject _ _)) fun _ => ?_
      refine .bind (hweak (control_keeps hquiet.call _)) fun _ => ?_
      refine .bind (Q := fun fd w => (Inv {} w ∧ w.script.length < n) ∧ w.role fd = none)
        (.read fun w hw => ⟨hw, role_of_not_open (w.isOpen_freshFd _)⟩) fun fd => ?_
      have hquiet' : QuietClosed fun w => (Inv {} w ∧ w.script.length < n) ∧
          w.role fd = none := by
        intro w w' hq hw
        rw [hq.role]
        exact ⟨hquiet w w' hq hw.1, hw.2⟩
      refine .bind ((reactorAdd_keeps hquiet' fd false).conseq (fun _ => id) (fun _ _ => id)
        fun _ _ hw => hw.1.1) fun _ => ?_
      refine .bind (Q := fun _ w => Inv {} w ∧ w.script.length < n) (.update ?_) fun _ =>
        .pure fun _ hw => ⟨hw.1, .inr hw.2⟩
      rintro w ⟨⟨hinv, hn⟩, hrole⟩
      refine ⟨hinv.enter (NatMap.get_insert _ _ · _) (place_of_role_none hrole)
        (tablePlace_of_role hinv ?_) rfl ?_ (nofun) rfl, hn⟩
      · rw [hrole]
        exact (Option.some_ne_none _).symm
      · intro fd' hc _
        have hcontrol := hinv.controller fd' hc (nofun)
        rw [if_neg, hcontrol]
        rintro rfl
        rw [hrole] at hcontrol
        cases hcontrol
    · rintro w ⟨hw, hn | rfl⟩
      · exact ⟨hw, hn⟩
      · cases hpeer

theorem acceptConnections_keeps : Keeps (Inv {}) acceptConnections := by
  have hloop : ∀ n, Triple (fun w => Inv {} w ∧ w.script.length < n) (acceptLoop n)
      (fun _ => Inv {}) (fun _ => Inv {}) := by
    intro n
    induction n with
    | zero => exact .of_false fun w hw => Nat.not_lt_zero _ hw.2
    | succ n ih =>
      refine .bind (acceptPeer_keeps n) fun r => ?_
      cases r with
      | none => exact .pure fun _ hw => hw.1
      | some fd =>
        refine ih.pre ?_
        rintro w ⟨hw, hnone | hn⟩
        · cases hnone
        · exact ⟨hw, hn⟩
  refine Triple.bind (Q := fun script w => Inv {} w ∧ w.script = script)
    (.read fun w hw => ⟨hw, rfl⟩) fun script => (hloop _).pre ?_
  rintro w ⟨hw, rfl⟩
  exact ⟨hw, Nat.lt_succ_self _⟩

theorem guest_quiet : QuietClosed (Inv { guest := some fd }) := fun _ _ hq h => h.quiet hq

theorem guest_registered : Registered (Inv { guest := some fd }) fd := by
  intro w hw
  rw [hw.guest fd rfl]
  exact Option.some_ne_none _

theorem dropClosedController_keeps : Keeps (Inv { guest := some fd }) dropClosedController := by
  refine Triple.bind server_triple fun h => ?_
  cases hcontroller : h.controller with
  | none => exact .pure fun _ hw => hw.1
  | some controller =>
    -- the controller has had its handshake, so it is not the guest
    have hquiet : QuietClosed fun w => Inv { guest := some fd } w ∧ controller.fd ≠ fd :=
      fun _ _ hq hw => ⟨hw.1.quiet hq, hw.2⟩
    refine Triple.pre (P := fun w => Inv { guest := some fd } w ∧ controller.fd ≠ fd) ?_ ?_
    · dsimp only
      split
      · refine .bind (call_triple hquiet.call) fun turn => ?_
        split
        · by_cases hne : controller.fd = fd
          · exact .of_false fun _ hw => hw.2 hne
          · exact (disconnect_inv rfl (fun he => hne (Option.some.inj he).symm) rfl).pre
              fun _ hw => hw.1
        · exact .pure fun _ hw => hw.1
      · exact .pure fun _ hw => hw.1
    · rintro w ⟨hw, rfl⟩
      refine ⟨hw, fun heq => ?_⟩
      have hcontrol := hw.controller controller.fd (by rw [World.controllerFd, hcontroller]; rfl)
        (nofun)
      rw [heq, hw.guest fd rfl] at hcontrol
      cases hcontrol

/-- The handshake gives the guest its role. -/
theorem enter_guest {w : World} (role : ConnectionRole) (h : Inv { guest := some fd } w) :
    Inv {} { w with server := { w.server with
      connections := w.server.connections.alter fd (·.map fun c => { c with role }) } } := by
  obtain ⟨c, hc⟩ := exists_of_role (guest_registered w h)
  have hpending := h.guest fd rfl
  have hfree : (table w.log).place fd = none := tablePlace_of_role h (by rw [hpending]; exact fun hdata => by cases hdata)
  have hplace : w.place fd = none := (h.place fd).trans hfree
  refine h.enter (c := { c with role }) (fun fd' => ?_) hplace hfree ?_ ?_ (fun _ hg => absurd hg (Option.some_ne_none _).symm) rfl
  · rw [NatMap.get_alter, hc]
    rfl
  · rw [World.place, hc] at hplace
    exact hplace
  · intro fd' hc' _
    have hcontrol := h.controller fd' hc' (Option.some_ne_none fd').symm
    rw [if_neg, hcontrol]
    rintro rfl
    rw [hpending] at hcontrol
    cases hcontrol

theorem enter_triple {E : PersistError → World → Prop} (role : ConnectionRole) :
    Triple (Inv { guest := some fd }) (updateConnection fd fun c => { c with role })
      (fun _ w => Inv {} w ∧ w.role fd = some role) E := by
  refine .bind (connection_triple guest_registered) fun c => .update ?_
  rintro w ⟨hw, hc⟩
  refine ⟨enter_guest role hw, ?_⟩
  simp only [World.role]
  rw [NatMap.get_alter, if_pos rfl, hc]
  rfl

/-- A guest that is turned away keeps its connection until it has the answer. -/
theorem refuse_triple :
    Triple (Inv { guest := some fd }) (updateConnection fd fun c => { c with closeAfterFlush := true })
      (fun _ => Served fd) (fun _ => Inv {}) := by
  have h : Keeps (Inv { guest := some fd })
      (updateConnection fd fun c => { c with closeAfterFlush := true }) :=
    updateConnection_keeps guest_quiet guest_registered fun _ => ⟨rfl, rfl⟩
  exact h.conseq (fun _ => id) (fun _ _ hw => hw.guestStays) fun _ _ hw => hw.guestLeaves

theorem handleControlHello_keeps :
    Triple (Inv { guest := some fd }) (handleControlHello fd minor frame) (fun _ => Served fd)
      (fun _ => Inv {}) := by
  have hweak : ∀ {α : Type} {m : Holder α} {J : World → Prop} {Q : α → World → Prop},
      (∀ w, J w → Inv { guest := some fd } w) → Triple J m Q (fun _ => J) →
        Triple J m Q (fun _ => Inv {}) := fun hJ h =>
    h.conseq (fun _ => id) (fun _ _ => id) fun _ _ hw => (hJ _ hw).guestLeaves
  have hself : ∀ w, Inv { guest := some fd } w → Inv { guest := some fd } w := fun _ => id
  refine .bind (hweak hself (Keeps.reject _ _)) fun _ => ?_
  refine .bind (hweak hself dropClosedController_keeps) fun _ => ?_
  refine .bind (hweak hself (protocol_keeps _ _)) fun hello => ?_
  refine .bind (hweak hself (connection_keeps guest_registered)) fun c => ?_
  refine .bind server_triple fun h => ?_
  refine .bind (Triple.pre (hweak hself generation_keeps) fun _ hw => hw.1) fun generation => ?_
  refine .bind (hweak hself (queueFrame_keeps guest_quiet fd _)) fun _ => ?_
  split
  · refine .bind (enter_triple .control) fun _ => .update fun w hw => ⟨?_, ?_⟩
    · refine { hw.1 with controller := ?_ }
      intro fd' hfd' _
      cases hfd'
      exact hw.2
    · intro hnone
      have := hw.2.symm.trans hnone
      cases this
  · exact refuse_triple

theorem handleDataHello_keeps :
    Triple (Inv { guest := some fd }) (handleDataHello fd minor frame) (fun _ => Served fd)
      (fun _ => Inv {}) := by
  have hweak : ∀ {α : Type} {m : Holder α}, Keeps (Inv { guest := some fd }) m →
      Triple (Inv { guest := some fd }) m (fun _ => Inv { guest := some fd })
        (fun _ => Inv {}) := fun h =>
    h.conseq (fun _ => id) (fun _ _ => id) fun _ _ hw => hw.guestLeaves
  have hupdate : ∀ f : Connection → Connection,
      (∀ c, (f c).role = c.role ∧ (f c).attachedSession = c.attachedSession) →
      Keeps (Inv { guest := some fd }) (updateConnection fd f) := fun f hf =>
    updateConnection_keeps guest_quiet guest_registered hf
  refine .bind (hweak (protocol_keeps _ _)) fun hello => ?_
  refine .bind (hweak (connection_keeps guest_registered)) fun c => ?_
  refine .bind (hweak (Keeps.read _)) fun h => ?_
  have hanswer : ∀ status, Triple (Inv { guest := some fd })
      (do
        queueFrame fd
          { messageType := .dataHelloAck
            requestId := frame.requestId
            generation := ← generation
            payload := encodeDataHelloAck
              { instanceId := h.instanceId, nonce := hello.nonce, status } })
      (fun _ => Inv { guest := some fd }) (fun _ => Inv {}) := fun status =>
    hweak (Keeps.bind generation_keeps fun _ => queueFrame_keeps guest_quiet fd _)
  dsimp only
  cases dataHelloAccepted h c.peer hello minor with
  | true =>
    refine .bind (hweak (hupdate _ fun _ => ⟨rfl, rfl⟩)) fun _ => ?_
    refine .bind (hweak generation_keeps) fun _ =>
      .bind (hweak (queueFrame_keeps guest_quiet fd _)) fun _ => ?_
    refine (enter_triple .data).post fun _ w hw => ⟨hw.1, ?_⟩
    rw [hw.2]
    exact Option.some_ne_none _
  | false =>
    refine .bind (hweak generation_keeps) fun _ =>
      .bind (hweak (queueFrame_keeps guest_quiet fd _)) fun _ => ?_
    exact refuse_triple

theorem handleHello_keeps :
    Triple (Inv { guest := some fd }) (handleHello fd minor frame) (fun _ => Served fd)
      (fun _ => Inv {}) := by
  unfold handleHello
  split
  · exact handleControlHello_keeps
  · exact handleDataHello_keeps
  · exact .fail fun _ hw => hw.guestLeaves

end Holder

end PersistShell

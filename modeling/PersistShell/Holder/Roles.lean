import PersistShell.Holder.Faults
import PersistShell.Holder.Lifecycles

/-! The roles of the connections of the holder. A connection is pending until its handshake, it
is then the control connection or one of the data connections, and when the control connection
goes every data connection goes with it. Whatever a run of the holder does is a run of this. -/

namespace PersistShell

/-- Which connections there are and in which role, and which one is the controller. -/
@[ext] structure Roles where
  role : Fd → Option ConnectionRole
  controller : Option Fd

namespace Roles

def give (r : Roles) (fd : Fd) (role : Option ConnectionRole) : Roles :=
  { r with role := Function.update r.role fd role }

/-- A connection goes; the controller takes the data connections with it. -/
def lose (r : Roles) (fd : Fd) : Roles :=
  if r.controller = some fd then
    { role := fun fd' => if fd' = fd ∨ r.role fd' = some .data then none else r.role fd'
      controller := none }
  else r.give fd none

inductive Step : Roles → Roles → Prop
  | accept {r : Roles} {fd : Fd} (hfresh : r.role fd = none) : Step r (r.give fd (some .pending))
  | seat {r : Roles} {fd : Fd} (hrole : r.role fd = some .pending) (hfree : r.controller = none) :
      Step r { r.give fd (some .control) with controller := some fd }
  | join {r : Roles} {fd : Fd} (hrole : r.role fd = some .pending)
      (hseated : r.controller.isSome = true) : Step r (r.give fd (some .data))
  | lose (r : Roles) (fd : Fd) : Step r (r.lose fd)

abbrev Path : Roles → Roles → Prop := Relation.ReflTransGen Step

/-- The control connection is the controller, and there are data connections under one only. -/
structure Ordered (r : Roles) : Prop where
  control : ∀ fd, r.role fd = some .control ↔ r.controller = some fd
  data : ∀ fd, r.role fd = some .data → r.controller.isSome = true

theorem give_apply (r : Roles) (fd fd' : Fd) (role : Option ConnectionRole) :
    (r.give fd role).role fd' = if fd' = fd then role else r.role fd' :=
  Function.update_apply ..

variable {r r' : Roles} {fd : Fd}

theorem Ordered.give (h : r.Ordered) {role : Option ConnectionRole}
    (hold : r.role fd ≠ some .control) (hcontrol : role ≠ some .control)
    (hdata : role = some .data → r.controller.isSome = true) : (r.give fd role).Ordered where
  control fd' := by
    rw [give_apply]
    split
    · rename_i heq
      subst heq
      exact ⟨fun h => absurd h hcontrol, fun hc => absurd ((h.control fd').mpr hc) hold⟩
    · exact h.control fd'
  data fd' hfd' := by
    rw [give_apply] at hfd'
    split at hfd'
    · exact hdata hfd'
    · exact h.data fd' hfd'

theorem Ordered.lose (h : r.Ordered) (fd : Fd) : (r.lose fd).Ordered := by
  unfold Roles.lose
  split
  · rename_i hc
    refine ⟨fun fd' => ⟨fun hfd' => ?_, fun hnone => (by cases hnone)⟩, fun fd' hfd' => ?_⟩
    · dsimp only at hfd'
      split at hfd'
      · cases hfd'
      · rename_i hstay
        have hsame := Option.some.inj (hc.symm.trans ((h.control fd').mp hfd'))
        exact absurd (.inl hsame.symm) hstay
    · dsimp only at hfd'
      split at hfd'
      · cases hfd'
      · rename_i hstay
        exact absurd (.inr hfd') hstay
  · rename_i hc
    refine h.give (fun hcontrol => hc ((h.control fd).mp hcontrol)) ?_ ?_
    · exact fun h => by cases h
    · exact fun h => by cases h

theorem Ordered.step (h : r.Ordered) (hs : Step r r') : r'.Ordered := by
  cases hs with
  | accept hfresh =>
    refine h.give ?_ ?_ ?_
    · rw [hfresh]
      exact fun h => by cases h
    · exact fun h => by cases h
    · exact fun h => by cases h
  | @seat fd hrole hfree =>
    have hnone : ∀ fd', r.role fd' ≠ some .control := fun fd' hcontrol => by
      rw [h.control, hfree] at hcontrol
      cases hcontrol
    refine ⟨fun fd' => ?_, fun _ _ => rfl⟩
    show (r.give fd _).role fd' = _ ↔ some fd = some fd'
    rw [give_apply]
    split
    · rename_i heq
      simp [heq]
    · rename_i hne
      exact ⟨fun hc => absurd hc (hnone fd'), fun heq => absurd (Option.some.inj heq).symm hne⟩
  | join hrole hseated =>
    refine h.give ?_ ?_ fun _ => hseated
    · rw [hrole]
      exact fun h => by cases h
    · exact fun h => by cases h
  | lose fd => exact h.lose fd

theorem Ordered.path (h : r.Ordered) (hp : Path r r') : r'.Ordered := by
  induction hp with
  | refl => exact h
  | tail _ hlast ih => exact ih.step hlast

end Roles

def World.roles (w : World) : Roles := ⟨w.role, w.controllerFd⟩

section refinement

variable {w w' : World}

theorem path_same (hrole : w'.role = w.role) (hcontroller : w'.controllerFd = w.controllerFd) :
    Roles.Path w.roles w'.roles := by
  have hsame : w'.roles = w.roles := Roles.ext hrole hcontroller
  rw [hsame]

theorem controllerFd_removeConnection (w : World) (fd : Fd) :
    (Holder.removeConnection fd w).2.controllerFd = w.controllerFd := by
  obtain ⟨w₁, hrun, hserver⟩ := Holder.removeConnection_run w fd
  rw [hrun]
  change w₁.server.controller.map _ = _
  rw [hserver]
  rfl

theorem controllerFd_forEach (fds : List Fd) (w : World) :
    (Program.forEach fds Holder.removeConnection w).2.controllerFd = w.controllerFd := by
  refine Program.Leaves.forEach (J := fun w' => w'.controllerFd = w.controllerFd) (fun fd => ?_)
    fds w rfl
  intro w' hw'
  exact (controllerFd_removeConnection w' fd).trans hw'

theorem roles_disconnect (w : World) (fd : Fd) :
    (Holder.disconnect fd w).2.roles = w.roles.lose fd := by
  have hrole := Holder.role_removeConnection w fd
  have hcontroller := controllerFd_removeConnection w fd
  obtain ⟨w₁, hrun, -⟩ := Holder.removeConnection_run w fd
  rw [hrun] at hrole hcontroller
  unfold Holder.disconnect
  rw [Program.bind_apply, hrun]
  dsimp only at hrole hcontroller ⊢
  rw [Program.bind_apply]
  simp only [Holder.server, Program.read_apply]
  by_cases hc : w.controllerFd = some fd
  · rw [if_pos ((Holder.isController_iff _ fd).mpr (hcontroller.trans hc)), Program.bind_apply]
    simp only [Holder.modifyServer, Program.update_apply]
    generalize hfds : ((w₁.remove fd).server.connections.keys.filter fun fd' =>
      (w₁.remove fd).server.connections[fd']?.any fun c => c.role = .data) = fds
    have hmem : ∀ d, d ∈ fds ↔ (w₁.remove fd).role d = some .data := by
      intro d
      subst hfds
      refine ⟨Holder.role_of_mem_data, fun hd => ?_⟩
      obtain ⟨c, hcd, hdata⟩ := Option.map_eq_some_iff.mp hd
      refine List.mem_filter.mpr ⟨(NatMap.mem_keys_iff _ _).mpr ⟨c, hcd⟩, ?_⟩
      rw [hcd]
      simpa using hdata
    generalize hv : ({ w₁.remove fd with server := { (w₁.remove fd).server with controller := none } } :
      World) = v
    have hvrole : v.role = (w₁.remove fd).role := by
      subst hv
      rfl
    have hvcontroller : v.controllerFd = none := by
      subst hv
      rfl
    obtain ⟨w', hrest, hgone⟩ := Holder.forEach_removeConnection fds v
    have hkeeps := controllerFd_forEach fds v
    rw [hrest] at hkeeps ⊢
    unfold Roles.lose
    rw [if_pos (show w.roles.controller = some fd from hc)]
    refine Roles.ext ?_ (hkeeps.trans hvcontroller)
    funext d
    show w'.role d = if d = fd ∨ w.role d = some .data then none else w.role d
    rw [hgone, hvrole, hrole]
    by_cases hd : d = fd
    · rw [if_pos hd, ite_self, if_pos (Or.inl hd)]
    · rw [if_neg hd]
      by_cases hdata : w.role d = some .data
      · rw [if_pos ((hmem d).mpr (by rw [hrole, if_neg hd, hdata])), if_pos (.inr hdata)]
      · rw [if_neg (fun hm => hdata (by rw [← (hmem d).mp hm, hrole, if_neg hd])),
          if_neg (not_or.mpr ⟨hd, hdata⟩)]
  · rw [if_neg (fun h => hc (hcontroller.symm.trans ((Holder.isController_iff _ fd).mp h)))]
    unfold Roles.lose
    rw [if_neg (show ¬ w.roles.controller = some fd from hc)]
    refine Roles.ext ?_ hcontroller
    funext d
    show (w₁.remove fd).role d = _
    rw [hrole, Roles.give_apply]
    rfl

theorem role_alter_some {fd : Fd} {c : Connection} (h : w.server.connections[fd]? = some c)
    (f : Connection → Connection) :
    (fun fd' => (w.server.connections.alter fd (·.map f))[fd']?.map (·.role)) =
      Function.update w.role fd (some (f c).role) := by
  funext fd'
  rw [NatMap.get_alter, Function.update_apply]
  by_cases heq : fd = fd'
  · subst heq
    rw [if_pos rfl, if_pos rfl, h]
    rfl
  · rw [if_neg heq, if_neg (Ne.symm heq)]
    rfl

theorem roles_alter_same (w : World) (fd : Fd) (f : Connection → Connection)
    (hf : ∀ c, w.server.connections[fd]? = some c → (f c).role = c.role) :
    (fun fd' => (w.server.connections.alter fd (·.map f))[fd']?.map (·.role)) = w.role := by
  cases h : w.server.connections[fd]? with
  | none =>
    funext fd'
    rw [NatMap.get_alter, World.role]
    by_cases heq : fd = fd'
    · subst heq
      rw [if_pos rfl, h]
      rfl
    · rw [if_neg heq]
  | some c =>
    rw [role_alter_some h, hf c h]
    exact Function.update_eq_iff.mpr ⟨by rw [World.role, h]; rfl, fun _ _ => rfl⟩

/-- A move is a step of the roles, or none. -/
theorem Move.roles [SerdeJson] (h : Move w w') : Roles.Path w.roles w'.roles := by
  cases h with
  | called h =>
    refine path_same (funext fun fd => ?_) ?_
    · rw [World.role, World.role, h.server]
    · rw [World.controllerFd, World.controllerFd, h.server]
  | @accepted fd peer hfresh =>
    have hnone : w.roles.role fd = none := by
      show w.server.connections[fd]?.map (·.role) = none
      rw [hfresh]
      rfl
    refine .single ?_
    convert Roles.Step.accept hnone using 1
    refine Roles.ext ?_ rfl
    funext fd'
    rw [Roles.give_apply]
    show (w.server.connections.insert fd { peer })[fd']?.map (·.role) = _
    rw [NatMap.get_insert]
    by_cases heq : fd = fd'
    · subst heq
      rw [if_pos rfl, if_pos rfl]
      rfl
    · rw [if_neg heq, if_neg (Ne.symm heq)]
      rfl
  | @seated fd hello hrole hfree =>
    obtain ⟨c, hc, -⟩ := Option.map_eq_some_iff.mp hrole
    refine .single ?_
    convert Roles.Step.seat (r := w.roles) hrole ?_ using 1
    · exact Roles.ext (role_alter_some hc _) rfl
    · show w.server.controller.map _ = none
      rw [hfree]
      rfl
  | @admitted fd hrole hcontroller =>
    obtain ⟨c, hc, -⟩ := Option.map_eq_some_iff.mp hrole
    refine .single ?_
    convert Roles.Step.join (r := w.roles) hrole ?_ using 1
    · exact Roles.ext (role_alter_some hc _) rfl
    · exact Option.isSome_map.trans hcontroller
  | negotiated hcontroller hfd =>
    refine path_same rfl ?_
    show some _ = w.server.controller.map _
    rw [hcontroller, Option.map_some]
    exact congrArg some hfd
  | @connection fd f hf => exact path_same (roles_alter_same w fd f fun c hc => (hf c hc).1) rfl
  | unattached s =>
    refine path_same (funext fun fd => ?_) rfl
    show (w.server.connections.map _)[fd]?.map _ = w.role fd
    rw [NatMap.get_map, Option.map_map, World.role]
    congr 1
    funext c
    simp only [Function.comp]
    split <;> rfl
  | disconnected fd =>
    rw [roles_disconnect]
    exact .single (.lose _ _)
  | _ => exact .refl

end refinement

namespace Script

def attached : List (List Turn) := opening ++ send 6 (attach 1 .readWrite) []

end Script

end PersistShell

import PersistShell.Program.Handles
import PersistShell.Holder.Detach
import PersistShell.Holder.Handled

/-! The descriptors that the holder has registered with epoll, and the tokens they are known by.
The tokens are handles that are counted up. What is said of them here holds as long as the count
does not start again, that is for fewer than 2^64 registrations. -/

namespace PersistShell

namespace Reactor

/-- The tokens of the descriptors, as handles. -/
def handles (r : Reactor) : Handles Fd where
  issued := r.registrations.length
  handle fd := r.tokens[fd]?
  key token := r.fds[token]?

/-- A registration is asked for. -/
def asked (r : Reactor) (fd : Fd) : Reactor :=
  { r with
    nextToken := max ((r.nextToken + 1) % 2 ^ 64) 1
    registrations := (fd, false) :: r.registrations }

/-- A registration is asked for, and epoll takes it. -/
def enrolled (r : Reactor) (fd : Fd) : Reactor where
  nextToken := max ((r.nextToken + 1) % 2 ^ 64) 1
  tokens := r.tokens.insert fd r.nextToken
  fds := r.fds.insert r.nextToken fd
  registrations := (fd, true) :: r.registrations

variable {r : Reactor} {fd : Fd}

theorem handles_asked (r : Reactor) (fd : Fd) : (r.asked fd).handles = r.handles.issue := rfl

theorem handles_enrolled (h : r.nextToken = r.registrations.length + 1) :
    (r.enrolled fd).handles = r.handles.issue.bind fd := by
  have htokens : ∀ fd' : Fd, (r.enrolled fd).tokens[fd']? =
      if fd' = fd then some (r.registrations.length + 1) else r.tokens[fd']? := by
    intro fd'
    rw [← h]
    exact (NatMap.get_insert _ _ _ _).trans (by simp only [eq_comm])
  have hfds : ∀ token : Nat, (r.enrolled fd).fds[token]? =
      if token = r.registrations.length + 1 then some fd else r.fds[token]? := by
    intro token
    rw [← h]
    exact (NatMap.get_insert _ _ _ _).trans (by simp only [eq_comm])
  unfold handles
  congr 1
  · funext fd'
    rw [htokens, Function.update_apply]
    rfl
  · funext token
    rw [hfds, Function.update_apply]
    rfl

theorem handles_forget (r : Reactor) (fd : Fd) : (r.forget fd).handles = r.handles.drop fd := by
  unfold forget Handles.drop
  cases htoken : r.tokens[fd]? with
  | none =>
    have hhandle : r.handles.handle fd = none := htoken
    rw [hhandle]
  | some token =>
    have hhandle : r.handles.handle fd = some token := htoken
    rw [hhandle]
    unfold handles
    congr 1
    · funext fd'
      rw [Function.update_apply]
      exact (NatMap.get_erase _ _ _).trans (by simp only [eq_comm])
    · funext token'
      rw [Function.update_apply]
      exact (NatMap.get_erase _ _ _).trans (by simp only [eq_comm])

theorem registrations_forget (r : Reactor) (fd : Fd) :
    (r.forget fd).registrations = r.registrations := by
  unfold forget
  split <;> rfl

theorem nextToken_forget (r : Reactor) (fd : Fd) : (r.forget fd).nextToken = r.nextToken := by
  unfold forget
  split <;> rfl

theorem tokens_forget (r : Reactor) (fd fd' : Fd) :
    (r.forget fd).tokens[fd']? = if fd' = fd then none else r.tokens[fd']? := by
  change (r.forget fd).handles.handle fd' = _
  rw [handles_forget, Handles.handle_drop]
  rfl

end Reactor

/-- Whether epoll has taken every registration. -/
def Reactor.AllTaken (r : Reactor) : Prop := ∀ p ∈ r.registrations, p.2 = true

/-- The tokens are paired with the descriptors of the holder, besides those in `stale`. A
terminal is known to be among them only when no registration was refused. -/
structure Wired (stale : Fd → Prop) (h : HolderServer) : Prop where
  paired : h.reactor.handles.Paired
  next : h.reactor.nextToken = max ((h.reactor.registrations.length + 1) % 2 ^ 64) 1
  known : ∀ fd : Fd, h.reactor.tokens[fd]? ≠ none →
    h.Owns fd ∨ h.Serves fd ∨ h.Hosts fd ∨ stale fd
  owned : ∀ fd : Fd, h.Owns fd → h.reactor.tokens[fd]? ≠ none
  served : ∀ fd : Fd, h.Serves fd → h.reactor.tokens[fd]? ≠ none
  hosted : h.reactor.AllTaken → ∀ fd : Fd, h.Hosts fd → h.reactor.tokens[fd]? ≠ none

/-- What holds inside a handler, from `base` on, of the connections in `seats`: everything the
handler may disconnect is one of them, and none of them is a terminal. -/
structure Web (seats stale : Fd → Prop) (base h : HolderServer) : Prop where
  own : ∀ fd, h.Owns fd ↔ base.Owns fd
  seated : ∀ fd, h.Serves fd → seats fd
  writers : ∀ (s : SessionId) fd, h.writers[s]? = some fd → seats fd
  controller : ∀ c, h.controller = some c → seats c.fd
  apart : ∀ fd, seats fd → ¬ h.Owns fd ∧ ¬ h.Hosts fd
  hosts : ∀ fd, h.Hosts fd → ¬ h.Owns fd
  aside : ∀ fd, stale fd → ¬ seats fd ∧ ¬ h.Owns fd ∧ ¬ h.Hosts fd
  grown : base.reactor.registrations.length ≤ h.reactor.registrations.length
  wired : h.reactor.registrations.length < 2 ^ 64 → Wired stale h
  later : h.reactor.registrations.length < 2 ^ 64 →
    base.reactor.handles.Later h.reactor.handles

section changes
variable {seats stale stale' : Fd → Prop} {base h h' : HolderServer} {fd : Fd}

theorem Wired.congr (hw : Wired stale h) (hreactor : h'.reactor = h.reactor)
    (hown : ∀ fd, h'.Owns fd ↔ h.Owns fd) (hserves : ∀ fd, h'.Serves fd ↔ h.Serves fd)
    (hhosts : ∀ fd, h'.Hosts fd ↔ h.Hosts fd) : Wired stale h' where
  paired := by rw [hreactor]; exact hw.paired
  next := by rw [hreactor]; exact hw.next
  known fd := by rw [hreactor, hown, hserves, hhosts]; exact hw.known fd
  owned fd := by rw [hreactor, hown]; exact hw.owned fd
  served fd := by rw [hreactor, hserves]; exact hw.served fd
  hosted := by
    rw [hreactor]
    exact fun htaken fd hfd => hw.hosted htaken fd ((hhosts fd).mp hfd)

theorem Web.steady (hw : Web seats stale base h) (hs : Steady seats h h') :
    Web seats stale base h' where
  own fd := (hs.own fd).trans (hw.own fd)
  seated fd hfd := hw.seated fd ((hs.serves fd).mp hfd)
  writers s fd hfd := (hs.writers s fd hfd).elim (hw.writers s fd) id
  controller c' hc' := by
    rcases hs.controller c' hc' with ⟨c, hc, hfd⟩ | hfd
    · rw [hfd]
      exact hw.controller c hc
    · exact hfd
  apart fd hfd := by rw [hs.own, hs.hosts]; exact hw.apart fd hfd
  hosts fd := by rw [hs.own, hs.hosts]; exact hw.hosts fd
  aside fd hfd := by rw [hs.own, hs.hosts]; exact hw.aside fd hfd
  grown := by rw [hs.reactor]; exact hw.grown
  wired := by
    rw [hs.reactor]
    exact fun hlt => (hw.wired hlt).congr hs.reactor hs.own hs.serves hs.hosts
  later := by rw [hs.reactor]; exact hw.later

/-- A descriptor that is no longer one of the holder loses its token. -/
theorem Wired.forget (hw : Wired stale h) (hreactor : h'.reactor = h.reactor.forget fd)
    (hown : ∀ fd', h'.Owns fd' ↔ h.Owns fd') (hhosts : ∀ fd', h'.Hosts fd' ↔ h.Hosts fd')
    (hserves : ∀ fd', h'.Serves fd' ↔ fd' ≠ fd ∧ h.Serves fd')
    (hfd : ¬ h.Owns fd ∧ ¬ h.Hosts fd) (hstale : ∀ fd', fd' ≠ fd → stale fd' → stale' fd') :
    Wired stale' h' where
  paired := by rw [hreactor, Reactor.handles_forget]; exact hw.paired.drop fd
  next := by
    rw [hreactor, Reactor.nextToken_forget, Reactor.registrations_forget]
    exact hw.next
  known fd' := by
    rw [hreactor, Reactor.tokens_forget]
    split
    · exact fun h => absurd rfl h
    · rename_i hne
      intro htoken
      rw [hown, hhosts, hserves]
      rcases hw.known fd' htoken with h | h | h | h
      · exact .inl h
      · exact .inr (.inl ⟨hne, h⟩)
      · exact .inr (.inr (.inl h))
      · exact .inr (.inr (.inr (hstale fd' hne h)))
  owned fd' hfd' := by
    rw [hown] at hfd'
    rw [hreactor, Reactor.tokens_forget, if_neg]
    · exact hw.owned fd' hfd'
    · rintro rfl
      exact hfd.1 hfd'
  served fd' hfd' := by
    obtain ⟨hne, hfd'⟩ := (hserves fd').mp hfd'
    rw [hreactor, Reactor.tokens_forget, if_neg hne]
    exact hw.served fd' hfd'
  hosted htaken fd' hfd' := by
    rw [hhosts] at hfd'
    rw [hreactor, Reactor.tokens_forget, if_neg]
    · refine hw.hosted ?_ fd' hfd'
      rwa [hreactor, Reactor.AllTaken, Reactor.registrations_forget] at htaken
    · rintro rfl
      exact hfd.2 hfd'

theorem Web.forget (hw : Web seats stale base h) (hreactor : h'.reactor = h.reactor.forget fd)
    (hown : ∀ fd', h'.Owns fd' ↔ h.Owns fd') (hhosts : ∀ fd', h'.Hosts fd' ↔ h.Hosts fd')
    (hserves : ∀ fd', h'.Serves fd' ↔ fd' ≠ fd ∧ h.Serves fd')
    (hwriters : ∀ (s : SessionId) fd', h'.writers[s]? = some fd' → h.writers[s]? = some fd')
    (hcontroller : h'.controller = h.controller) (hfd : ¬ h.Owns fd ∧ ¬ h.Hosts fd)
    (hstale : ∀ fd', stale' fd' → stale fd') (hrest : ∀ fd', fd' ≠ fd → stale fd' → stale' fd') :
    Web seats stale' base h' where
  own fd' := (hown fd').trans (hw.own fd')
  seated fd' hfd' := hw.seated fd' ((hserves fd').mp hfd').2
  writers s fd' hs := hw.writers s fd' (hwriters s fd' hs)
  controller c hc := hw.controller c (hcontroller ▸ hc)
  apart fd' hfd' := by rw [hown, hhosts]; exact hw.apart fd' hfd'
  hosts fd' := by rw [hown, hhosts]; exact hw.hosts fd'
  aside fd' hfd' := by rw [hown, hhosts]; exact hw.aside fd' (hstale fd' hfd')
  grown := by rw [hreactor, Reactor.registrations_forget]; exact hw.grown
  wired := by
    rw [hreactor, Reactor.registrations_forget]
    exact fun hlt => (hw.wired hlt).forget hreactor hown hhosts hserves hfd hrest
  later := by
    rw [hreactor, Reactor.registrations_forget, Reactor.handles_forget]
    exact fun hlt => (hw.later hlt).trans (Handles.later_drop (hw.wired hlt).paired fd)

/-- The token of a terminal that was dropped is still there. -/
theorem Web.drop (hw : Web seats stale base h) (hruntime : h' = { h with runtime := h'.runtime })
    (hhosts : ∀ fd', h'.Hosts fd' ↔ fd' ≠ fd ∧ h.Hosts fd') (hfd : ¬ seats fd ∧ ¬ h.Owns fd) :
    Web seats (fun fd' => fd' = fd ∨ stale fd') base h' := by
  rw [hruntime]
  refine ⟨hw.own, hw.seated, hw.writers, hw.controller,
    fun fd' hfd' => ⟨(hw.apart fd' hfd').1, fun hhost => (hw.apart fd' hfd').2 ((hhosts fd').mp hhost).2⟩,
    fun fd' hhost => hw.hosts fd' ((hhosts fd').mp hhost).2, ?_, hw.grown, fun hlt => ?_, hw.later⟩
  · rintro fd' (rfl | hstale)
    · exact ⟨hfd.1, hfd.2, fun hhost => ((hhosts fd').mp hhost).1 rfl⟩
    · obtain ⟨hseat, hown, hhost⟩ := hw.aside fd' hstale
      exact ⟨hseat, hown, fun hhost' => hhost ((hhosts fd').mp hhost').2⟩
  · have hwired := hw.wired hlt
    refine ⟨hwired.paired, hwired.next, fun fd' htoken => ?_, hwired.owned, hwired.served,
      fun htaken fd' hhost => hwired.hosted htaken fd' ((hhosts fd').mp hhost).2⟩
    rcases hwired.known fd' htoken with hown | hserve | hhost | hstale
    · exact .inl hown
    · exact .inr (.inl hserve)
    · by_cases heq : fd' = fd
      · exact .inr (.inr (.inr (.inl heq)))
      · exact .inr (.inr (.inl ((hhosts fd').mpr ⟨heq, hhost⟩)))
    · exact .inr (.inr (.inr (.inr hstale)))

/-- The token of a terminal that was dropped is taken back. -/
theorem Web.collect (hw : Web seats stale base h) (hfd : stale fd)
    (hrest : ∀ fd', stale' fd' → stale fd') (hall : ∀ fd', fd' ≠ fd → stale fd' → stale' fd') :
    Web seats stale' base { h with reactor := h.reactor.forget fd } := by
  obtain ⟨hseat, hown, hhost⟩ := hw.aside fd hfd
  refine hw.forget rfl (fun _ => Iff.rfl) (fun _ => Iff.rfl) (fun fd' => ?_) (fun _ _ => id) rfl
    ⟨hown, hhost⟩ hrest hall
  refine ⟨fun hserve => ⟨?_, hserve⟩, fun hserve => hserve.2⟩
  rintro rfl
  exact hseat (hw.seated fd' hserve)

/-- The count goes on while it is below its limit. -/
theorem Wired.nextToken_eq (hw : Wired stale h)
    (hlt : h.reactor.registrations.length + 1 < 2 ^ 64) :
    h.reactor.nextToken = h.reactor.registrations.length + 1 := by
  rw [hw.next, Nat.mod_eq_of_lt hlt]
  exact max_eq_left (Nat.succ_le_succ (Nat.zero_le _))

/-- A new descriptor of the holder gets a token. -/
theorem Wired.enroll (hw : Wired stale h) (hlt : h.reactor.registrations.length + 1 < 2 ^ 64)
    (hreactor : h'.reactor = h.reactor.enrolled fd) (hown : ∀ fd', h'.Owns fd' ↔ h.Owns fd')
    (hserves : ∀ fd', fd' ≠ fd → (h'.Serves fd' ↔ h.Serves fd'))
    (hhosts : ∀ fd', fd' ≠ fd → (h'.Hosts fd' ↔ h.Hosts fd'))
    (hnew : h'.Serves fd ∨ h'.Hosts fd) (hfree : h.reactor.tokens[fd]? = none) :
    Wired stale h' := by
  have hnext := hw.nextToken_eq hlt
  have htoken : ∀ fd' : Fd, h'.reactor.tokens[fd']? =
      if fd = fd' then some h.reactor.nextToken else h.reactor.tokens[fd']? := by
    intro fd'
    rw [hreactor]
    exact NatMap.get_insert _ _ _ _
  have hkept : ∀ fd' : Fd, (fd ≠ fd' → h.reactor.tokens[fd']? ≠ none) →
      h'.reactor.tokens[fd']? ≠ none := by
    intro fd' h
    rw [htoken]
    split
    · exact Option.some_ne_none _
    · exact h ‹_›
  refine ⟨?_, ?_, fun fd' hfd' => ?_, fun fd' hfd' => ?_, fun fd' hfd' => ?_,
    fun htaken fd' hfd' => ?_⟩
  · rw [hreactor, Reactor.handles_enrolled hnext]
    exact hw.paired.bind hfree
  · rw [hreactor]
    change max ((h.reactor.nextToken + 1) % 2 ^ 64) 1 = _
    rw [hnext]
    rfl
  · rw [hown]
    by_cases heq : fd' = fd
    · subst heq
      exact .inr (hnew.imp_right .inl)
    · rw [htoken, if_neg (Ne.symm heq)] at hfd'
      rw [hserves fd' heq, hhosts fd' heq]
      exact hw.known fd' hfd'
  · exact hkept fd' fun _ => hw.owned fd' ((hown fd').mp hfd')
  · exact hkept fd' fun hne => hw.served fd' ((hserves fd' (Ne.symm hne)).mp hfd')
  · refine hkept fd' fun hne => hw.hosted (fun p hp => htaken p ?_) fd'
      ((hhosts fd' (Ne.symm hne)).mp hfd')
    rw [hreactor]
    exact List.mem_cons_of_mem _ hp

/-- A terminal whose registration is refused is the holder's without a token. -/
theorem Wired.ask (hw : Wired stale h) (hlt : h.reactor.registrations.length + 1 < 2 ^ 64)
    (hreactor : h'.reactor = h.reactor.asked fd) (hown : ∀ fd', h'.Owns fd' ↔ h.Owns fd')
    (hserves : ∀ fd', h'.Serves fd' ↔ h.Serves fd') (hhosts : ∀ fd', h.Hosts fd' → h'.Hosts fd') :
    Wired stale h' := by
  have hnext := hw.nextToken_eq hlt
  refine ⟨?_, ?_, fun fd' => ?_, fun fd' => ?_, fun fd' => ?_, fun htaken => ?_⟩
  · rw [hreactor, Reactor.handles_asked]
    exact hw.paired.issue
  · rw [hreactor]
    change max ((h.reactor.nextToken + 1) % 2 ^ 64) 1 = _
    rw [hnext]
    rfl
  · rw [hreactor, hown, hserves]
    intro hfd'
    rcases hw.known fd' hfd' with h | h | h | h
    · exact .inl h
    · exact .inr (.inl h)
    · exact .inr (.inr (.inl (hhosts fd' h)))
    · exact .inr (.inr (.inr h))
  · rw [hreactor, hown]
    exact hw.owned fd'
  · rw [hreactor, hserves]
    exact hw.served fd'
  · rw [hreactor] at htaken
    cases htaken _ List.mem_cons_self

end changes

/-- The web of the descriptors, as a world has it. -/
def InWeb (seats stale : Fd → Prop) (base : HolderServer) (w : World) : Prop :=
  Web seats stale base w.server

namespace Holder
open Program

section disconnects
variable {seats stale : Fd → Prop} {base : HolderServer} {fd : Fd} {w : World}

theorem serves_iff (w : World) (fd : Fd) : w.server.Serves fd ↔ w.role fd ≠ none :=
  not_congr Option.map_eq_none_iff.symm

theorem writers_remove_subset {s : SessionId} {fd' : Fd}
    (hs : (w.remove fd).server.writers[s]? = some fd') : w.server.writers[s]? = some fd' := by
  revert hs
  simp only [World.remove, World.erase, World.detach]
  split
  · exact id
  · split
    · exact writers_of_erase
    · exact id

/-- Removing a connection takes its token back. -/
theorem inWeb_remove (hfd : seats fd) (hw : InWeb seats stale base w) :
    InWeb seats stale base (removeConnection fd w).2 := by
  have hrole := role_removeConnection w fd
  obtain ⟨w', hrun, hserver⟩ := removeConnection_run w fd
  have hserves : ∀ fd', (removeConnection fd w).2.server.Serves fd' ↔
      fd' ≠ fd ∧ w.server.Serves fd' := by
    intro fd'
    rw [serves_iff, serves_iff, hrole]
    split <;> simp_all
  rw [hrun] at hserves ⊢
  refine Web.forget (h := w.server) hw ?_ ?_ ?_ hserves ?_ ?_ (hw.apart fd hfd)
    (fun _ => id) fun _ _ => id
  · change w'.server.reactor = _
    rw [hserver]
  · intro fd'
    change w'.server.Owns fd' ↔ _
    rw [hserver]
    exact Iff.rfl
  · intro fd'
    change w'.server.Hosts fd' ↔ _
    rw [hserver]
    exact Iff.rfl
  · intro s fd' hs
    have := writers_remove_subset hs
    rwa [hserver] at this
  · change w'.server.controller = _
    rw [hserver]

/-- A disconnect takes the tokens of all that it disconnects back. -/
theorem inWeb_disconnect (hfd : seats fd) (hw : InWeb seats stale base w) :
    InWeb seats stale base (disconnect fd w).2 := by
  refine Leaves.bind (J := InWeb seats stale base) (fun w hw => inWeb_remove hfd hw) (fun _ => ?_) w hw
  refine Leaves.read_bind fun w hw => ?_
  split
  · refine Leaves.bind (Leaves.update fun w hw => ?_) fun _ =>
      Leaves.forEach_mem fun fd' hfd' w' hw' => inWeb_remove (hw.seated fd' ?_) hw'
    · exact { hw with
        controller := nofun
        wired := fun hlt => (hw.wired hlt).congr rfl (fun _ => Iff.rfl) (fun _ => Iff.rfl)
          fun _ => Iff.rfl }
    · obtain ⟨c, hc⟩ := (NatMap.mem_keys_iff _ _).mp (List.mem_of_mem_filter hfd')
      rw [HolderServer.Serves, hc]
      exact Option.some_ne_none _
  · exact Leaves.pure _

variable [SerdeJson]

/-- The web holds through whatever opens and closes no descriptor but those that are
disconnected. -/
theorem closed_inWeb (seats stale : Fd → Prop) (base : HolderServer) :
    Closed seats (InWeb seats stale base) where
  move _ hsteady hw := Web.steady hw hsteady
  lose hfd hw := inWeb_disconnect hfd hw
  serves hw hfd := hw.seated _ hfd
  writer hw hs := hw.writers _ _ hs
  controller hw hc := hw.controller _ hc

end disconnects

end Holder

end PersistShell

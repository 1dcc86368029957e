import PersistShell.Holder.Lifecycles
import PersistShell.Program.Paging

/-! What the inventory shows of the sessions, and that it only changes together with the
generation. While exits are being collected, a recorded exit counts from the moment its terminal
is dropped, which is when the generation advances. -/

namespace PersistShell

/-- The part of an inventory entry that does not change without the generation. -/
structure Listed where
  sessionId : Nat
  shellPid : Nat
  state : HolderSessionState
  exitCode : Option Int
  createdAtMs : Nat
  logState : HolderLogState
  exitContextAvailable : Bool
  deriving DecidableEq, Repr

def HolderSessionEntry.listed (entry : HolderSessionEntry) : Listed where
  sessionId := entry.sessionId
  shellPid := entry.shellPid
  state := entry.state
  exitCode := entry.exitCode
  createdAtMs := entry.createdAtMs
  logState := entry.logState
  exitContextAvailable := entry.exitContextAvailable

def Session.listed (session : Session) (s : SessionId) : Listed := (session.entry s).listed

/-- The sessions as the inventory lists them. -/
def Runtime.listing (r : Runtime) : List Listed := r.sessions.toList.map fun e => e.2.listed e.1

/-- The exit of a session that still has its terminal is not counted yet. -/
def Session.settled (session : Session) (s : SessionId) : Listed :=
  { session with exitCode := if session.pty.isSome then none else session.exitCode }.listed s

def Runtime.settled (r : Runtime) : Std.ExtTreeMap SessionId Listed :=
  r.sessions.map fun s session => session.settled s

def nextGeneration (generation : Nat) : Nat := max ((generation + 1) % 2 ^ 64) 1

/-- How many changes it takes until a generation comes up again. -/
def generationPeriod : Nat := 2 ^ 64 - 1

section generations

theorem iterate_nextGeneration {generation n : Nat} (h : 1 ≤ generation)
    (hn : generation + n < 2 ^ 64) : nextGeneration^[n] generation = generation + n := by
  induction n with
  | zero => rfl
  | succ n ih =>
    rw [Function.iterate_succ_apply', ih (by omega), nextGeneration]
    omega

theorem nextGeneration_pos (generation : Nat) : 1 ≤ nextGeneration generation :=
  Nat.le_max_right _ _

theorem nextGeneration_lt (generation : Nat) : nextGeneration generation < 2 ^ 64 := by
  unfold nextGeneration
  omega

theorem iterate_succ_pos (generation n : Nat) : 1 ≤ nextGeneration^[n + 1] generation := by
  rw [Function.iterate_succ_apply']
  exact nextGeneration_pos _

/-- A generation comes up again after that many changes, and not before. -/
theorem iterate_period {generation : Nat} (h : 1 ≤ generation) (hlt : generation < 2 ^ 64) :
    nextGeneration^[generationPeriod] generation = generation := by
  have hsplit : generationPeriod = (generation - 1) + (1 + (2 ^ 64 - 1 - generation)) := by
    unfold generationPeriod
    omega
  rw [hsplit, Function.iterate_add_apply, Function.iterate_add_apply,
    iterate_nextGeneration h (by omega)]
  have hlast : generation + (2 ^ 64 - 1 - generation) = 2 ^ 64 - 1 := by omega
  have hwrap : nextGeneration (2 ^ 64 - 1) = 1 := by decide
  rw [hlast, Function.iterate_one, hwrap, iterate_nextGeneration le_rfl (by omega)]
  omega

theorem few_changes {generation n : Nat} (hsame : nextGeneration^[n] generation = generation) :
    n = 0 ∨ generationPeriod ≤ n := by
  by_contra hnot
  obtain ⟨hzero, hfew⟩ := not_or.mp hnot
  unfold generationPeriod at hfew
  obtain ⟨m, rfl⟩ := Nat.exists_eq_add_one_of_ne_zero hzero
  have hpos : 1 ≤ generation := hsame ▸ iterate_succ_pos generation m
  have hlt : generation < 2 ^ 64 := by
    rw [← hsame, Function.iterate_succ_apply']
    exact nextGeneration_lt _
  by_cases hwrap : generation + (m + 1) < 2 ^ 64
  · rw [iterate_nextGeneration hpos hwrap] at hsame
    omega
  · -- the generation wraps once on the way
    have hsplit : m + 1 = (m + generation - (2 ^ 64 - 1)) + (1 + (2 ^ 64 - 1 - generation)) := by
      omega
    have hlast : generation + (2 ^ 64 - 1 - generation) = 2 ^ 64 - 1 := by omega
    have hone : nextGeneration (2 ^ 64 - 1) = 1 := by decide
    rw [hsplit, Function.iterate_add_apply, Function.iterate_add_apply,
      iterate_nextGeneration hpos (by omega), hlast, Function.iterate_one, hone,
      iterate_nextGeneration le_rfl (by omega)] at hsame
    omega

end generations

/-- The sessions of the holder changed `n` times. -/
abbrev Runtime.Evolves : Nat → Runtime → Runtime → Prop :=
  Paging.Evolves nextGeneration Runtime.generation Runtime.settled

namespace Runtime

variable {r r' : Runtime} {s : SessionId}

theorem evolves_quiet (hgeneration : r'.generation = r.generation)
    (hsettled : ∀ s : SessionId, r'.settled[s]? = r.settled[s]?) : Evolves 0 r r' :=
  ⟨hgeneration, fun _ => Std.ExtTreeMap.ext_getElem? fun s => hsettled s⟩

theorem evolves_bump (hgeneration : r'.generation = r.generation) :
    Evolves 1 r r'.bumpGeneration :=
  ⟨congrArg nextGeneration hgeneration, fun hnot => absurd hnot Nat.one_ne_zero⟩

theorem get_settled (r : Runtime) (s : SessionId) :
    r.settled[s]? = r.sessions[s]?.map fun session => session.settled s :=
  NatMap.get_map _ _ _

/-- A change to one session that leaves what is listed of it. -/
theorem evolves_session {f : Session → Session}
    (hf : ∀ session, r.sessions[s]? = some session → (f session).settled s = session.settled s) :
    Evolves 0 r { r with sessions := r.sessions.alter s (·.map f) } := by
  refine evolves_quiet rfl fun s' => ?_
  rw [get_settled, get_settled]
  dsimp only
  rw [NatMap.get_alter]
  split
  · rename_i heq
    subst heq
    cases hs : r.sessions[s]? with
    | none => rfl
    | some session => exact congrArg some (hf session hs)
  · rfl

theorem evolves_degradeLog (r : Runtime) (s : SessionId) : ∃ n, Evolves n r (r.degradeLog s) := by
  unfold degradeLog
  cases hs : r.sessions[s]? with
  | none => exact ⟨0, .refl r⟩
  | some session =>
    dsimp only
    split
    · rename_i hdegraded
      refine ⟨0, evolves_quiet rfl fun s' => ?_⟩
      rw [get_settled, get_settled]
      dsimp only
      rw [NatMap.get_insert]
      split
      · rename_i heq
        subst heq
        have hsame : { session with logState := .degraded } = session := by rw [← hdegraded]
        rw [hs, hsame]
      · rfl
    · exact ⟨1, evolves_bump rfl⟩

variable [SerdeJson]

theorem settled_move {session session' : Session} (h : session.Move session') :
    session'.settled s = session.settled s := by
  cases h with
  | stored chunk => rfl
  | active now => rfl
  | queued data now => rfl
  | sent count => rfl
  | closing => rfl
  | @exited pty state code now hpty hstate =>
    unfold Session.settled
    rw [hpty]
    cases state with
    | none => rfl
    | some found => rfl

/-- Whatever changes the listing changes the generation. -/
theorem evolves_move (h : Runtime.Move r r') : ∃ n, Evolves n r r' := by
  cases h with
  | session hf => exact ⟨0, evolves_session fun session hs => settled_move (hf session hs)⟩
  | created pty ring now hvalid hring hnew => exact ⟨1, evolves_bump rfl⟩
  | degraded s => exact evolves_degradeLog r s
  | retired hsession hexit => exact ⟨1, evolves_bump rfl⟩
  | dropped s fd => exact ⟨1, evolves_bump rfl⟩

end Runtime

/-- Between two steps a session without a terminal is one whose exit is recorded. -/
theorem listing_of_inv {w : World} (h : Inv {} w) :
    w.server.runtime.listing = w.server.runtime.settled.toList.map Prod.snd := by
  unfold Runtime.listing Runtime.settled
  rw [Std.ExtTreeMap.toList_map, List.map_map]
  refine List.map_congr_left fun e he => ?_
  have hget := Std.ExtTreeMap.mem_toList_iff_getElem?_eq_some.mp he
  have hexit := h.exit e.1 e.2.core (Holder.core_of_get hget)
  have hshown : (if e.2.pty.isSome then none else e.2.exitCode) = e.2.exitCode := by
    cases hpty : e.2.pty with
    | none => rfl
    | some pty =>
      cases hcode : e.2.exitCode with
      | none => rfl
      | some code =>
        -- a session with a terminal has no exit recorded
        rcases hexit.mp (by rw [Session.core, hcode]; rfl) with hnone | hreaped
        · rw [Session.core, hpty] at hnone
          cases hnone
        · cases hreaped
  rw [Function.comp_apply, Session.settled, hshown]

/-- The sessions that the inventory lists changed `n` times. -/
abbrev Runtime.Changes : Nat → Runtime → Runtime → Prop :=
  Paging.Evolves nextGeneration Runtime.generation Runtime.listing

namespace HolderServer

/-- The page that answers a request, with the writers filled in. -/
def inventoryPage (h : HolderServer) (request : InventoryRequest) : InventoryResponse :=
  let inventory := h.runtime.inventory request
  { inventory with
    entries := inventory.entries.map fun entry =>
      { entry with writerActive := h.writers.contains entry.sessionId } }

/-- The frame that answers an inventory request. -/
def inventoryAnswer (h : HolderServer) (frame : HolderFrame) : Except PersistError HolderFrame := do
  let request ← (decodeInventoryRequest frame.payload).mapError (protocolError "Inventory")
  let payload ← (encodeInventoryResponse (h.inventoryPage request)).mapError
    (protocolError "InventoryResp")
  return {
    messageType := .inventoryResp
    requestId := frame.requestId
    generation := h.runtime.generation
    payload }

end HolderServer

/-- The handler queues exactly that frame. -/
theorem Holder.handleInventory_eq (fd : Fd) (frame : HolderFrame) (w : World) :
    Holder.handleInventory fd frame w =
      (Program.lift (w.server.inventoryAnswer frame) >>= Holder.queueFrame fd : Holder Unit) w := by
  cases hrequest : decodeInventoryRequest frame.payload with
  | error e =>
    unfold Holder.handleInventory HolderServer.inventoryAnswer Holder.protocol
    rw [hrequest]
    rfl
  | ok request =>
    cases hpayload : encodeInventoryResponse (w.server.inventoryPage request) with
    | error e =>
      have hanswer : w.server.inventoryAnswer frame = .error (protocolError "InventoryResp" e) := by
        unfold HolderServer.inventoryAnswer
        rw [hrequest]
        change (encodeInventoryResponse (w.server.inventoryPage request)).mapError _ >>= _ = _
        rw [hpayload]
        rfl
      rw [hanswer]
      unfold Holder.handleInventory Holder.protocol
      rw [hrequest]
      change (Program.lift ((encodeInventoryResponse (w.server.inventoryPage request)).mapError
        (protocolError "InventoryResp")) >>= fun payload =>
          Holder.respond fd frame .inventoryResp payload : Holder Unit) w = _
      rw [hpayload]
      rfl
    | ok payload =>
      have hanswer : w.server.inventoryAnswer frame = .ok
          { messageType := .inventoryResp
            requestId := frame.requestId
            generation := w.server.runtime.generation
            payload } := by
        unfold HolderServer.inventoryAnswer
        rw [hrequest]
        change (encodeInventoryResponse (w.server.inventoryPage request)).mapError _ >>= _ = _
        rw [hpayload]
        rfl
      rw [hanswer]
      unfold Holder.handleInventory Holder.protocol
      rw [hrequest]
      change (Program.lift ((encodeInventoryResponse (w.server.inventoryPage request)).mapError
        (protocolError "InventoryResp")) >>= fun payload =>
          Holder.respond fd frame .inventoryResp payload : Holder Unit) w = _
      rw [hpayload]
      rfl

variable [SerdeJson]

theorem evolves_move {w w' : World} (h : Move w w') :
    ∃ n, w.server.runtime.Evolves n w'.server.runtime := by
  have hsame : w'.server.runtime = w.server.runtime →
      ∃ n, w.server.runtime.Evolves n w'.server.runtime := fun heq => ⟨0, heq ▸ .refl _⟩
  cases h with
  | called h => exact hsame (congrArg HolderServer.runtime h.server)
  | runtime h => exact Runtime.evolves_move h
  | disconnected fd =>
    exact hsame (Holder.leaves_disconnect (J := fun w' => w'.server.runtime = w.server.runtime)
      (fun _ _ h hw => h.runtime.trans hw) w rfl)
  | _ => exact hsame rfl

theorem evolves_moved {w w' : World} (h : Moved w w') :
    ∃ n, w.server.runtime.Evolves n w'.server.runtime := by
  induction h with
  | refl => exact ⟨0, .refl _⟩
  | tail _ hmove ih =>
    obtain ⟨n, hn⟩ := ih
    obtain ⟨m, hm⟩ := evolves_move hmove
    exact ⟨n + m, hn.trans hm⟩

/-- Between two steps, every sequence of moves is a number of changes. -/
theorem changes_of_moved {w w' : World} (h : Moved w w') (hw : Inv {} w) (hw' : Inv {} w') :
    ∃ n, w.server.runtime.Changes n w'.server.runtime := by
  obtain ⟨n, hn⟩ := evolves_moved h
  refine ⟨n, hn.version, fun hzero => ?_⟩
  rw [listing_of_inv hw', listing_of_inv hw, hn.view hzero]

/-- What a step of the holder does to the listing, it does to the generation. -/
theorem HolderReachable.changes {config : HolderConfig} {r r' : HolderRun} {script : List Turn}
    (h : HolderReachable config r) (hstep : r.step script = some r')
    (hrunning : r'.status matches .running) :
    ∃ n, r.world.server.runtime.Changes n r'.world.server.runtime := by
  have hinv : Inv {} { r.world with script, failures := [] } :=
    { h.safe.running (running_of_step hstep) with }
  have hafter : Inv {} r'.world := (HolderRun.safe_step h.safe hstep).running hrunning
  have hmoved := HolderRun.moved_step hstep
  exact changes_of_moved (w := { r.world with script, failures := [] }) hmoved hinv hafter

end PersistShell

import PersistShell.Cli.Attach
import PersistShell.Daemon.ProxyOrder

/-! What an attached client shows. It is the output in the frames that arrived, up to the first
of them that ends the attach; and as the proxy keeps their order, it is the output of the
session, in order and with nothing left out or shown twice. -/

namespace PersistShell
open Program

/-- What a frame adds to the terminal. -/
def Frame.output (f : Frame) : Bytes := if f.msgType = .stdout then f.payload else []

/-- The output of some frames, up to the first one that ends the attach. -/
def shownOf (ends : Frame → Bool) (frames : List Frame) : Bytes :=
  (frames.takeWhile (!ends ·)).flatMap Frame.output

section shownOf

variable {ends : Frame → Bool}

theorem shownOf_cons_ends {f : Frame} (frames : List Frame) (h : ends f = true) :
    shownOf ends (f :: frames) = [] := by
  rw [shownOf, List.takeWhile_cons, h]
  rfl

theorem shownOf_cons {f : Frame} (frames : List Frame) (h : ends f = false) :
    shownOf ends (f :: frames) = f.output ++ shownOf ends frames := by
  rw [shownOf, List.takeWhile_cons, h]
  rfl

theorem shownOf_append {frames : List Frame} (more : List Frame)
    (h : ∀ f ∈ frames, ends f = false) :
    shownOf ends (frames ++ more) = frames.flatMap Frame.output ++ shownOf ends more := by
  have hall : ∀ f ∈ frames, (!ends f) = true := fun f hf => by rw [h f hf]; rfl
  rw [shownOf, List.takeWhile_append_of_pos hall, List.flatMap_append]
  rfl

theorem shownOf_all {frames : List Frame} (h : ∀ f ∈ frames, ends f = false) :
    shownOf ends frames = frames.flatMap Frame.output := by
  have hall := shownOf_append [] h
  rw [List.append_nil] at hall
  exact hall.trans (List.append_nil _)

end shownOf

namespace AttachClient

section front

variable {takes : Option Nat} {bytes : Bytes}

theorem front_of_room (h : hasRoom takes bytes = true) : front takes bytes = bytes := by
  cases takes with
  | none => rfl
  | some n => exact List.take_of_length_le (of_decide_eq_true h)

theorem front_of_full (h : hasRoom takes bytes = false) (more : Bytes) :
    front takes (bytes ++ more) = front takes bytes := by
  cases takes with
  | none => cases h
  | some n =>
    have hlt := of_decide_eq_false h
    exact List.take_append_of_le_length (Nat.le_of_not_le hlt)

end front

/-- How a loop deals with one frame: it shows the output, and goes on unless the frame ends the
attach or stdout takes no more. -/
structure Shows (ends : Frame → Bool) (handle : Frame → AttachProgram Bool) : Prop where
  silent : ∀ f, ends f = true → f.output = []
  run : ∀ f c, hasRoom c.stdoutTakes c.shown = true → ∃ notices,
    handle f c = (.ok (!ends f && hasRoom c.stdoutTakes (c.shown ++ f.output)),
      { c with shown := front c.stdoutTakes (c.shown ++ f.output), notices })

section loops

variable {ends : Frame → Bool} {takes : Option Nat} {handle : Frame → AttachProgram Bool}

theorem hasRoom_of_append {bytes more : Bytes}
    (h : hasRoom takes (bytes ++ more) = true) : hasRoom takes bytes = true := by
  cases takes with
  | none => rfl
  | some n =>
    have hle := of_decide_eq_true h
    rw [List.length_append] at hle
    exact decide_eq_true (by omega)

/-- What becomes of the frames that have arrived. -/
theorem takeFrames_run (hshows : Shows ends handle) (bytes : Bytes) :
    ∀ fuel c, c.accumulator = ⟨bytes⟩ → bytes.length < fuel →
      hasRoom c.stdoutTakes c.shown = true → ∃ goesOn accumulator notices,
      takeFrames handle fuel c = (.ok goesOn, { c with
        accumulator, notices, shown := front c.stdoutTakes
          (c.shown ++ shownOf ends (publicFraming.cut bytes).items) }) ∧
      (goesOn = true → accumulator = ⟨(publicFraming.cut bytes).rest⟩ ∧
        (publicFraming.cut bytes).stopped = none ∧
        (∀ f ∈ (publicFraming.cut bytes).items, ends f = false) ∧
        hasRoom c.stdoutTakes
          (c.shown ++ shownOf ends (publicFraming.cut bytes).items) = true) := by
  induction bytes using Framing.cut_induction (F := publicFraming) with
  | error bytes e hread =>
    intro fuel c hacc hfuel hroom
    obtain ⟨fuel, rfl⟩ : ∃ k, fuel = k + 1 := ⟨fuel - 1, by omega⟩
    have htry : c.accumulator.tryRead = .error e := by
      rw [FrameAccumulator.tryRead_eq, hacc, hread]
      rfl
    rw [Framing.cut_error hread]
    refine ⟨false, c.accumulator, c.notices, ?_, nofun⟩
    change takeFrames handle (fuel + 1) c = (_, { c with shown := front _ (c.shown ++ []) })
    rw [List.append_nil, front_of_room hroom, takeFrames, Program.bind_ok (read_apply _ _), htry]
    rfl
  | none bytes hread =>
    intro fuel c hacc hfuel hroom
    obtain ⟨fuel, rfl⟩ : ∃ k, fuel = k + 1 := ⟨fuel - 1, by omega⟩
    have htry : c.accumulator.tryRead = .ok none := by
      rw [FrameAccumulator.tryRead_eq, hacc, hread]
      rfl
    rw [Framing.cut_none hread]
    refine ⟨true, c.accumulator, c.notices, ?_, fun _ => ⟨hacc, rfl, nofun, ?_⟩⟩
    · change takeFrames handle (fuel + 1) c = (_, { c with shown := front _ (c.shown ++ []) })
      rw [List.append_nil, front_of_room hroom, takeFrames, Program.bind_ok (read_apply _ _), htry]
      rfl
    · exact (congrArg (hasRoom c.stdoutTakes) (List.append_nil _)).trans hroom
  | item bytes f rest hread ih =>
    intro fuel c hacc hfuel hroom
    obtain ⟨fuel, rfl⟩ : ∃ k, fuel = k + 1 := ⟨fuel - 1, by omega⟩
    have hlt := Framing.length_lt_of_item hread
    have htry : c.accumulator.tryRead = .ok (some (f, ⟨rest⟩)) := by
      rw [FrameAccumulator.tryRead_eq, hacc, hread]
      rfl
    obtain ⟨notices, hhandle⟩ := hshows.run f { c with accumulator := ⟨rest⟩ } hroom
    have htake : takeFrames handle (fuel + 1) c =
        (handle f >>= fun goesOn => if goesOn then takeFrames handle fuel else pure false)
          { c with accumulator := ⟨rest⟩ } := by
      rw [takeFrames, Program.bind_ok (read_apply _ _), htry]
      rfl
    rw [htake, Program.bind_ok hhandle, Framing.cut_item hread]
    dsimp only [Cut.cons]
    cases hends : ends f with
    | true =>
      rw [shownOf_cons_ends _ hends, hshows.silent f hends]
      exact ⟨false, _, _, rfl, nofun⟩
    | false =>
      rw [shownOf_cons _ hends, ← List.append_assoc]
      cases hmore : hasRoom c.stdoutTakes (c.shown ++ f.output) with
      | false =>
        rw [front_of_full hmore]
        exact ⟨false, _, _, rfl, nofun⟩
      | true =>
        rw [front_of_room hmore]
        let c' : AttachClient :=
          { c with accumulator := ⟨rest⟩, shown := c.shown ++ f.output, notices }
        obtain ⟨goesOn, accumulator, notices', hrun, hgoesOn⟩ := ih fuel c' rfl (by omega) hmore
        refine ⟨goesOn, accumulator, notices', hrun, fun htrue => ?_⟩
        obtain ⟨hrest, hstopped, hnone, hroom'⟩ := hgoesOn htrue
        refine ⟨hrest, hstopped, ?_, ?_⟩
        · intro g hg
          rcases List.mem_cons.mp hg with rfl | hg
          · exact hends
          · exact hnone g hg
        · exact hroom'

variable (ends takes) in
/-- The loop goes on: all that has arrived is read, but for a frame that is not whole, and all
output of it is shown. -/
structure Showing (c : AttachClient) : Prop where
  takes_eq : c.stdoutTakes = takes
  rest : (publicFraming.cut c.received).rest = c.accumulator.buf
  stopped : (publicFraming.cut c.received).stopped = none
  goes_on : ∀ f ∈ (publicFraming.cut c.received).items, ends f = false
  room : hasRoom takes c.shown = true
  shown : c.shown = (publicFraming.cut c.received).items.flatMap Frame.output

variable (ends takes) in
/-- What is shown is the output that has arrived before the attach was ended, as far as stdout
takes it. -/
def Shown (c : AttachClient) : Prop :=
  c.shown = front takes (shownOf ends (publicFraming.cut c.received).items)

theorem Showing.shown_eq {c : AttachClient} (h : Showing ends takes c) : Shown ends takes c := by
  have hroom := h.room
  rw [h.shown] at hroom
  rw [Shown, shownOf_all h.goes_on, front_of_room hroom]
  exact h.shown

variable (ends takes) in
/-- What holds after a step of the loop that says whether it goes on. -/
def Passed (goesOn : Bool) (c : AttachClient) : Prop :=
  Shown ends takes c ∧ (goesOn = true → Showing ends takes c)

theorem readSocket_run (hshows : Shows ends handle) (t : AttachTurn) {c : AttachClient}
    (hc : Showing ends takes c) :
    ∃ goesOn c', readSocket handle t c = (.ok goesOn, c') ∧ Passed ends takes goesOn c' := by
  obtain rfl := hc.takes_eq
  unfold readSocket
  cases hread : t.socketRead with
  | error source => exact ⟨_, c, rfl, hc.shown_eq, fun _ => hc⟩
  | ok arrived =>
    dsimp only
    split
    · exact ⟨false, c, rfl, hc.shown_eq, nofun⟩
    · let c' : AttachClient := { c with
        accumulator := c.accumulator.feed (arrived.take socketBuffer)
        received := c.received ++ arrived.take socketBuffer }
      have hcut : publicFraming.cut c'.received =
          (publicFraming.cut c'.accumulator.buf).after (publicFraming.cut c.received).items := by
        have happend := Framing.cut_append hc.stopped (arrived.take socketBuffer)
        rw [hc.rest] at happend
        exact happend
      obtain ⟨goesOn, accumulator, notices, hrun, hgoesOn⟩ := takeFrames_run hshows
        c'.accumulator.buf (c'.accumulator.buf.length + 1) c' rfl (Nat.lt_succ_self _) hc.room
      have hshown : c'.shown ++ shownOf ends (publicFraming.cut c'.accumulator.buf).items =
          shownOf ends (publicFraming.cut c'.received).items := by
        rw [hcut]
        exact (congrArg (· ++ _) hc.shown).trans (shownOf_append _ hc.goes_on).symm
      rw [hshown] at hrun hgoesOn
      refine ⟨goesOn, _, hrun, rfl, fun htrue => ?_⟩
      obtain ⟨hrest, hstopped, hends, hroom⟩ := hgoesOn htrue
      have hall : ∀ f ∈ (publicFraming.cut c'.received).items, ends f = false := by
        rw [hcut]
        intro f hf
        rcases List.mem_append.mp hf with hold | hnew
        · exact hc.goes_on f hold
        · exact hends f hnew
      constructor
      · rfl
      · change (publicFraming.cut c'.received).rest = accumulator.buf
        rw [hcut, hrest]
        rfl
      · change (publicFraming.cut c'.received).stopped = none
        rw [hcut]
        exact hstopped
      · exact hall
      · change hasRoom _ (front c'.stdoutTakes _) = true
        rw [front_of_room hroom]
        exact hroom
      · change front c'.stdoutTakes _ = (publicFraming.cut c'.received).items.flatMap Frame.output
        rw [front_of_room hroom, shownOf_all hall]

theorem readSocket_shows (hshows : Shows ends handle) (t : AttachTurn) :
    Triple (Showing ends takes) (readSocket handle t) (Passed ends takes) fun _ _ => False := by
  intro c hc
  obtain ⟨goesOn, c', hrun, hpassed⟩ := readSocket_run hshows t hc
  rw [hrun]
  exact hpassed

/-- A step that does not touch the output. -/
theorem Showing.within {α : Type} {m : AttachProgram α} (h : Leaves (Showing ends takes) m) :
    Within (Showing ends takes) m (fun _ => Showing ends takes) (Shown ends takes) :=
  (Within.of_leaves h fun _ => id).weaken fun _ hc => hc.shown_eq

end loops

end AttachClient

/-- What a frame of the holder adds to the output of the session. -/
def HolderFrame.output (h : HolderFrame) : Bytes :=
  if h.messageType = .output then h.payload else []

section delivered

variable [SerdeJson] {sessionId minor : Nat}

end delivered

section samples

attribute [local instance] Json.serdeJson

end samples

end PersistShell

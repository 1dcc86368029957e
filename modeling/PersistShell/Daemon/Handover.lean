import PersistShell.Daemon.ProxyDelivery

/-! The stream of a client passes from `handle_client` to the proxy that it starts, and back.
Each of the two cuts the stream with an accumulator of its own: what one of them has read
beyond the place where the other takes over, the other does not see. Beside the two stands a
reader with one accumulator, whose frames go to the one that owns the connection. -/

namespace PersistShell

inductive Component where
  | handleClient
  | proxy
  deriving DecidableEq, Repr

/-- The frames that were acted on, and by which of the two. -/
abbrev Handled := List (Component × Frame)

/-- What the daemon makes of the last of the frames: whether it accepts the attach, and whether
it drops the connection with an error. -/
structure Decisions where
  accepts : Handled → Bool := fun _ => true
  fails : Handled → Bool := fun _ => false

inductive ClientEvent where
  /-- A read of the socket. -/
  | reads (chunk : Bytes)
  /-- The proxy returns, and not because of a frame of the client. -/
  | returns
  /-- The connection is dropped. -/
  | drops

def Frame.startsAttach (f : Frame) : Bool := f.msgType = .attach || f.msgType = .attachReadOnly

/-- The connection as the daemon has it. -/
structure ClientStream where
  /-- The accumulator of `handle_client`. -/
  acc : Bytes := []
  /-- The accumulator of the proxy, while one runs. -/
  proxy : Option Bytes := none
  closed : Bool := false
  handled : Handled := []

namespace ClientStream

variable (d : Decisions)

/-- `while let Ok(Some(frame)) = acc.try_read()`, from the start or from where the proxy
returned. -/
def handleClient : Nat → ClientStream → ClientStream
  | 0, c => c
  | fuel + 1, c =>
    match publicFraming.tryRead c.acc with
    | .ok (some (frame, acc)) =>
      let c := { c with acc, handled := c.handled ++ [(.handleClient, frame)] }
      if d.fails c.handled then { c with closed := true }
      -- The `break` leaves this loop, and not the one around it.
      else if frame.msgType = .detach then c
      else if frame.startsAttach ∧ d.accepts c.handled then { c with proxy := some [] }
      else handleClient fuel c
    | _ => c

/-- A frame takes a byte at least. -/
def resume (c : ClientStream) : ClientStream := handleClient d (c.acc.length + 1) c

/-- The loop of `read_public`. -/
def readPublic : Nat → Bytes → ClientStream → ClientStream
  | 0, _, c => c
  | fuel + 1, buf, c =>
    match publicFraming.tryRead buf with
    | .ok (some (frame, buf)) =>
      let c := { c with handled := c.handled ++ [(.proxy, frame)] }
      if d.fails c.handled then { c with closed := true }
      else if frame.endsAttach then resume d { c with proxy := none }
      else readPublic fuel buf c
    | .ok none => { c with proxy := some buf }
    | .error _ => { c with closed := true }

def step (c : ClientStream) : ClientEvent → ClientStream
  | .reads chunk =>
    if c.closed then c
    else match c.proxy with
    | none => resume d { c with acc := c.acc ++ chunk }
    | some buf => readPublic d ((buf ++ chunk).length + 1) (buf ++ chunk) c
  | .returns =>
    if c.closed then c
    else match c.proxy with
    | none => c
    | some _ => resume d { c with proxy := none }
  | .drops => { c with closed := true }

def run (events : List ClientEvent) : ClientStream := events.foldl (step d) {}

/-- Which of the two reads the socket. -/
def owner (c : ClientStream) : Component := if c.proxy.isSome then .proxy else .handleClient

/-- What the owner has read and not acted on. -/
def pending (c : ClientStream) : Bytes := c.proxy.getD c.acc

end ClientStream

/-- The connection with one accumulator. -/
structure SharedStream where
  buf : Bytes := []
  owner : Component := .handleClient
  closed : Bool := false
  handled : Handled := []

namespace SharedStream

variable (d : Decisions)

/-- Who owns the connection behind a frame. -/
def next (owner : Component) (frame : Frame) (handled : Handled) : Component :=
  match owner with
  | .handleClient => if frame.startsAttach ∧ d.accepts handled then .proxy else .handleClient
  | .proxy => if frame.endsAttach then .handleClient else .proxy

/-- The frame goes to the owner, and the connection to the next one. -/
def act (s : SharedStream) (frame : Frame) (buf : Bytes) : SharedStream :=
  let handled := s.handled ++ [(s.owner, frame)]
  if d.fails handled then { s with buf, handled, closed := true }
  else { s with buf, handled, owner := next d s.owner frame handled }

def drain : Nat → SharedStream → SharedStream
  | 0, s => s
  | fuel + 1, s =>
    match publicFraming.tryRead s.buf with
    | .ok (some (frame, buf)) =>
      if (s.act d frame buf).closed then s.act d frame buf else drain fuel (s.act d frame buf)
    | .ok none => s
    -- An error of the accumulator ends the proxy, while `handle_client` reads on.
    | .error _ => if s.owner = .proxy then { s with closed := true } else s

def step (s : SharedStream) : ClientEvent → SharedStream
  | .reads chunk =>
    if s.closed then s
    else drain d ((s.buf ++ chunk).length + 1) { s with buf := s.buf ++ chunk }
  | .returns => if s.closed then s else { s with owner := .handleClient }
  | .drops => { s with closed := true }

def run (events : List ClientEvent) : SharedStream := events.foldl (step d) {}

end SharedStream

namespace SharedStream

variable (d : Decisions)

/-- Where the connection passes on behind a frame, nothing was read beyond the frame. Behind a
`Detach` that goes to `handle_client` no whole frame was read. -/
def CleanAt (s : SharedStream) (frame : Frame) (buf : Bytes) : Prop :=
  let handled := s.handled ++ [(s.owner, frame)]
  d.fails handled = false →
    match s.owner with
    | .handleClient =>
      (frame.msgType = .detach → ∀ found, publicFraming.tryRead buf ≠ .ok (some found)) ∧
        (frame.startsAttach = true → d.accepts handled = true → buf = [])
    | .proxy => frame.endsAttach = true → buf = []

def DrainsClean : Nat → SharedStream → Prop
  | 0, _ => True
  | fuel + 1, s => ∀ frame buf, publicFraming.tryRead s.buf = .ok (some (frame, buf)) →
      s.CleanAt d frame buf ∧
        ((s.act d frame buf).closed = false → DrainsClean fuel (s.act d frame buf))

/-- No byte is behind the place where the connection passes on. -/
def CleanStep (s : SharedStream) : ClientEvent → Prop
  | .reads chunk => s.closed = false →
      DrainsClean d ((s.buf ++ chunk).length + 1) { s with buf := s.buf ++ chunk }
  | .returns => s.closed = false → s.owner = .proxy → s.buf = []
  | .drops => True

def NothingBehind (events : List ClientEvent) : Prop :=
  ∀ before event, before ++ [event] <+: events → (run d before).CleanStep d event

end SharedStream

/-- The two have acted on the frames that the one reader has read, and each of them on those
that come while it owns the connection; what is not acted on is with the owner. -/
structure Agree (c : ClientStream) (s : SharedStream) : Prop where
  handled : c.handled = s.handled
  closed : c.closed = s.closed
  owner : s.closed = false → c.owner = s.owner
  pending : s.closed = false → c.pending = s.buf

/-- The stream survives the attach boundaries, at every moment. -/
def Survives (d : Decisions) (events : List ClientEvent) : Prop :=
  ∀ before, before <+: events → Agree (ClientStream.run d before) (SharedStream.run d before)

/-- The two agree, and `handle_client` holds nothing back while a proxy runs. -/
structure Related (c : ClientStream) (s : SharedStream) : Prop extends Agree c s where
  nothing : s.closed = false → s.owner = .proxy → c.acc = []

section drain

variable {d : Decisions} {s : SharedStream} {c : ClientStream}

namespace SharedStream

theorem drain_none {fuel : Nat} (h : publicFraming.tryRead s.buf = .ok none) :
    drain d fuel s = s := by
  cases fuel with
  | zero => rfl
  | succ fuel => rw [drain, h]

theorem drain_waiting {fuel : Nat} (hwaits : ∀ found, publicFraming.tryRead s.buf ≠ .ok (some found))
    (howner : s.owner = .handleClient) : drain d fuel s = s := by
  cases fuel with
  | zero => rfl
  | succ fuel =>
    rw [drain]
    split
    · rename_i hread
      exact absurd hread (hwaits _)
    · rfl
    · rw [if_neg (by rw [howner]; decide)]

theorem act_fails {frame : Frame} {buf : Bytes}
    (h : d.fails (s.handled ++ [(s.owner, frame)]) = true) :
    s.act d frame buf =
      { s with buf, handled := s.handled ++ [(s.owner, frame)], closed := true } := by
  rw [act, if_pos h]

theorem act_goes {frame : Frame} {buf : Bytes}
    (h : ¬ d.fails (s.handled ++ [(s.owner, frame)]) = true) :
    s.act d frame buf =
      { s with
        buf, handled := s.handled ++ [(s.owner, frame)]
        owner := next d s.owner frame (s.handled ++ [(s.owner, frame)]) } := by
  rw [act, if_neg h]

theorem tryRead_nil : publicFraming.tryRead [] = .ok none := rfl

theorem drainsClean_none {fuel : Nat} (h : ∀ found, publicFraming.tryRead s.buf ≠ .ok (some found)) :
    DrainsClean d fuel s := by
  cases fuel with
  | zero => trivial
  | succ fuel => exact fun frame buf hread => absurd hread (h _)

theorem handled_act (frame : Frame) (buf : Bytes) :
    (s.act d frame buf).handled = s.handled ++ [(s.owner, frame)] := by
  unfold act
  dsimp only
  split <;> rfl

/-- What was acted on stays. -/
theorem handled_drain (fuel : Nat) (s : SharedStream) :
    s.handled <+: (drain d fuel s).handled := by
  induction fuel generalizing s with
  | zero => exact List.prefix_refl _
  | succ fuel ih =>
    rw [drain]
    split
    · rename_i frame buf hread
      have hact : s.handled <+: (s.act d frame buf).handled := by
        rw [handled_act]
        exact List.prefix_append _ _
      split
      · exact hact
      · exact hact.trans (ih _)
    · exact List.prefix_refl _
    · split <;> exact List.prefix_refl _

/-- A whole frame is acted on. -/
theorem drain_longer {fuel : Nat} {frame : Frame} {buf : Bytes} (hfuel : 0 < fuel)
    (hread : publicFraming.tryRead s.buf = .ok (some (frame, buf))) :
    s.handled.length < (drain d fuel s).handled.length := by
  obtain ⟨fuel, rfl⟩ : ∃ k, fuel = k + 1 := ⟨fuel - 1, by omega⟩
  have hact : (s.act d frame buf).handled.length = s.handled.length + 1 := by
    rw [handled_act, List.length_append, List.length_singleton]
  rw [drain, hread]
  dsimp only
  split
  · omega
  · have hle := (handled_drain (d := d) fuel (s.act d frame buf)).length_le
    omega

/-- The bytes of the frames that were acted on, and those that were not. -/
def weight (handled : Handled) (buf : Bytes) : Nat :=
  (handled.map fun h => publicFraming.size h.2).sum + buf.length

theorem weight_act {frame : Frame} {buf : Bytes}
    (hread : publicFraming.tryRead s.buf = .ok (some (frame, buf))) :
    weight (s.act d frame buf).handled (s.act d frame buf).buf = weight s.handled s.buf := by
  have hlength := Framing.length_of_item hread
  have hhandled : (s.act d frame buf).handled = s.handled ++ [(s.owner, frame)] ∧
      (s.act d frame buf).buf = buf := by
    unfold act
    dsimp only
    split <;> exact ⟨rfl, rfl⟩
  rw [hhandled.1, hhandled.2, weight, weight, List.map_append, List.sum_append]
  simp only [List.map_cons, List.map_nil, List.sum_cons, List.sum_nil]
  omega

/-- No byte is lost. -/
theorem weight_drain (fuel : Nat) (s : SharedStream) :
    weight (drain d fuel s).handled (drain d fuel s).buf = weight s.handled s.buf := by
  induction fuel generalizing s with
  | zero => rfl
  | succ fuel ih =>
    rw [drain]
    split
    · rename_i frame buf hread
      split
      · exact weight_act hread
      · exact (ih _).trans (weight_act hread)
    · rfl
    · split <;> rfl

end SharedStream

open SharedStream

/-- What the owner has is not acted on only where the one reader has nothing. -/
theorem Agree.nothing_left {fuel : Nat} (h : Agree c (drain d fuel s))
    (hhandled : c.handled = s.handled) (hopen : c.closed = false) (hpending : c.pending = []) :
    s.buf = [] := by
  have hclosed : (drain d fuel s).closed = false := h.closed.symm.trans hopen
  have hrest : (drain d fuel s).buf = [] := (h.pending hclosed).symm.trans hpending
  have hweight := weight_drain (d := d) fuel s
  rw [← h.handled, hhandled, hrest, weight, weight] at hweight
  apply List.length_eq_zero_iff.mp
  rw [List.length_nil] at hweight
  omega

/-- Nothing is behind, and the connection has passed on. -/
theorem related_drain_nil {fuel : Nat} (hbuf : s.buf = []) (h : Related c s) :
    Related c (drain d fuel s) := by
  rw [drain_none (by rw [hbuf]; rfl)]
  exact h

theorem related_handler (handled : Handled) (buf : Bytes) :
    Related { acc := buf, handled } { buf, handled } :=
  ⟨⟨rfl, rfl, fun _ => rfl, fun _ => rfl⟩, nofun⟩

theorem related_proxy (handled : Handled) (buf : Bytes) :
    Related { proxy := some buf, handled } { buf, owner := .proxy, handled } :=
  ⟨⟨rfl, rfl, fun _ => rfl, fun _ => rfl⟩, fun _ _ => rfl⟩

theorem related_closed {c : ClientStream} {s : SharedStream} (hhandled : c.handled = s.handled)
    (hc : c.closed = true) (hs : s.closed = true) : Related c s := by
  have habsurd : ∀ {P : Prop}, s.closed = false → P := by
    intro P hopen
    rw [hs] at hopen
    cases hopen
  exact ⟨⟨hhandled, hc.trans hs.symm, habsurd, habsurd⟩, habsurd⟩

theorem forall_item {frame : Frame} {rest : Bytes} {P : Frame → Bytes → Prop} :
    (∀ frame' buf', (Except.ok (some (frame, rest)) : Except PersistError _) =
      .ok (some (frame', buf')) → P frame' buf') ↔ P frame rest := by
  constructor
  · exact fun h => h frame rest rfl
  · rintro h frame' buf' heq
    cases heq
    exact h

/-- The loop of `handle_client` does what the one reader does when nothing is left behind, and
only then. -/
theorem handleClient_drain {fuel : Nat} (handled : Handled) {buf : Bytes} (hfuel : buf.length < fuel) :
    (DrainsClean d fuel { buf, handled } →
      Related (ClientStream.handleClient d fuel { acc := buf, handled })
        (drain d fuel { buf, handled })) ∧
    (Agree (ClientStream.handleClient d fuel { acc := buf, handled })
        (drain d fuel { buf, handled }) → DrainsClean d fuel { buf, handled }) := by
  induction fuel generalizing handled buf with
  | zero => exact absurd hfuel (Nat.not_lt_zero _)
  | succ fuel ih =>
    rw [ClientStream.handleClient, drain, DrainsClean]
    dsimp only
    cases hread : publicFraming.tryRead buf with
    | error e => exact ⟨fun _ => related_handler handled buf, fun _ => nofun⟩
    | ok found =>
      rcases found with _ | ⟨frame, rest⟩
      · exact ⟨fun _ => related_handler handled buf, fun _ => nofun⟩
      have hshort : rest.length < fuel := by
        have hlt := Framing.length_lt_of_item hread
        omega
      rw [forall_item]
      dsimp only
      by_cases hfails : d.fails (handled ++ [(.handleClient, frame)]) = true
      · rw [act_fails (s := { buf, handled }) hfails, if_pos hfails, if_pos rfl]
        refine ⟨fun _ => related_closed rfl rfl rfl, fun _ => ⟨fun hgoes => ?_, nofun⟩⟩
        rw [hfails] at hgoes
        cases hgoes
      rw [act_goes (s := { buf, handled }) hfails, if_neg hfails]
      rw [if_neg Bool.false_ne_true]
      dsimp only [CleanAt, next]
      by_cases hdetach : frame.msgType = .detach
      · have hno : ¬ (frame.startsAttach = true ∧ d.accepts (handled ++ [(.handleClient, frame)]) = true) := by
          rw [Frame.startsAttach, hdetach]
          exact fun h => nomatch h.1
        rw [if_pos hdetach, if_neg hno]
        constructor
        · intro hclean
          have hwaits := (hclean.1 (Bool.eq_false_iff.mpr hfails)).1 hdetach
          rw [drain_waiting hwaits rfl]
          exact related_handler _ rest
        · intro hagree
          have hwaits : ∀ found, publicFraming.tryRead rest ≠ .ok (some found) := by
            rintro ⟨later, rest'⟩ hlater
            have hlonger := drain_longer (d := d)
              (s := { buf := rest, handled := handled ++ [(.handleClient, frame)] })
              (Nat.zero_lt_of_lt hshort) hlater
            rw [← hagree.handled] at hlonger
            exact absurd hlonger (Nat.lt_irrefl _)
          exact ⟨fun _ => ⟨fun _ => hwaits, fun h h' => absurd ⟨h, h'⟩ hno⟩,
            fun _ => drainsClean_none hwaits⟩
      · rw [if_neg hdetach]
        by_cases hstarts : frame.startsAttach = true ∧
            d.accepts (handled ++ [(.handleClient, frame)]) = true
        · rw [if_pos hstarts, if_pos hstarts]
          constructor
          · intro hclean
            obtain rfl := (hclean.1 (Bool.eq_false_iff.mpr hfails)).2 hstarts.1 hstarts.2
            exact related_drain_nil rfl (related_proxy _ [])
          · intro hagree
            obtain rfl := hagree.nothing_left rfl rfl rfl
            exact ⟨fun _ => ⟨fun h => absurd h hdetach, fun _ _ => rfl⟩,
              fun _ => drainsClean_none (by rw [tryRead_nil]; exact nofun)⟩
        · rw [if_neg hstarts, if_neg hstarts]
          obtain ⟨hforth, hback⟩ := ih (handled ++ [(.handleClient, frame)]) hshort
          refine ⟨fun hclean => hforth (hclean.2 rfl), fun hagree => ⟨fun _ => ?_, fun _ => hback hagree⟩⟩
          exact ⟨fun h => absurd h hdetach, fun h h' => absurd ⟨h, h'⟩ hstarts⟩

/-- So does the loop of the proxy, which goes on in the loop of `handle_client`. -/
theorem readPublic_drain {fuel : Nat} (handled : Handled) (proxy : Option Bytes) {buf : Bytes}
    (hfuel : buf.length < fuel) :
    (DrainsClean d fuel { buf, owner := .proxy, handled } →
      Related (ClientStream.readPublic d fuel buf { proxy, handled })
        (drain d fuel { buf, owner := .proxy, handled })) ∧
    (Agree (ClientStream.readPublic d fuel buf { proxy, handled })
        (drain d fuel { buf, owner := .proxy, handled }) →
      DrainsClean d fuel { buf, owner := .proxy, handled }) := by
  induction fuel generalizing handled buf with
  | zero => exact absurd hfuel (Nat.not_lt_zero _)
  | succ fuel ih =>
    rw [ClientStream.readPublic, drain, DrainsClean]
    dsimp only
    cases hread : publicFraming.tryRead buf with
    | error e =>
      dsimp only
      rw [if_pos rfl]
      exact ⟨fun _ => related_closed rfl rfl rfl, fun _ => nofun⟩
    | ok found =>
      rcases found with _ | ⟨frame, rest⟩
      · exact ⟨fun _ => related_proxy handled buf, fun _ => nofun⟩
      have hshort : rest.length < fuel := by
        have hlt := Framing.length_lt_of_item hread
        omega
      rw [forall_item]
      dsimp only
      by_cases hfails : d.fails (handled ++ [(.proxy, frame)]) = true
      · rw [act_fails (s := { buf, owner := .proxy, handled }) hfails, if_pos hfails, if_pos rfl]
        refine ⟨fun _ => related_closed rfl rfl rfl, fun _ => ⟨fun hgoes => ?_, nofun⟩⟩
        rw [hfails] at hgoes
        cases hgoes
      rw [act_goes (s := { buf, owner := .proxy, handled }) hfails, if_neg hfails]
      rw [if_neg Bool.false_ne_true]
      dsimp only [CleanAt, next]
      by_cases hends : frame.endsAttach = true
      · rw [if_pos hends, if_pos hends]
        constructor
        · intro hclean
          obtain rfl := hclean.1 (Bool.eq_false_iff.mpr hfails) hends
          exact related_drain_nil rfl (related_handler _ [])
        · intro hagree
          obtain rfl := hagree.nothing_left rfl rfl rfl
          exact ⟨fun _ _ => rfl, fun _ => drainsClean_none (by rw [tryRead_nil]; exact nofun)⟩
      · rw [if_neg hends, if_neg hends]
        obtain ⟨hforth, hback⟩ := ih (handled ++ [(.proxy, frame)]) hshort
        refine ⟨fun hclean => hforth (hclean.2 rfl), fun hagree => ⟨fun _ => ?_, fun _ => hback hagree⟩⟩
        exact fun h => absurd h hends

end drain

section steps

variable {d : Decisions} {s : SharedStream} {c : ClientStream}

theorem Related.at_handler (h : Related c s) (hopen : s.closed = false)
    (howner : s.owner = .handleClient) :
    c = { acc := s.buf, handled := s.handled } ∧ s = { buf := s.buf, handled := s.handled } := by
  have hc := h.owner hopen
  have hpending := h.pending hopen
  have hclosed := h.closed
  have hhandled := h.handled
  obtain ⟨acc, proxy, closed, handled⟩ := c
  obtain ⟨buf, owner, closed', handled'⟩ := s
  cases hopen
  cases howner
  cases hclosed
  cases hhandled
  cases proxy with
  | none =>
    cases hpending
    exact ⟨rfl, rfl⟩
  | some pending => cases hc

theorem Related.at_proxy (h : Related c s) (hopen : s.closed = false) (howner : s.owner = .proxy) :
    c = { proxy := some s.buf, handled := s.handled } ∧
      s = { buf := s.buf, owner := .proxy, handled := s.handled } := by
  have hc := h.owner hopen
  have hpending := h.pending hopen
  have hclosed := h.closed
  have hhandled := h.handled
  have hnothing := h.nothing hopen howner
  obtain ⟨acc, proxy, closed, handled⟩ := c
  obtain ⟨buf, owner, closed', handled'⟩ := s
  cases hopen
  cases howner
  cases hclosed
  cases hhandled
  cases hnothing
  cases proxy with
  | none => cases hc
  | some pending =>
    cases hpending
    exact ⟨rfl, rfl⟩

/-- A step keeps the two together exactly when nothing is left behind in it. -/
theorem step_related (h : Related c s) (event : ClientEvent) :
    (s.CleanStep d event → Related (c.step d event) (s.step d event)) ∧
      (Agree (c.step d event) (s.step d event) → s.CleanStep d event) := by
  cases hclosed : s.closed with
  | true =>
    have hc : c.closed = true := h.closed.trans hclosed
    have hopen : ∀ {P : Prop}, s.closed = false → P := by
      intro P hopen
      rw [hclosed] at hopen
      cases hopen
    cases event with
    | reads chunk =>
      rw [ClientStream.step, SharedStream.step, if_pos hc, if_pos hclosed]
      exact ⟨fun _ => h, fun _ => hopen⟩
    | returns =>
      rw [ClientStream.step, SharedStream.step, if_pos hc, if_pos hclosed]
      exact ⟨fun _ => h, fun _ => hopen⟩
    | drops => exact ⟨fun _ => related_closed h.handled rfl rfl, fun _ => trivial⟩
  | false =>
    cases howner : s.owner with
    | handleClient =>
      obtain ⟨hc, hs⟩ := h.at_handler hclosed howner
      rw [hc, hs]
      cases event with
      | reads chunk =>
        have hstep := handleClient_drain (d := d) s.handled (Nat.lt_succ_self (s.buf ++ chunk).length)
        exact ⟨fun hclean => hstep.1 (hclean rfl), fun hagree _ => hstep.2 hagree⟩
      | returns => exact ⟨fun _ => related_handler _ _, fun _ _ => nofun⟩
      | drops => exact ⟨fun _ => related_closed rfl rfl rfl, fun _ => trivial⟩
    | proxy =>
      obtain ⟨hc, hs⟩ := h.at_proxy hclosed howner
      rw [hc, hs]
      cases event with
      | reads chunk =>
        have hstep := readPublic_drain (d := d) s.handled (some s.buf)
          (Nat.lt_succ_self (s.buf ++ chunk).length)
        exact ⟨fun hclean => hstep.1 (hclean rfl), fun hagree _ => hstep.2 hagree⟩
      | returns =>
        constructor
        · intro hclean
          have hnil : s.buf = [] := hclean rfl rfl
          rw [hnil]
          exact related_handler _ []
        · intro hagree _ _
          exact (hagree.pending rfl).symm
      | drops => exact ⟨fun _ => related_closed rfl rfl rfl, fun _ => trivial⟩

end steps

/-- The bytes that were read. -/
def received (events : List ClientEvent) : Bytes :=
  events.flatMap fun
    | .reads chunk => chunk
    | _ => []

section frames

variable {d : Decisions}

theorem ClientStream.run_concat (events : List ClientEvent) (event : ClientEvent) :
    ClientStream.run d (events ++ [event]) = (ClientStream.run d events).step d event := by
  rw [ClientStream.run, List.foldl_append]
  rfl

theorem SharedStream.run_concat (events : List ClientEvent) (event : ClientEvent) :
    SharedStream.run d (events ++ [event]) = (SharedStream.run d events).step d event := by
  rw [SharedStream.run, List.foldl_append]
  rfl

open SharedStream

/-- The one reader acts on the frames that its bytes hold, up to where the connection ends. -/
theorem drain_cut {fuel : Nat} {s : SharedStream} (hfuel : s.buf.length < fuel)
    (hopen : s.closed = false) :
    ((drain d fuel s).closed = false →
      (drain d fuel s).handled.map Prod.snd =
          s.handled.map Prod.snd ++ (publicFraming.cut s.buf).items ∧
        (drain d fuel s).buf = (publicFraming.cut s.buf).rest) ∧
      (drain d fuel s).handled.map Prod.snd <+:
        s.handled.map Prod.snd ++ (publicFraming.cut s.buf).items := by
  induction fuel generalizing s with
  | zero => exact absurd hfuel (Nat.not_lt_zero _)
  | succ fuel ih =>
    rw [drain]
    cases hread : publicFraming.tryRead s.buf with
    | error e =>
      rw [Framing.cut_error hread, List.append_nil]
      dsimp only
      split
      · exact ⟨nofun, List.prefix_refl _⟩
      · exact ⟨fun _ => ⟨rfl, rfl⟩, List.prefix_refl _⟩
    | ok found =>
      rcases found with _ | ⟨frame, rest⟩
      · rw [Framing.cut_none hread, List.append_nil]
        exact ⟨fun _ => ⟨rfl, rfl⟩, List.prefix_refl _⟩
      have hframes : (s.act d frame rest).handled.map Prod.snd =
          s.handled.map Prod.snd ++ [frame] := by
        rw [handled_act, List.map_append]
        rfl
      have hitems : s.handled.map Prod.snd ++ (publicFraming.cut s.buf).items =
          (s.act d frame rest).handled.map Prod.snd ++ (publicFraming.cut rest).items := by
        rw [Framing.cut_item hread, hframes, List.append_assoc]
        rfl
      rw [hitems, Framing.cut_item hread]
      dsimp only
      by_cases hclosed : (s.act d frame rest).closed = true
      · rw [if_pos hclosed, hclosed]
        exact ⟨nofun, List.prefix_append _ _⟩
      · rw [if_neg hclosed]
        have hbuf : (s.act d frame rest).buf = rest := by
          unfold act
          dsimp only
          split <;> rfl
        have hshort : (s.act d frame rest).buf.length < fuel := by
          have hlt := Framing.length_lt_of_item hread
          rw [hbuf]
          omega
        have hrest := ih hshort (Bool.eq_false_iff.mpr hclosed)
        rw [hbuf] at hrest
        exact hrest

/-- **The one reader acts on the frames of the stream,** each once and in order, and has left
what is no whole frame yet. -/
theorem frames_run (events : List ClientEvent) :
    ((SharedStream.run d events).closed = false →
      (SharedStream.run d events).handled.map Prod.snd =
          (publicFraming.cut (received events)).items ∧
        (SharedStream.run d events).buf = (publicFraming.cut (received events)).rest) ∧
      (SharedStream.run d events).handled.map Prod.snd <+:
        (publicFraming.cut (received events)).items := by
  induction events using List.reverseRecOn with
  | nil => exact ⟨fun _ => ⟨rfl, rfl⟩, List.prefix_refl _⟩
  | append_singleton events event ih =>
    obtain ⟨hopen, hearlier⟩ := ih
    rw [SharedStream.run_concat]
    have hreceived : received (events ++ [event]) = received events ++ received [event] := by
      rw [received, List.flatMap_append]
      rfl
    have hlater : (SharedStream.run d events).handled.map Prod.snd <+:
        (publicFraming.cut (received (events ++ [event]))).items := by
      rw [hreceived]
      exact hearlier.trans (Framing.items_mono _ _)
    cases event with
    | reads chunk =>
      rw [SharedStream.step]
      split
      · rename_i hclosed
        exact ⟨fun h => (by rw [hclosed] at h; cases h), hlater⟩
      · rename_i hclosed
        obtain ⟨hitems, hrest⟩ := hopen (Bool.eq_false_iff.mpr hclosed)
        have hdrain := drain_cut (d := d)
          (s := { SharedStream.run d events with buf := (SharedStream.run d events).buf ++ chunk })
          (Nat.lt_succ_self _) (Bool.eq_false_iff.mpr hclosed)
        have hcut : publicFraming.cut (received (events ++ [.reads chunk])) =
            (publicFraming.cut ((SharedStream.run d events).buf ++ chunk)).after
              ((SharedStream.run d events).handled.map Prod.snd) := by
          rw [hreceived, Framing.cut_append_rest, hitems, hrest]
          change (publicFraming.cut (_ ++ (chunk ++ []))).after _ = _
          rw [List.append_nil]
        rw [hcut]
        exact hdrain
    | returns =>
      rw [SharedStream.step]
      have hnone : received (events ++ [.returns]) = received events :=
        hreceived.trans (List.append_nil _)
      rw [hnone]
      split
      · exact ⟨hopen, hearlier⟩
      · exact ⟨hopen, hearlier⟩
    | drops => exact ⟨nofun, hlater⟩

end frames

section runs

variable {d : Decisions}

theorem related_of_nothingBehind {events : List ClientEvent}
    (h : SharedStream.NothingBehind d events) :
    Related (ClientStream.run d events) (SharedStream.run d events) := by
  induction events using List.reverseRecOn with
  | nil => exact related_handler [] []
  | append_singleton events event ih =>
    have hearlier : SharedStream.NothingBehind d events := fun before event' hbefore =>
      h before event' (hbefore.trans (List.prefix_append _ _))
    rw [ClientStream.run_concat, SharedStream.run_concat]
    exact (step_related (ih hearlier) event).1 (h events event (List.prefix_refl _))

theorem nothingBehind_of_survives {events : List ClientEvent} (h : Survives d events) :
    SharedStream.NothingBehind d events := by
  induction events using List.reverseRecOn with
  | nil =>
    intro before event hearlier
    have hnil := List.eq_nil_of_prefix_nil hearlier
    exact absurd hnil (by simp)
  | append_singleton events event ih =>
    have hearlier : SharedStream.NothingBehind d events := ih fun before hbefore =>
      h before (hbefore.trans (List.prefix_append _ _))
    intro before event' hbefore
    rcases List.prefix_concat_iff.mp hbefore with heq | hbefore
    · obtain ⟨rfl, hevent⟩ := List.append_inj' heq rfl
      cases hevent
      have hagree := h (before ++ [event]) (List.prefix_refl _)
      rw [ClientStream.run_concat, SharedStream.run_concat] at hagree
      exact (step_related (related_of_nothingBehind hearlier) event).2 hagree
    · exact hearlier before event' hbefore

/-- **The client byte stream survives attach boundaries** exactly when no read reaches beyond
one. -/
theorem survives_iff (d : Decisions) (events : List ClientEvent) :
    Survives d events ↔ SharedStream.NothingBehind d events := by
  constructor
  · exact nothingBehind_of_survives
  · intro h before hbefore
    apply Related.toAgree
    apply related_of_nothingBehind
    exact fun earlier event hearlier => h earlier event (hearlier.trans hbefore)

end runs

section proxy

open Program

variable {d : Decisions}

namespace Proxy

/-- A frame that is handled leaves the accumulator as it is, and ends the attach or not. -/
theorem handlePublic_goesOn (frame : Frame) (a : FrameAccumulator) :
    Within (fun p : Proxy => p.publicFrames = a) (handlePublic frame)
      (fun goOn p => goOn = !frame.endsAttach ∧ p.publicFrames = a) fun _ => True := by
  have hholder : ∀ kind payload, Within (fun p : Proxy => p.publicFrames = a)
      (pushHolder kind payload) (fun _ p => p.publicFrames = a) fun _ => True :=
    fun kind payload => within_pushHolder (fun _ h => h) fun _ _ => trivial
  have hpublic : ∀ kind payload, Within (fun p : Proxy => p.publicFrames = a)
      (pushPublic .publicRead kind payload) (fun _ p => p.publicFrames = a) fun _ => True :=
    fun kind payload => within_pushPublic (fun _ h _ => h) fun _ _ _ => trivial
  have hstays : frame.endsAttach = false → Within (fun p : Proxy => p.publicFrames = a)
      (pure true : ProxyProgram Bool)
      (fun goOn p => goOn = !frame.endsAttach ∧ p.publicFrames = a) fun _ => True := by
    intro hends
    rw [hends]
    exact .pure fun _ h => ⟨rfl, h⟩
  have hleaves : frame.endsAttach = true → Within (fun p : Proxy => p.publicFrames = a)
      (do update (fun p : Proxy => { p with detached := true }); return false : ProxyProgram Bool)
      (fun goOn p => goOn = !frame.endsAttach ∧ p.publicFrames = a) fun _ => True := by
    intro hends
    rw [hends]
    refine Within.bind (Q := fun _ p => p.publicFrames = a) (.update fun _ h => h) fun _ => ?_
    exact .pure fun _ h => ⟨rfl, h⟩
  unfold handlePublic
  have hwriter : Within (fun p : Proxy => p.publicFrames = a) (Program.read (·.writer) : ProxyProgram Bool)
      (fun _ p => p.publicFrames = a) fun _ => True := Within.read fun _ h => h
  refine hwriter.bind fun writer => ?_
  have hkind : ∀ kind : MessageType, frame.msgType = kind →
      frame.endsAttach = (kind = .detach || kind = .close) := by
    rintro kind rfl
    rfl
  split
  · rename_i hstdin
    refine Within.bind (Q := fun _ p => p.publicFrames = a) (.update fun _ h => h) fun _ => ?_
    exact (hholder _ _).bind fun _ => hstays (hkind _ hstdin)
  · rename_i hresize
    split
    · exact hstays (hkind _ hresize)
    · split
      · exact hstays (hkind _ hresize)
      · exact (hholder _ _).bind fun _ => hstays (hkind _ hresize)
  · rename_i hsignal
    split
    · exact hstays (hkind _ hsignal)
    · exact (hholder _ _).bind fun _ => (hpublic _ _).bind fun _ => hstays (hkind _ hsignal)
  · rename_i hdetach
    exact hleaves (hkind _ hdetach)
  · rename_i hclose
    exact hleaves (hkind _ hclose)
  · rename_i hping
    exact (hpublic _ _).bind fun _ => hstays (hkind _ hping)
  · rename_i hdetach hclose _ _ _ _
    apply hstays
    rw [Frame.endsAttach, decide_eq_false hdetach, decide_eq_false hclose]
    rfl

theorem handlePublicFrames_goesOn (frames : List Frame) (a : FrameAccumulator) :
    Within (fun p : Proxy => p.publicFrames = a) (handlePublicFrames frames)
      (fun goOn p => goOn = !frames.any Frame.endsAttach ∧ p.publicFrames = a) fun _ => True := by
  induction frames with
  | nil => exact .pure fun _ h => ⟨rfl, h⟩
  | cons frame frames ih =>
    refine (handlePublic_goesOn frame a).bind fun goOn p hp => ?_
    obtain ⟨hgoOn, hp⟩ := hp
    rw [List.any_cons]
    cases hends : frame.endsAttach with
    | true =>
      rw [hends] at hgoOn
      subst hgoOn
      exact ⟨rfl, hp⟩
    | false =>
      rw [hends] at hgoOn
      subst hgoOn
      exact ih p hp

end Proxy

namespace ClientStream

/-- Without a frame that ends the attach the proxy keeps what is left. -/
theorem readPublic_stays {fuel : Nat} {buf : Bytes} {c : ClientStream} (hfuel : buf.length < fuel)
    (hgoes : ∀ handled, d.fails handled = false)
    (hends : (publicFraming.cut buf).items.any Frame.endsAttach = false)
    (hstopped : (publicFraming.cut buf).stopped = none) :
    (readPublic d fuel buf c).proxy = some (publicFraming.cut buf).rest := by
  induction fuel generalizing buf c with
  | zero => exact absurd hfuel (Nat.not_lt_zero _)
  | succ fuel ih =>
    rw [readPublic]
    cases hread : publicFraming.tryRead buf with
    | error e =>
      rw [Framing.cut_error hread] at hstopped
      cases hstopped
    | ok found =>
      rcases found with _ | ⟨frame, rest⟩
      · rw [Framing.cut_none hread]
      rw [Framing.cut_item hread] at hends hstopped ⊢
      obtain ⟨hframe, hlater⟩ := Bool.or_eq_false_iff.mp hends
      have hlt := Framing.length_lt_of_item hread
      dsimp only
      rw [hgoes, if_neg Bool.false_ne_true, hframe, if_neg Bool.false_ne_true]
      exact ih (by omega) hlater hstopped

/-- A frame that ends the attach gives the connection back. -/
theorem readPublic_leaves {fuel : Nat} {buf : Bytes} {c : ClientStream} (hfuel : buf.length < fuel)
    (hgoes : ∀ handled, d.fails handled = false) (hacc : c.acc = [])
    (hends : (publicFraming.cut buf).items.any Frame.endsAttach = true) :
    (readPublic d fuel buf c).proxy = none := by
  induction fuel generalizing buf c with
  | zero => exact absurd hfuel (Nat.not_lt_zero _)
  | succ fuel ih =>
    rw [readPublic]
    cases hread : publicFraming.tryRead buf with
    | error e =>
      rw [Framing.cut_error hread] at hends
      cases hends
    | ok found =>
      rcases found with _ | ⟨frame, rest⟩
      · rw [Framing.cut_none hread] at hends
        cases hends
      rw [Framing.cut_item hread] at hends
      have hlt := Framing.length_lt_of_item hread
      dsimp only
      rw [hgoes, if_neg Bool.false_ne_true]
      by_cases hframe : frame.endsAttach = true
      · rw [if_pos hframe]
        obtain ⟨acc, proxy, closed, handled⟩ := c
        cases hacc
        rfl
      · rw [if_neg hframe]
        exact ih (by omega) hacc ((Bool.or_eq_true_iff.mp hends).resolve_left hframe)

end ClientStream

/-- What a read of the proxy leaves in its accumulator, and whether it gives the connection
back, is as it is here. -/
theorem readPublic_agrees {answer : ReadAnswer} {bytes : Bytes} {client : Inlet} {p p' : Proxy}
    {goOn : Bool} {handled : Handled} (hread : p.client.read answer = .ok (bytes, client))
    (hbytes : bytes ≠ []) (hrun : Proxy.readPublic answer p = (.ok goOn, p'))
    (hgoes : ∀ handled, d.fails handled = false) :
    (ClientStream.readPublic d ((p.publicFrames.buf ++ bytes).length + 1)
        (p.publicFrames.buf ++ bytes) { proxy := some p.publicFrames.buf, handled }).proxy =
      if goOn then some p'.publicFrames.buf else none := by
  have hfuel := Nat.lt_succ_self (p.publicFrames.buf ++ bytes).length
  have hclient : (Program.read (·.client) : ProxyProgram Inlet) p = (.ok p.client, p) := rfl
  unfold Proxy.readPublic at hrun
  rw [bind_ok hclient, hread] at hrun
  change ((if bytes = [] then pure false else Proxy.readPublic.takePublic bytes :
    ProxyProgram Bool) { p with client }) = _ at hrun
  rw [if_neg hbytes] at hrun
  unfold Proxy.readPublic.takePublic at hrun
  obtain ⟨a, q, hframes, hrun⟩ := bind_returns.mp hrun
  cases hframes
  obtain ⟨u, q, hupdate, hrun⟩ := bind_returns.mp hrun
  cases hupdate
  obtain ⟨goes, q, hhandled, hrun⟩ := bind_returns.mp hrun
  obtain ⟨hgoOn, hbuf⟩ := (Proxy.handlePublicFrames_goesOn _ _).run hhandled rfl
  change goes = !(publicFraming.cut (p.publicFrames.buf ++ bytes)).items.any _ at hgoOn
  cases hends : (publicFraming.cut (p.publicFrames.buf ++ bytes)).items.any Frame.endsAttach with
  | true =>
    rw [hends] at hgoOn
    subst hgoOn
    cases hrun
    exact ClientStream.readPublic_leaves hfuel hgoes rfl hends
  | false =>
    rw [hends] at hgoOn
    subst hgoOn
    rw [if_pos (by rfl)] at hrun
    dsimp only [FrameAccumulator.feed] at hrun
    cases hstopped : (publicFraming.cut (p.publicFrames.buf ++ bytes)).stopped with
    | some error =>
      rw [hstopped] at hrun
      cases hrun
    | none =>
      rw [hstopped] at hrun
      cases hrun
      rw [ClientStream.readPublic_stays hfuel hgoes hends hstopped, if_pos rfl, hbuf]
      rfl

end proxy

section samples

def attachFrame : Frame := { msgType := .attach, payload := putU32 1 }

/-- The first input comes in one read with the request to attach. -/
def typedAhead : List ClientEvent := [.reads (attachFrame.bytes ++ typed.bytes)]

/-- **The proxy does not get the input.** -/
theorem input_not_handed_over : ¬ Survives {} typedAhead := by
  intro h
  have hagree := (h typedAhead (List.prefix_refl _)).handled
  revert hagree
  decide +kernel

end samples

end PersistShell

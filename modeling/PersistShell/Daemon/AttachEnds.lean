import PersistShell.Daemon.ProxyDelivery
import PersistShell.Ipc.PublicChunks

/-! Whether a client learns that its attach is over. When the proxy returns, `handle_client` goes
on with the connection, and answers what the loop of the client sends, `Stdin` and `Resize`
frames, with nothing. Hence what has been written to the client by then must end its loop. -/

namespace PersistShell
open Program

/-- The frames on which the loop of the client returns. -/
def Frame.endsClient (f : Frame) : Bool :=
  f.msgType = .sessionExited || f.msgType = .writeRevoked || f.endsAttach

/-- The frames of the holder that the client is told of with such a frame. -/
def HolderFrame.endsClient (f : HolderFrame) : Bool := f.isExit || f.messageType = .writeRevoked

namespace Proxy

/-- The loop of the client ends on what has been written to it. -/
def ClientTold (p : Proxy) : Prop :=
  (publicFraming.cut p.toPublic.written).items.any Frame.endsClient = true

instance (p : Proxy) : Decidable p.ClientTold := inferInstanceAs (Decidable (_ = _))

/-- The holder has said that the attach is over. -/
def holderTold (p : Proxy) : Bool := p.received.any HolderFrame.endsClient

section

variable [SerdeJson]

/-- In this pass the client is found to have left: its socket has failed, or what is read is the
end of its stream, or brings a `Detach` or `Close` frame. -/
def ClientGone (t : PassTurn) (p : Proxy) : Prop :=
  ∃ client holder timer polled, wait t p = (.ok (some (client, holder, timer)), polled) ∧
    (client.failed = true ∨ client.readable = true ∧ polled.ClientLeaves t.clientRead)

def LoopLeft : List PassTurn → Proxy → Prop
  | [], _ => False
  | t :: turns, p => ClientGone t p ∨ ∃ p', pass t p = (.ok none, p') ∧ LoopLeft turns p'

/-- The client leaves in one of the passes. -/
def RunLeft (turns : List PassTurn) (p : Proxy) : Prop :=
  ∃ p', fill p = (.ok (), p') ∧ LoopLeft turns p'

/-- Before a pass: the holder ends its stream, or the connection fails with no exit to be read,
only after the holder has said that the attach is over. And the socket of the client refuses no
write of the last flush, unless the client has been told. -/
structure Heralds (t : PassTurn) (client holder : Readiness) (polled : Proxy) : Prop where
  ending : holder.readable = true →
    (polled.holder.read t.holderRead).toOption.map Prod.fst = some [] → polled.holderTold = true
  failure : holder.failed = true →
    (holder.readable = true → (polled.framesHeard t.holderRead).any HolderFrame.isExit = false) →
      polled.holderTold = true ∧ (polled.toPublic.hasData = true → polled.ClientTold ∨
        client.writable = true ∧ ∀ source, WriteAnswer.fault source ∉ t.clientWrites)
  exit : holder.readable = true →
    (polled.framesHeard t.holderRead).any HolderFrame.isExit = true →
      polled.holderTold = true ∨ ∀ source, WriteAnswer.fault source ∉ t.lastWrites

def LoopHeralds : List PassTurn → Proxy → Prop
  | [], _ => True
  | t :: turns, p =>
    (∀ client holder timer polled, wait t p = (.ok (some (client, holder, timer)), polled) →
      Heralds t client holder polled) ∧
    ∀ p', pass t p = (.ok none, p') → LoopHeralds turns p'

def RunHeralds (turns : List PassTurn) (p : Proxy) : Prop :=
  ∀ p', fill p = (.ok (), p') → LoopHeralds turns p'

end

section grows

/-- `w` has been written to the client. -/
def Sent (w : Bytes) (p : Proxy) : Prop := w <+: p.toPublic.written

variable {w : Bytes}

theorem sent_pushPublic (site : PushSite) (kind : MessageType) (payload : Bytes) :
    Leaves (Sent w) (pushPublic site kind payload) := by
  intro p hp
  have hpush : Within (Sent w) (pushPublic site kind payload) (fun _ => Sent w) (Sent w) :=
    within_pushPublic (fun _ h _ => h) fun _ h _ => h
  exact hpush.leaves (fun _ _ => id) hp

theorem sent_pushHolder (kind : HolderMessageType) (payload : Bytes) :
    Leaves (Sent w) (pushHolder kind payload) := by
  intro p hp
  have hpush : Within (Sent w) (pushHolder kind payload) (fun _ => Sent w) (Sent w) :=
    within_pushHolder (fun _ h => h) fun _ h => h
  exact hpush.leaves (fun _ _ => id) hp

theorem sent_flushPublic (answers : List WriteAnswer) : Leaves (Sent w) (flushPublic answers) := by
  intro p hp
  have hflush := within_flushPublic (P := Sent w)
    (fun p hp front count _ _ => hp.trans (List.prefix_append _ _)) answers
  exact hflush.leaves (fun _ _ => id) hp

theorem sent_flushHolder (answers : List WriteAnswer) : Leaves (Sent w) (flushHolder answers) := by
  intro p hp
  have hflush := within_flushHolder (P := Sent w) (fun _ hp _ _ _ _ => hp) answers
  exact hflush.leaves (fun _ _ => id) hp

theorem sent_fillLoop (fuel : Nat) : Leaves (Sent w) (fillLoop fuel) := by
  induction fuel with
  | zero => exact Leaves.pure _
  | succ fuel ih =>
    refine Leaves.bind (Leaves.read _) fun history => ?_
    split
    · exact Leaves.pure _
    refine Leaves.bind (Leaves.read _) fun toPublic => ?_
    dsimp only
    split
    · exact Leaves.pure _
    · refine Leaves.bind (sent_pushPublic _ _ _) fun _ => ?_
      exact Leaves.bind (Leaves.update fun _ h => h) fun _ => ih

theorem sent_handlePublic (f : Frame) : Leaves (Sent w) (handlePublic f) := by
  refine Leaves.bind (Leaves.read _) fun writer => ?_
  split
  · refine Leaves.bind (Leaves.update fun _ h => h) fun _ => ?_
    exact Leaves.bind (sent_pushHolder _ _) fun _ => Leaves.pure _
  · split
    · exact Leaves.pure _
    split
    · exact Leaves.pure _
    · exact Leaves.bind (sent_pushHolder _ _) fun _ => Leaves.pure _
  · split
    · exact Leaves.pure _
    · refine Leaves.bind (sent_pushHolder _ _) fun _ => ?_
      exact Leaves.bind (sent_pushPublic _ _ _) fun _ => Leaves.pure _
  · exact Leaves.bind (Leaves.update fun _ h => h) fun _ => Leaves.pure _
  · exact Leaves.bind (Leaves.update fun _ h => h) fun _ => Leaves.pure _
  · exact Leaves.bind (sent_pushPublic _ _ _) fun _ => Leaves.pure _
  · exact Leaves.pure _

theorem sent_handlePublicFrames (frames : List Frame) :
    Leaves (Sent w) (handlePublicFrames frames) := by
  induction frames with
  | nil => exact Leaves.pure _
  | cons f frames ih =>
    refine Leaves.bind (sent_handlePublic f) fun goOn => ?_
    split
    · exact ih
    · exact Leaves.pure _

theorem sent_takePublic (bytes : Bytes) : Leaves (Sent w) (readPublic.takePublic bytes) := by
  refine Leaves.bind (Leaves.read _) fun frames => ?_
  refine Leaves.bind (Leaves.update fun _ h => h) fun _ => ?_
  refine Leaves.bind (sent_handlePublicFrames _) fun goOn => ?_
  split
  · split
    · exact Leaves.pure _
    · exact Leaves.fail _
  · exact Leaves.pure _

theorem sent_readPublic (answer : ReadAnswer) : Leaves (Sent w) (readPublic answer) := by
  refine Leaves.bind (Leaves.read _) fun client => ?_
  split
  · exact sent_takePublic _
  · exact Leaves.fail _
  · refine Leaves.bind (Leaves.update fun _ h => h) fun _ => ?_
    split
    · exact Leaves.pure _
    · exact sent_takePublic _

theorem sent_flushBestEffort (answers : List WriteAnswer) :
    Leaves (Sent w) (flushBestEffort answers) :=
  Leaves.bind (Leaves.attempt (sent_flushPublic answers)) fun _ => Leaves.pure _

theorem sent_clientStep (t : PassTurn) (client : Readiness) :
    Leaves (Sent w) (clientStep t client) := by
  unfold clientStep
  split
  · exact sent_readPublic _
  · exact Leaves.pure _

theorem sent_relayStep (t : PassTurn) (holder : Readiness) :
    Leaves (Sent w) (relayStep t holder) := by
  unfold relayStep
  split
  · exact sent_flushHolder _
  · exact Leaves.pure _

theorem sent_timerStep (t : PassTurn) (timer : Bool) :
    Leaves (Sent w) (timerStep t timer) := by
  unfold timerStep observe
  split
  · split
    · exact Leaves.pure _
    · exact Leaves.fail _
  · exact Leaves.pure _

theorem sent_fill : Leaves (Sent w) fill :=
  Leaves.bind (Leaves.read _) fun _ => sent_fillLoop _

theorem sent_serve (t : PassTurn) (client holder : Readiness) (timer : Bool) :
    Leaves (Sent w) (serve t client holder timer) := by
  refine Leaves.bind (sent_timerStep t timer) fun _ => ?_
  refine Leaves.bind ?_ fun _ => sent_relayStep t holder
  unfold publicStep
  split
  · exact Leaves.bind (sent_flushPublic _) fun _ => sent_fill
  · exact Leaves.pure _

variable [SerdeJson]

theorem sent_handleHolder (h : HolderFrame) : Leaves (Sent w) (handleHolder h) := by
  refine Leaves.bind (Leaves.update fun _ h => h) fun _ => ?_
  have hevent : Leaves (Sent w) (handleWriterEvent h.messageType h.payload) := by
    refine Leaves.bind (Leaves.read _) fun sessionId => ?_
    refine Leaves.bind (Leaves.lift _) fun event => ?_
    refine Leaves.bind (Leaves.reject _ _) fun _ => ?_
    refine Leaves.bind (Leaves.update fun _ h => h) fun _ => ?_
    exact sent_pushPublic _ _ _
  split
  · exact Leaves.bind (sent_pushPublic _ _ _) fun _ => Leaves.pure _
  · exact Leaves.bind hevent fun _ => Leaves.pure _
  · exact Leaves.bind hevent fun _ => Leaves.pure _
  · refine Leaves.bind (Leaves.read _) fun sessionId => ?_
    refine Leaves.bind (Leaves.read _) fun minor => ?_
    refine Leaves.bind (Leaves.lift _) fun context => ?_
    refine Leaves.bind (Leaves.reject _ _) fun _ => ?_
    exact Leaves.bind (sent_pushPublic _ _ _) fun _ => Leaves.pure _
  · exact Leaves.pure _

theorem sent_handleHolderFrames (frames : List HolderFrame) :
    Leaves (Sent w) (handleHolderFrames frames) := by
  induction frames with
  | nil => exact Leaves.pure _
  | cons h frames ih =>
    refine Leaves.bind (sent_handleHolder h) fun outcome => ?_
    split
    · exact Leaves.pure _
    · exact ih

theorem sent_readHolder (answer : ReadAnswer) : Leaves (Sent w) (readHolder answer) := by
  refine Leaves.bind (Leaves.read _) fun holder => ?_
  split
  · exact Leaves.pure _
  · exact Leaves.fail _
  · refine Leaves.bind (Leaves.update fun _ h => h) fun _ => ?_
    split
    · exact Leaves.pure _
    refine Leaves.bind (Leaves.read _) fun frames => ?_
    refine Leaves.bind (Leaves.lift _) fun accumulator => ?_
    refine Leaves.bind (Leaves.read _) fun minor => ?_
    refine Leaves.bind (Leaves.update fun _ h => h) fun _ => ?_
    refine Leaves.bind (sent_handleHolderFrames _) fun outcome => ?_
    split
    · exact Leaves.pure _
    · split
      · exact Leaves.pure _
      · exact Leaves.fail _

theorem sent_holderStep (t : PassTurn) (holder : Readiness) :
    Leaves (Sent w) (holderStep t holder) := by
  unfold holderStep
  split
  · exact sent_readHolder _
  · exact Leaves.pure _

end grows

section told

theorem ClientTold.mono {p p' : Proxy} (h : p.ClientTold) (hsent : Sent p.toPublic.written p') :
    p'.ClientTold := by
  obtain ⟨more, hmore⟩ := hsent
  obtain ⟨f, hf, hends⟩ := List.any_eq_true.mp h
  apply List.any_eq_true.mpr
  refine ⟨f, ?_, hends⟩
  rw [← hmore]
  exact (publicFraming.items_mono _ _).subset hf

/-- The frames up to the first exit contain it. -/
theorem exit_of_before {frames before : List HolderFrame}
    (h : frames = before ++ behindExit frames) (hexit : frames.any HolderFrame.isExit = true) :
    before.any HolderFrame.isExit = true := by
  cases hnone : before.any HolderFrame.isExit with
  | true => rfl
  | false =>
    have hskip : frames.dropWhile (!·.isExit) = (behindExit frames).dropWhile (!·.isExit) := by
      conv => lhs; rw [h]
      rw [List.dropWhile_append_of_pos]
      intro f hf
      have := List.any_eq_false.mp hnone f hf
      simpa using this
    have hshort : ((behindExit frames).dropWhile (!·.isExit)).length ≤ (behindExit frames).length :=
      (List.dropWhile_suffix _).length_le
    rw [← hskip, behindExit, List.length_tail] at hshort
    have hnil : frames.dropWhile (!·.isExit) = [] := by
      apply List.eq_nil_of_length_eq_zero
      omega
    obtain ⟨f, hf, hends⟩ := List.any_eq_true.mp hexit
    have := List.dropWhile_eq_nil_iff.mp hnil f hf
    rw [hends] at this
    cases this

/-- A flush that meets no refusal leaves nothing in the queue. -/
theorem flushPublic_drains {answers : List WriteAnswer} {p p' : Proxy}
    (hnone : ∀ source, WriteAnswer.fault source ∉ answers)
    (hrun : flushPublic answers p = (.ok (), p')) :
    p'.toPublic.queue.chunks = [] ∧ p'.received = p.received := by
  have hdrains := flush_drains hnone p.toPublic
  rw [flushPublic, zoom] at hrun
  revert hrun hdrains
  rcases PendingWrites.flush answers p.toPublic with ⟨a | e | _, w⟩
  · intro hrun hfront
    cases hrun
    exact ⟨List.head?_eq_none_iff.mp (Option.map_eq_none_iff.mp hfront), rfl⟩
  · exact fun hrun h => h.elim
  · intro hrun
    cases hrun

variable [SerdeJson] {setup : Setup}

theorem endsClient_of_announces {sessionId minor : Nat} {h : HolderFrame} {f : Frame}
    (hf : Announces sessionId minor h f) (hends : h.endsClient = true) : f.endsClient = true := by
  unfold HolderFrame.endsClient HolderFrame.isExit at hends
  unfold Announces at hf
  cases hkind : h.messageType with
  | writeRevoked =>
    rw [hkind] at hf
    rw [hf]
    rfl
  | sessionExited =>
    rw [hkind] at hf
    obtain ⟨exitCode, rfl, -⟩ := hf
    rfl
  | _ =>
    rw [hkind] at hends
    cases hends

theorem exists_announced {sessionId minor : Nat} {handled : List HolderFrame} {told : List Frame}
    (h : List.Forall₂ (Announces sessionId minor) handled told)
    (hends : handled.any HolderFrame.endsClient = true) : told.any Frame.endsClient = true := by
  induction h with
  | nil => cases hends
  | cons hf hlater ih =>
    rw [List.any_cons, Bool.or_eq_true] at hends ⊢
    exact hends.imp (endsClient_of_announces hf) ih

/-- What the holder has said is queued for the client. -/
theorem queued_of_holderTold {p : Proxy} (h : p.Ordered setup []) (htold : p.holderTold = true) :
    p.queued.any Frame.endsClient = true := by
  obtain ⟨chunks, handled, told, hqueued, -, hreceived, hall⟩ := h.frames
  rw [List.append_nil] at hreceived
  have hhandled : handled.any HolderFrame.endsClient = true := by
    obtain ⟨f, hf, hends⟩ := List.any_eq_true.mp htold
    apply List.any_eq_true.mpr
    refine ⟨f, ?_, hends⟩
    rw [← hreceived, List.mem_filter]
    refine ⟨hf, ?_⟩
    unfold HolderFrame.endsClient HolderFrame.isExit at hends
    unfold HolderFrame.isAnnounced
    revert hends
    cases f.messageType <;> decide
  obtain ⟨f, hf, hends⟩ := List.any_eq_true.mp (exists_announced hall hhandled)
  apply List.any_eq_true.mpr
  refine ⟨f, ?_, hends⟩
  have hmem : f ∈ p.queued.filter (!·.isReply) := by
    rw [hqueued]
    exact List.mem_append_right _ hf
  exact List.mem_of_mem_filter hmem

/-- When nothing waits, the client has been told what the holder has said. -/
theorem told_of_empty {p : Proxy} (h : p.Ordered setup []) (hempty : p.toPublic.queue.chunks = [])
    (htold : p.holderTold = true) : p.ClientTold := by
  obtain ⟨done, waiting, hqueued, hcarries⟩ := h.carried
  have hwaiting := hcarries.waiting_nil hempty
  have hwritten : p.toPublic.written = p.queued.flatMap Frame.bytes ++ [] := by
    rw [hcarries.written, hempty, hqueued, hwaiting, List.flatten_nil, List.take_nil,
      List.append_nil, List.append_nil, List.append_nil]
  obtain ⟨frames, hcut, hkinds⟩ := Frame.cut_bytes h.fits []
  have hends (fs : List Frame) : fs.any Frame.endsClient =
      (fs.map Frame.msgType).any fun kind => Frame.endsClient { msgType := kind } := by
    rw [List.any_map]
    rfl
  unfold ClientTold
  rw [hwritten, hcut, Cut.after, List.any_append, hends frames, hkinds, ← hends,
    queued_of_holderTold h htold, Bool.true_or]

end told

section passes

variable [SerdeJson] {setup : Setup}

/-- How a pass can go. -/
inductive PassBy (t : PassTurn) (p : Proxy) : Option ProxyOutcome → Proxy → Prop
  | interrupted {p' : Proxy} (hwait : wait t p = (.ok none, p')) : PassBy t p none p'
  | left {client holder : Readiness} {timer : Bool} {polled p' : Proxy}
    (hwait : wait t p = (.ok (some (client, holder, timer)), polled))
    (hclient : clientStep t client polled = (.ok false, p')) :
    PassBy t p (some { exitContext := none }) p'
  | ended {client holder : Readiness} {timer : Bool} {polled heard told p' : Proxy}
    {outcome : ProxyOutcome}
    (hwait : wait t p = (.ok (some (client, holder, timer)), polled))
    (hclient : clientStep t client polled = (.ok true, heard))
    (hholder : holderStep t holder heard = (.ok (some outcome), told))
    (hflush : flushBestEffort t.lastWrites told = (.ok (), p')) : PassBy t p (some outcome) p'
  | served {client holder : Readiness} {timer : Bool} {polled heard told p' : Proxy}
    (hwait : wait t p = (.ok (some (client, holder, timer)), polled))
    (hclient : clientStep t client polled = (.ok true, heard))
    (hholder : holderStep t holder heard = (.ok none, told))
    (hserve : serve t client holder timer told = (.ok (), p')) :
    PassBy t p (if client.failed || holder.failed then some { exitContext := none } else none) p'

theorem pass_by {t : PassTurn} {p p' : Proxy} {outcome : Option ProxyOutcome}
    (hrun : pass t p = (.ok outcome, p')) : PassBy t p outcome p' := by
  obtain ⟨ready, polled, hwait, hrun⟩ := bind_returns.mp hrun
  cases ready with
  | none =>
    cases hrun
    exact .interrupted hwait
  | some ready =>
    obtain ⟨client, holder, timer⟩ := ready
    dsimp only at hrun
    obtain ⟨goOn, heard, hclient, hrun⟩ := bind_returns.mp hrun
    cases goOn with
    | false =>
      cases hrun
      exact .left hwait hclient
    | true =>
      rw [if_pos rfl] at hrun
      obtain ⟨ending, told, hholder, hrun⟩ := bind_returns.mp hrun
      cases ending with
      | some ending =>
        obtain ⟨_, flushed, hflush, hrun⟩ := bind_returns.mp hrun
        cases hrun
        exact .ended hwait hclient hholder hflush
      | none =>
        obtain ⟨_, served, hserve, hrun⟩ := bind_returns.mp hrun
        have hserved := PassBy.served hwait hclient hholder hserve
        split at hrun
        · rename_i hfailed
          rw [if_pos hfailed] at hserved
          cases hrun
          exact hserved
        · rename_i hfailed
          rw [if_neg hfailed] at hserved
          cases hrun
          exact hserved

/-- What a pass needs of the read of the client. -/
theorem holder_of_clientStep {t : PassTurn} {client : Readiness} {polled heard : Proxy}
    (hlevel : polled.Level setup) (hrun : clientStep t client polled = (.ok true, heard)) :
    heard.received = polled.received ∧ heard.holder = polled.holder ∧
      heard.holderFrames = polled.holderFrames ∧ heard.holderMinor = polled.holderMinor := by
  unfold clientStep at hrun
  split at hrun
  · obtain ⟨⟨waits, hrelays⟩, -, -, hdetached⟩ := hlevel.beyond
    have hread := (within_readPublicBy hrelays (fun h : False => h.elim) hdetached
      hlevel.steady.2.1).run hrun rfl
    exact holder_of_besideRead hread.beside
  · cases hrun
    exact ⟨rfl, rfl, rfl, rfl⟩

theorem gone_of_left {t : PassTurn} {client holder : Readiness} {timer : Bool} {p polled p' : Proxy}
    (hwait : wait t p = (.ok (some (client, holder, timer)), polled))
    (hlevel : polled.Level setup) (hrun : clientStep t client polled = (.ok false, p')) :
    ClientGone t p := by
  refine ⟨client, holder, timer, polled, hwait, .inr ?_⟩
  unfold clientStep at hrun
  split at hrun
  · rename_i hreadable
    obtain ⟨⟨waits, hrelays⟩, -, -, hdetached⟩ := hlevel.beyond
    have hread := (within_readPublicBy hrelays (fun h : False => h.elim) hdetached
      hlevel.steady.2.1).run hrun rfl
    exact ⟨hreadable, (hread.left rfl).1⟩
  · cases hrun

theorem empty_of_ready {p : Proxy} (h : p.Ready setup 0) : p.toPublic.queue.chunks = [] := by
  obtain ⟨done, waiting, -, hcarries⟩ := h.1.1.carried
  exact hcarries.chunks_nil (Nat.le_zero.mp h.2.2)

/-- The client learns what the holder has said when its queue is flushed. -/
theorem told_of_serve {t : PassTurn} {client holder : Readiness} {timer : Bool} {p p' : Proxy}
    (h : p.Steady setup) (htold : p.holderTold = true) (hwritable : client.writable = true)
    (hnone : ∀ source, WriteAnswer.fault source ∉ t.clientWrites)
    (hrun : serve t client holder timer p = (.ok (), p')) : p'.ClientTold := by
  obtain ⟨_, timed, htimer, hrun⟩ := bind_returns.mp hrun
  obtain ⟨_, filled, hpublic, hrelay⟩ := bind_returns.mp hrun
  have htimed : timed = p := by
    unfold timerStep observe at htimer
    cases timer with
    | false =>
      cases htimer
      rfl
    | true =>
      cases hfault : t.timer with
      | none =>
        rw [hfault] at htimer
        cases htimer
        rfl
      | some source =>
        rw [hfault] at htimer
        cases htimer
  subst htimed
  rw [publicStep, if_pos hwritable] at hpublic
  obtain ⟨_, flushed, hflush, hfill⟩ := bind_returns.mp hpublic
  obtain ⟨hempty, hreceived⟩ := flushPublic_drains hnone hflush
  have hsteady := (within_flushPublic (P := Steady setup)
    (fun p hp front count hfront hcount => ⟨hp.1.write hfront hcount, hp.2⟩)
    t.clientWrites).run hflush h
  have hflushed : flushed.ClientTold := by
    apply told_of_empty hsteady.1 hempty
    rw [holderTold, hreceived]
    exact htold
  apply hflushed.mono
  exact (sent_relayStep t holder).run hrelay (sent_fill.run hfill (List.prefix_refl _))

theorem level_of_pass {t : PassTurn} {p p' : Proxy} {outcome : Option ProxyOutcome}
    (hlevel : p.Level setup) (hby : PassBy t p outcome p') (hnone : outcome = none) :
    p'.Level setup := by
  cases hby with
  | interrupted hwait => exact (level_wait hlevel hwait).1
  | left hwait hclient => cases hnone
  | ended hwait hclient hholder hflush => cases hnone
  | served hwait hclient hholder hserve =>
    obtain ⟨hpolled, hready⟩ := level_wait hlevel hwait
    obtain ⟨hheard, hopen⟩ := level_clientStep hpolled (hready _ _ _ rfl) hclient
    exact level_serve (level_holderStep hheard (fun h => (hopen h).1) hholder) hserve

/-- A pass that ends the loop has met a client that is gone, or the client has been told. -/
theorem told_of_pass {t : PassTurn} {p p' : Proxy} {outcome : Option ProxyOutcome}
    (hlevel : p.Level setup)
    (hheralds : ∀ client holder timer polled,
      wait t p = (.ok (some (client, holder, timer)), polled) → Heralds t client holder polled)
    (hby : PassBy t p outcome p') (hsome : outcome.isSome = true) :
    ClientGone t p ∨ p'.ClientTold := by
  cases hby with
  | interrupted hwait => cases hsome
  | left hwait hclient => exact .inl (gone_of_left hwait (level_wait hlevel hwait).1 hclient)
  | @ended client holder timer polled heard told p' outcome hwait hclient hholder hflush =>
    right
    obtain ⟨hending, -, hexit⟩ := hheralds _ _ _ _ hwait
    obtain ⟨hpolled, hready⟩ := level_wait hlevel hwait
    obtain ⟨hheard, hopen⟩ := level_clientStep hpolled (hready _ _ _ rfl) hclient
    obtain ⟨hreceived, hstream, hframes, hminor⟩ := holder_of_clientStep hpolled hclient
    unfold holderStep at hholder
    by_cases hreadable : holder.readable = true
    · rw [if_pos hreadable] at hholder
      have hsaid : polled.holderTold = true → p'.ClientTold := by
        intro htold
        have hbefore := told_of_empty hpolled.steady.1
          (empty_of_ready (hready _ _ _ rfl (.inr hreadable))) htold
        apply hbefore.mono
        apply (sent_flushBestEffort t.lastWrites).run hflush
        apply (sent_readHolder t.holderRead).run hholder
        exact (sent_clientStep t client).run hclient (List.prefix_refl _)
      have hby := (within_readHolderBy hheard.beyond.2.1 hheard.steady.2.2).run hholder rfl
      have hsame : heard.framesHeard t.holderRead = polled.framesHeard t.holderRead := by
        rw [framesHeard, framesHeard, holderBytesRead, holderBytesRead, hstream, hframes, hminor]
      obtain ⟨hleaves, -⟩ := hby.left rfl
      by_cases hexits : (polled.framesHeard t.holderRead).any HolderFrame.isExit = true
      · rcases hexit hreadable hexits with htold | hnone
        · exact hsaid htold
        · have hordered := (within_readHolder t.holderRead).run hholder (hopen hreadable).1
          obtain ⟨⟨w, rfl⟩, hdrained⟩ := flushBestEffort_returns hflush
          have hflushed := flushBestEffort_keeps (P := Ordered setup [])
            (fun q hq front count hfront hcount => hq.write hfront hcount) hflush hordered
          apply told_of_empty hflushed (hdrained hnone)
          obtain ⟨before, hbefore, hafter⟩ := hby.received
          have hlast := exit_of_before hbefore (hsame ▸ hexits)
          obtain ⟨h, hmem, hends⟩ := List.any_eq_true.mp hlast
          apply List.any_eq_true.mpr
          refine ⟨h, ?_, ?_⟩
          · dsimp only
            rw [hafter]
            exact List.mem_append_right _ hmem
          · rw [HolderFrame.endsClient, hends, Bool.true_or]
      · rw [HolderLeaves, hsame, hstream] at hleaves
        exact hsaid (hending hreadable (hleaves.resolve_right hexits))
    · rw [if_neg hreadable] at hholder
      cases hholder
  | @served client holder timer polled heard told p' hwait hclient hholder hserve =>
    have hfailed : (client.failed || holder.failed) = true := by
      by_contra hfine
      rw [if_neg hfine] at hsome
      cases hsome
    rcases Bool.or_eq_true _ _ ▸ hfailed with hgone | hfailed
    · exact .inl ⟨client, holder, timer, polled, hwait, .inl hgone⟩
    right
    obtain ⟨-, hfailure, -⟩ := hheralds _ _ _ _ hwait
    obtain ⟨hpolled, hready⟩ := level_wait hlevel hwait
    obtain ⟨hheard, hopen⟩ := level_clientStep hpolled (hready _ _ _ rfl) hclient
    obtain ⟨hreceived, hstream, hframes, hminor⟩ := holder_of_clientStep hpolled hclient
    have hnoExit : holder.readable = true →
        (polled.framesHeard t.holderRead).any HolderFrame.isExit = false := by
      intro hreadable
      rw [holderStep, if_pos hreadable] at hholder
      have hby := (within_readHolderBy hheard.beyond.2.1 hheard.steady.2.2).run hholder rfl
      have hsame : heard.framesHeard t.holderRead = polled.framesHeard t.holderRead := by
        rw [framesHeard, framesHeard, holderBytesRead, holderBytesRead, hstream, hframes, hminor]
      exact hsame ▸ (hby.kept rfl).2
    obtain ⟨htold, hwaits⟩ := hfailure hfailed hnoExit
    have hsaid : polled.ClientTold → p'.ClientTold := by
      intro hbefore
      apply hbefore.mono
      apply (sent_serve t client holder timer).run hserve
      apply (sent_holderStep t holder).run hholder
      exact (sent_clientStep t client).run hclient (List.prefix_refl _)
    by_cases hdata : polled.toPublic.hasData = true
    · rcases hwaits hdata with hbefore | ⟨hwritable, hnone⟩
      · exact hsaid hbefore
      -- while output waits, neither socket is read
      have hunread : client.readable = false ∧ holder.readable = false := by
        have hnot : ¬ (client.readable = true ∨ holder.readable = true) := by
          intro hreadable
          have hempty := empty_of_ready (hready _ _ _ rfl hreadable)
          rw [PendingWrites.hasData, ByteQueue.isEmpty, hempty] at hdata
          cases hdata
        simpa using hnot
      rw [clientStep, hunread.1] at hclient
      cases hclient
      rw [holderStep, hunread.2] at hholder
      cases hholder
      exact told_of_serve hpolled.steady htold hwritable hnone hserve
    · apply hsaid
      apply told_of_empty hpolled.steady.1 ?_ htold
      simpa [PendingWrites.hasData, ByteQueue.isEmpty] using hdata

theorem told_of_loop {turns : List PassTurn} {p p' : Proxy} {outcome : ProxyOutcome}
    (hlevel : p.Level setup) (hheralds : LoopHeralds turns p)
    (hrun : loop turns p = (.ok outcome, p')) : LoopLeft turns p ∨ p'.ClientTold := by
  induction turns generalizing p with
  | nil => cases hrun
  | cons t turns ih =>
    obtain ⟨hpass, hlater⟩ := hheralds
    obtain ⟨ending, q, hstep, hrun⟩ := bind_returns.mp hrun
    cases ending with
    | some ending =>
      cases hrun
      exact (told_of_pass hlevel hpass (pass_by hstep) rfl).imp_left .inl
    | none =>
      have hafter := level_of_pass hlevel (pass_by hstep) rfl
      exact (ih hafter (hlater q hstep) hrun).imp_left fun hleft => .inr ⟨q, hstep, hleft⟩

end passes

end Proxy

section main

variable [SerdeJson]

/-- **No attach ends silently** when what ends it is announced: if the proxy returns, the client
has left, or what it has been sent ends its loop. -/
theorem attach_not_silent {sessionId holderMinor : Nat} {initial : Bytes} {readWrite hasTimer : Bool}
    {timerFault : Option (String × Errno)} {turns : List PassTurn} {outcome : ProxyOutcome}
    {p : Proxy}
    (hheralds : Proxy.RunHeralds turns
      (Proxy.start sessionId holderMinor initial readWrite hasTimer))
    (hrun : Proxy.run timerFault turns
      (Proxy.start sessionId holderMinor initial readWrite hasTimer) = (.ok outcome, p)) :
    Proxy.RunLeft turns (Proxy.start sessionId holderMinor initial readWrite hasTimer) ∨
      p.ClientTold := by
  have hlevel : (Proxy.start sessionId holderMinor initial readWrite hasTimer).Level
      ⟨initial, sessionId, holderMinor⟩ := Proxy.level_start readWrite hasTimer
  unfold Proxy.run at hrun
  obtain ⟨_, filled, hfill, hrun⟩ := bind_returns.mp hrun
  have hfilled := Proxy.level_fill hlevel hfill
  cases timerFault with
  | some fault => cases hrun
  | none =>
    exact (Proxy.told_of_loop hfilled (hheralds filled hfill) hrun).imp_left fun hleft =>
      ⟨filled, hfill, hleft⟩

end main

section samples

attribute [local instance] Json.serdeJson

/-- The session exits, and the client takes what it is sent. -/
def exits : List PassTurn :=
  [{ holder := {
       bytes := HolderFrame.bytes 1
         { messageType := .sessionExited
           payload := (encodeSessionExitedEvent
             { sessionId := 1, exitCode := 0, cwd := none }).toOption.getD [] } }
     poll := .ready {} { readable := true } false
     lastWrites := [.upTo 100] }]

theorem exit_is_told :
    Proxy.RunLeft exits (Proxy.start 1 1 [] true false) ∨
      (Proxy.run none exits (Proxy.start 1 1 [] true false)).2.ClientTold := by
  have hheralds : Proxy.RunHeralds exits (Proxy.start 1 1 [] true false) := by
    intro p hfill
    cases hfill
    constructor
    · intro client holder timer polled hwait
      cases hwait
      constructor
      · exact fun _ hends => absurd hends (by decide +kernel)
      · exact nofun
      · intro _ _
        right
        intro source hmem
        cases hmem with
        | tail _ hmem => cases hmem
    · intro p' hpass
      have hends : (Proxy.pass _ _).1 = .ok none := congrArg Prod.fst hpass
      exact absurd hends (by decide +kernel)
  have hrun : Proxy.run none exits (Proxy.start 1 1 [] true false) =
      (.ok { exitContext := some { sessionId := 1, exitCode := 0, cwd := none } },
        (Proxy.run none exits (Proxy.start 1 1 [] true false)).2) :=
    Prod.ext (by decide +kernel) rfl
  exact attach_not_silent hheralds hrun

/-- The holder closes the data connection. -/
def dropped : List PassTurn :=
  [{ holder := { ends := true }, poll := .ready {} { readable := true } false }]

/-- **The proxy returns, and the client has been sent nothing.** -/
theorem dropped_silently :
    ∃ outcome p, Proxy.run none dropped (Proxy.start 1 1 [] true false) = (.ok outcome, p) ∧
      ¬ (Proxy.RunLeft dropped (Proxy.start 1 1 [] true false) ∨ p.ClientTold) := by
  refine ⟨{ exitContext := none }, (Proxy.run none dropped (Proxy.start 1 1 [] true false)).2,
    Prod.ext (by decide +kernel) rfl, ?_⟩
  rintro (⟨p, hfill, hleft⟩ | htold)
  · cases hfill
    rcases hleft with ⟨client, holder, timer, polled, hwait, hgone⟩ | ⟨p', hpass, hleft⟩
    · cases hwait
      rcases hgone with hfailed | ⟨hreadable, -⟩
      · cases hfailed
      · cases hreadable
    · exact hleft
  · exact absurd htold (by decide +kernel)

end samples

end PersistShell

import PersistShell.Cli.AttachOutput
import PersistShell.Daemon.ProxyInput

/-! What an attached client sends. Of the bytes that it writes, `Resize` and `Stdin` frames are
read, and what is typed is in the `Stdin` frames, in order and once, as long as no frame goes out
in part with another one after it. -/

namespace PersistShell
open Program

/-- What was typed for a frame. -/
def Frame.input (f : Frame) : Bytes := if f.msgType = .stdin then f.payload else []

/-- The frames that the loop of a client sends. -/
def Frame.isClients (f : Frame) : Bool :=
  (f.msgType = .stdin || f.msgType = .resize) && f.payload.length ≤ f.msgType.limit

namespace AttachTurn

end AttachTurn

namespace AttachClient

/-- All that was sent are whole frames, with all that was typed. -/
def Sending (c : AttachClient) : Prop :=
  ∃ frames : List Frame, c.sent = frames.flatMap Frame.bytes ∧
    (∀ f ∈ frames, f.isClients = true) ∧ frames.flatMap Frame.input = c.typed

/-- The last frame may have gone out in part. -/
def Sent (c : AttachClient) : Prop :=
  ∃ frames : List Frame, c.sent <+: frames.flatMap Frame.bytes ∧
    (∀ f ∈ frames, f.isClients = true) ∧ frames.flatMap Frame.input = c.typed

theorem Sending.sent {c : AttachClient} : c.Sending → c.Sent := by
  rintro ⟨frames, hsent, hclients, htyped⟩
  exact ⟨frames, hsent ▸ List.prefix_rfl, hclients, htyped⟩

section loops

variable {s t : Bytes}

/-- A step that is only read, or writes whole frames. -/
theorem Sending.within {α : Type} {m : AttachProgram α} (h : Leaves Sending m) :
    Within Sending m (fun _ => Sending) Sent :=
  (Within.of_leaves h fun _ => id).weaken fun _ hc => hc.sent

end loops

section arrived

variable {c : AttachClient} {frames : List Frame}

theorem limit_of_clients (h : ∀ f ∈ frames, f.isClients = true) :
    ∀ f ∈ frames, f.payload.length ≤ f.msgType.limit :=
  fun f hf => of_decide_eq_true ((Bool.and_eq_true _ _).mp (h f hf)).2

theorem input_carried (frames : List Frame) :
    (frames.map Frame.carried).flatMap Frame.input = frames.flatMap Frame.input :=
  List.flatMap_map _ _ _

/-- What is read of the bytes of a client is what was typed, as far as they have arrived. -/
theorem Sent.read (h : c.Sent) {arrived : Bytes} (harrived : arrived <+: c.sent) :
    (∀ f ∈ (publicFraming.cut arrived).items, f.isClients = true) ∧
      (publicFraming.cut arrived).items.flatMap Frame.input <+: c.typed := by
  obtain ⟨frames, hsent, hclients, htyped⟩ := h
  have hitems := Frame.items_carried (limit_of_clients hclients) (harrived.trans hsent)
  refine ⟨fun f hf => ?_, ?_⟩
  · obtain ⟨g, hg, rfl⟩ := List.mem_map.mp (hitems.subset hf)
    exact hclients g hg
  · have hinput := hitems.flatMap Frame.input
    rw [input_carried, htyped] at hinput
    exact hinput

theorem Sending.read (h : c.Sending) :
    (publicFraming.cut c.sent).items.flatMap Frame.input = c.typed := by
  obtain ⟨frames, hsent, hclients, htyped⟩ := h
  have hcut := Frame.cut_carried (limit_of_clients hclients) []
  have hnothing : publicFraming.cut [] = ⟨[], [], none⟩ := Framing.cut_none rfl
  rw [List.append_nil, hnothing, Cut.after, List.append_nil] at hcut
  rw [hsent, hcut]
  exact (input_carried frames).trans htyped

end arrived

end AttachClient

section cut

namespace AttachClient

end AttachClient

end cut

section main

variable [SerdeJson]

end main

section samples

attribute [local instance] Json.serdeJson

end samples

end PersistShell

import Mathlib.Logic.Function.Basic

/-! Clients attached to resources, and for each resource at most one client that holds it
exclusively. The table is a function of the history of attaches, detaches and releases; a
history lists the newest event first. -/

namespace Arbiter

inductive Event (C R : Type) where
  | attach (client : C) (resource : R) (exclusive : Bool)
  | detach (client : C)
  | release (resource : R)

structure Table (C R : Type) where
  place : C → Option R
  holder : R → Option C

variable {C R : Type} [DecidableEq C] [DecidableEq R]

namespace Table

def empty : Table C R := ⟨fun _ => none, fun _ => none⟩

def detach (t : Table C R) (c : C) : Table C R where
  place := Function.update t.place c none
  holder r := if t.holder r = some c then none else t.holder r

def attach (t : Table C R) (c : C) (r : R) (exclusive : Bool) : Table C R where
  place := Function.update (t.detach c).place c (some r)
  holder := if exclusive then Function.update (t.detach c).holder r (some c)
    else (t.detach c).holder

def release (t : Table C R) (r : R) : Table C R :=
  { t with holder := Function.update t.holder r none }

def apply (t : Table C R) : Event C R → Table C R
  | .attach c r exclusive => t.attach c r exclusive
  | .detach c => t.detach c
  | .release r => t.release r

/-- A holder is attached to what it holds. -/
def Coherent (t : Table C R) : Prop := ∀ r c, t.holder r = some c → t.place c = some r

omit [DecidableEq R] in
theorem Coherent.detach {t : Table C R} (h : t.Coherent) (c : C) : (t.detach c).Coherent := by
  intro r d hd
  simp only [Table.detach] at hd ⊢
  split at hd
  · cases hd
  · rename_i hne
    have hdc : d ≠ c := fun heq => hne (heq ▸ hd)
    rw [Function.update_of_ne hdc]
    exact h r d hd

theorem Coherent.attach {t : Table C R} (h : t.Coherent) (c : C) (r : R) (exclusive : Bool) :
    (t.attach c r exclusive).Coherent := by
  have hfree : ∀ r', (t.detach c).holder r' ≠ some c := by
    intro r' heq
    have := h.detach c r' c heq
    simp [Table.detach] at this
  have hold : ∀ r' d, (t.detach c).holder r' = some d → (t.attach c r exclusive).place d = some r' := by
    intro r' d hd
    have hdc : d ≠ c := fun heq => hfree r' (heq ▸ hd)
    simp only [Table.attach, Function.update_of_ne hdc]
    exact h.detach c r' d hd
  intro r' d hd
  cases exclusive with
  | false => exact hold r' d hd
  | true =>
    by_cases hr : r' = r
    · subst hr
      simp only [Table.attach, if_true, Function.update_self, Option.some.injEq] at hd
      subst hd
      simp [Table.attach]
    · simp only [Table.attach, if_true, Function.update_of_ne hr] at hd
      exact hold r' d hd

omit [DecidableEq C] in
theorem Coherent.release {t : Table C R} (h : t.Coherent) (r : R) : (t.release r).Coherent := by
  intro r' c hc
  by_cases hr : r' = r
  · subst hr
    simp [Table.release] at hc
  · simp only [Table.release, Function.update_of_ne hr] at hc
    exact h r' c hc

end Table

def replay : List (Event C R) → Table C R
  | [] => .empty
  | e :: history => (replay history).apply e

theorem coherent_replay (history : List (Event C R)) : (replay history).Coherent := by
  induction history with
  | nil => intro r c h; cases h
  | cons e history ih =>
    cases e with
    | attach c r exclusive => exact ih.attach c r exclusive
    | detach c => exact ih.detach c
    | release r => exact ih.release r

/-- The events that end a client's attachment to whatever it is attached to. -/
def Event.moves (c : C) : Event C R → Prop
  | .attach d _ _ => d = c
  | .detach d => d = c
  | .release _ => False

/-- The events that end an exclusive hold of `r` by `c`. -/
def Event.ends (c : C) (r : R) : Event C R → Prop
  | .attach d r' exclusive => d = c ∨ (r' = r ∧ exclusive = true)
  | .detach d => d = c
  | .release r' => r' = r

end Arbiter

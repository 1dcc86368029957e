import Mathlib.Data.List.Basic

/-! Runs of a machine that takes actions, and histories. A run is along a condition when each
of its steps meets the condition in the state before it. -/

namespace Run

variable {σ α β : Type}

/-- The states that runs along `G` reach. -/
inductive Along (step : σ → α → Option σ) (G : σ → α → Prop) (start : σ → Prop) : σ → Prop
  | start {s : σ} (h : start s) : Along step G start s
  | step {s s' : σ} {a : α} (h : Along step G start s) (hG : G s a) (hs : step s a = some s') :
      Along step G start s'

/-- The states that any run reaches. -/
abbrev Reachable (step : σ → α → Option σ) (start : σ → Prop) : σ → Prop :=
  Along step (fun _ _ => True) start

variable {step : σ → α → Option σ} {G G' : σ → α → Prop} {start I : σ → Prop}

theorem Along.invariant (hstart : ∀ s, start s → I s)
    (hstep : ∀ s a s', I s → G s a → step s a = some s' → I s') {s : σ}
    (h : Along step G start s) : I s := by
  induction h with
  | start h => exact hstart _ h
  | step _ hG hs ih => exact hstep _ _ _ ih hG hs

theorem Along.mono (hG : ∀ s a, G s a → G' s a) {s : σ} (h : Along step G start s) :
    Along step G' start s := by
  induction h with
  | start h => exact .start h
  | step _ hg hs ih => exact .step ih (hG _ _ hg) hs

theorem Along.reachable {s : σ} (h : Along step G start s) : Reachable step start s :=
  h.mono fun _ _ _ => trivial

theorem Along.trans {s s' : σ} (h : Along step G start s) (h' : Along step G (· = s) s') :
    Along step G start s' := by
  induction h' with
  | start heq => exact heq ▸ h
  | step _ hG hs ih => exact ih.step hG hs

/-- Runs a list of actions, when each of them can be taken. -/
def exec (step : σ → α → Option σ) (s : σ) : List α → Option σ
  | [] => some s
  | a :: as => (step s a).bind fun s' => exec step s' as

theorem Along.exec {s s' : σ} {as : List α} (h : Reachable step start s)
    (hrun : exec step s as = some s') : Reachable step start s' := by
  induction as generalizing s with
  | nil =>
    cases hrun
    exact h
  | cons a as ih =>
    obtain ⟨t, ht, hrest⟩ := Option.bind_eq_some_iff.mp hrun
    exact ih (h.step trivial ht) hrest

/-- A condition that every action of a list meets where it is taken. -/
def Throughout (step : σ → α → Option σ) (G : σ → α → Prop) : σ → List α → Prop
  | _, [] => True
  | s, a :: as => G s a ∧ ∀ s', step s a = some s' → Throughout step G s' as

/-- Every entry of a history, newest first, is in order with what came before it. -/
def Each (P : β → List β → Prop) : List β → Prop
  | [] => True
  | b :: earlier => P b earlier ∧ Each P earlier

theorem Each.of_append {P : β → List β → Prop} {later earlier : List β} {b : β}
    (h : Each P (later ++ b :: earlier)) : P b earlier := by
  induction later with
  | nil => exact h.1
  | cons c later ih => exact ih h.2

theorem Each.drop {P : β → List β → Prop} {later earlier : List β}
    (h : Each P (later ++ earlier)) : Each P earlier := by
  induction later with
  | nil => exact h
  | cons c later ih => exact ih h.2

end Run

import Mathlib.Logic.Function.Basic
import PersistShell.Program.Run

/-! A file behind a name, and processes that open it by the name and lock it. A lock is a lock
on the file: who removes the name leaves the file, and its lock, to those that have it open. -/

namespace NamedLock

/-- How far a process is: it has the file open, it holds its lock, it has released the lock and
is about to remove the name. -/
inductive Seat where
  | opened (f : Nat)
  | held (f : Nat)
  | released (f : Nat)
  deriving DecidableEq, Repr

/-- Files are numbered in the order in which they are created. -/
structure State (π : Type) where
  named : Option Nat
  created : Nat
  owner : Nat → Option π
  seat : π → Option Seat

/-- `enter` opens what the name stands for, or creates it; `leave` closes, which also releases. -/
inductive Act (π : Type) where
  | enter (p : π)
  | lock (p : π)
  | release (p : π)
  | remove (p : π)
  | leave (p : π)

variable {π : Type} [DecidableEq π]

namespace State

/-- The file that the name stands for once the name has been opened, and the files by then. -/
def enter (s : State π) : Nat × State π :=
  match s.named with
  | some f => (f, s)
  | none => (s.created, { s with named := some s.created, created := s.created + 1 })

def sit (s : State π) (p : π) (seat : Option Seat) : State π :=
  { s with seat := Function.update s.seat p seat }

def own (s : State π) (f : Nat) (owner : Option π) : State π :=
  { s with owner := Function.update s.owner f owner }

end State

def step (s : State π) : Act π → Option (State π)
  | .enter p =>
    if s.seat p = none then some (s.enter.2.sit p (some (.opened s.enter.1))) else none
  | .lock p =>
    match s.seat p with
    | some (.opened f) =>
      if s.owner f = none then some ((s.own f (some p)).sit p (some (.held f))) else none
    | _ => none
  | .release p =>
    match s.seat p with
    | some (.held f) => some ((s.own f none).sit p (some (.released f)))
    | _ => none
  | .remove p =>
    match s.seat p with
    | some (.released _) => some ({ s with named := none }.sit p none)
    | _ => none
  | .leave p =>
    match s.seat p with
    | some (.held f) => some ((s.own f none).sit p none)
    | some _ => some (s.sit p none)
    | none => none

/-- Between opening the file and releasing it. -/
def State.Uses (s : State π) (p : π) (f : Nat) : Prop :=
  s.seat p = some (.opened f) ∨ s.seat p = some (.held f)

/-- The name is removed only when no other process uses the file that it stands for. -/
def Quiet (s : State π) : Act π → Prop
  | .remove p => ∀ q f, q ≠ p → s.named = some f → ¬ s.Uses q f
  | _ => True

/-- The lock of a file is with the process that sits on it. -/
structure Coherent (s : State π) : Prop where
  owner : ∀ f p, s.owner f = some p ↔ s.seat p = some (.held f)
  named : ∀ f, s.named = some f → f < s.created
  uses : ∀ p f, s.Uses p f → f < s.created

/-- The name stands for every file that is in use. -/
def Sole (s : State π) : Prop := ∀ p f, s.Uses p f → s.named = some f

def Vacant (s : State π) : Prop :=
  (∀ p, s.seat p = none) ∧ (∀ f, s.owner f = none) ∧ ∀ f, s.named = some f → f < s.created

section

omit [DecidableEq π]

theorem Vacant.coherent {s : State π} (h : Vacant s) : Coherent s where
  owner f p := by simp [h.1 p, h.2.1 f]
  named := h.2.2
  uses p f hu := by simp [State.Uses, h.1 p] at hu

theorem Vacant.sole {s : State π} (h : Vacant s) : Sole s := fun p f hu => by
  simp [State.Uses, h.1 p] at hu

/-- Two processes never hold the lock of the file behind the name. -/
theorem Coherent.exclusive {s : State π} (h : Coherent s) (hsole : Sole s) {p q : π} {f g : Nat}
    (hp : s.seat p = some (.held f)) (hq : s.seat q = some (.held g)) : p = q ∧ f = g := by
  have hf := hsole p f (.inr hp)
  have hg := hsole q g (.inr hq)
  have hfg : f = g := Option.some.inj (hf.symm.trans hg)
  subst hfg
  have hown := (h.owner f p).mpr hp
  rw [(h.owner f q).mpr hq] at hown
  exact ⟨(Option.some.inj hown).symm, rfl⟩

end

theorem sit_self {s : State π} {p : π} {seat : Option Seat} (h : s.seat p = seat) :
    s.sit p seat = s := by
  subst h
  simp [State.sit]

theorem seat_sit (s : State π) (p q : π) (seat : Option Seat) :
    (s.sit p seat).seat q = if q = p then seat else s.seat q := by
  simp [State.sit, Function.update_apply]

/-- A process that does not hold a lock changes its seat, and holds none afterwards. -/
theorem Coherent.sit {s : State π} (h : Coherent s) {p : π} {seat : Option Seat}
    (hfree : ∀ f, s.seat p ≠ some (.held f)) (hheld : ∀ f, seat ≠ some (.held f))
    (huses : ∀ f, seat = some (.opened f) → f < s.created) : Coherent (s.sit p seat) where
  owner f q := by
    rw [seat_sit]
    split
    · rename_i hq
      subst hq
      exact ⟨fun ho => absurd ((h.owner f q).mp ho) (hfree f), fun hs => absurd hs (hheld f)⟩
    · exact h.owner f q
  named := h.named
  uses q f hu := by
    simp only [State.Uses, seat_sit] at hu
    split at hu
    · exact huses f (hu.resolve_right (hheld f))
    · exact h.uses q f hu

/-- The holder of a lock gives it up. -/
theorem Coherent.giveUp {s : State π} (h : Coherent s) {p : π} {f : Nat} {seat : Option Seat}
    (hp : s.seat p = some (.held f)) (hseat : ∀ g, seat ≠ some (.held g))
    (huses : ∀ g, seat ≠ some (.opened g)) : Coherent ((s.own f none).sit p seat) where
  owner g q := by
    rw [seat_sit]
    have hown : ((s.own f none).sit p seat).owner g = if g = f then none else s.owner g := by
      simp [State.sit, State.own, Function.update_apply]
    rw [hown]
    by_cases hq : q = p
    · subst hq
      rw [if_pos rfl]
      refine ⟨fun ho => ?_, fun hs => absurd hs (hseat g)⟩
      split at ho
      · cases ho
      · rename_i hne
        have := (h.owner g q).mp ho
        rw [hp] at this
        exact absurd (Seat.held.inj (Option.some.inj this)).symm hne
    · rw [if_neg hq]
      show _ ↔ s.seat q = some (.held g)
      split
      · rename_i hgf
        subst hgf
        refine ⟨fun ho => (by cases ho), fun hs => ?_⟩
        have hqo := (h.owner g q).mpr hs
        rw [(h.owner g p).mpr hp] at hqo
        exact absurd (Option.some.inj hqo).symm hq
      · exact h.owner g q
  named := h.named
  uses q g hu := by
    simp only [State.Uses, seat_sit] at hu
    split at hu
    · exact absurd hu (not_or.mpr ⟨huses g, hseat g⟩)
    · exact h.uses q g hu

omit [DecidableEq π] in
theorem Coherent.enter {s : State π} (h : Coherent s) :
    Coherent s.enter.2 ∧ s.enter.2.named = some s.enter.1 ∧ s.enter.1 < s.enter.2.created ∧
      s.enter.2.seat = s.seat := by
  unfold State.enter
  split
  · rename_i f hf
    exact ⟨h, hf, h.named f hf, rfl⟩
  · refine ⟨⟨h.owner, fun f hf => ?_, fun p f hu => ?_⟩, rfl, Nat.lt_succ_self _, rfl⟩
    · cases hf
      exact Nat.lt_succ_self _
    · exact Nat.lt_succ_of_lt (h.uses p f hu)

theorem Coherent.lock {s : State π} (h : Coherent s) {p : π} {f : Nat}
    (hp : s.seat p = some (.opened f)) (hfree : s.owner f = none) :
    Coherent ((s.own f (some p)).sit p (some (.held f))) where
  owner g q := by
    have hown : ((s.own f (some p)).sit p (some (.held f))).owner g =
        if g = f then some p else s.owner g := by
      simp [State.sit, State.own, Function.update_apply]
    rw [hown, seat_sit]
    by_cases hq : q = p
    · subst hq
      rw [if_pos rfl]
      by_cases hg : g = f
      · simp [hg]
      · rw [if_neg hg]
        refine ⟨fun ho => ?_, fun hs => absurd (Seat.held.inj (Option.some.inj hs)).symm hg⟩
        have := (h.owner g q).mp ho
        rw [hp] at this
        cases this
    · rw [if_neg hq]
      show _ ↔ s.seat q = some (.held g)
      split
      · rename_i hg
        subst hg
        refine ⟨fun ho => absurd (Option.some.inj ho).symm hq, fun hs => ?_⟩
        rw [(h.owner g q).mpr hs] at hfree
        cases hfree
      · exact h.owner g q
  named := h.named
  uses q g hu := by
    simp only [State.Uses, seat_sit] at hu
    split at hu
    · have hg : f = g := by simpa using hu
      exact hg ▸ h.uses p f (.inl hp)
    · exact h.uses q g hu

theorem step_coherent {s s' : State π} {a : Act π} (h : Coherent s) (hs : step s a = some s') :
    Coherent s' := by
  cases a with
  | enter p =>
    simp only [step] at hs
    split at hs
    · rename_i hp
      cases hs
      obtain ⟨hc, -, hlt, hseat⟩ := h.enter
      refine hc.sit (fun f hf => ?_) (by simp) fun f hf => ?_
      · rw [hseat, hp] at hf
        cases hf
      · cases hf
        exact hlt
    · cases hs
  | lock p =>
    simp only [step] at hs
    split at hs
    · rename_i f hp
      split at hs
      · rename_i hfree
        cases hs
        exact h.lock hp hfree
      · cases hs
    · cases hs
  | release p =>
    simp only [step] at hs
    split at hs
    · rename_i f hp
      cases hs
      exact h.giveUp hp (by simp) (by simp)
    · cases hs
  | remove p =>
    simp only [step] at hs
    split at hs
    · rename_i f hp
      cases hs
      have hc : Coherent { s with named := none } :=
        ⟨h.owner, fun f hf => (by cases hf), h.uses⟩
      exact hc.sit (by simp [hp]) (by simp) (by simp)
    · cases hs
  | leave p =>
    simp only [step] at hs
    split at hs
    · rename_i f hp
      cases hs
      exact h.giveUp hp (by simp) (by simp)
    · rename_i seat hheld hp
      cases hs
      refine h.sit (fun f hf => ?_) (by simp) (by simp)
      rw [hp] at hf
      exact hheld f (Option.some.inj hf)
    · cases hs

/-- Who changes its seat leaves the name, and takes no file but the one behind it. -/
theorem Sole.sit {s : State π} (h : Sole s) {p : π} {seat : Option Seat}
    (hseat : ∀ f, seat = some (.opened f) ∨ seat = some (.held f) → s.named = some f) :
    Sole (s.sit p seat) := fun q f hu => by
  simp only [State.Uses, seat_sit] at hu
  split at hu
  · exact hseat f hu
  · exact h q f hu

theorem step_sole {s s' : State π} {a : Act π} (h : Sole s) (hc : Coherent s)
    (hquiet : Quiet s a) (hs : step s a = some s') : Sole s' := by
  cases a with
  | enter p =>
    simp only [step] at hs
    split at hs
    · rename_i hp
      cases hs
      obtain ⟨-, hnamed, -, hseat⟩ := hc.enter
      have hsole : Sole s.enter.2 := by
        intro q f hu
        have hq := h q f (by simpa only [State.Uses, hseat] using hu)
        simp only [State.enter, hq]
      refine hsole.sit fun f hf => ?_
      have hf' : s.enter.1 = f := by simpa using hf
      exact hf' ▸ hnamed
    · cases hs
  | lock p =>
    simp only [step] at hs
    split at hs
    · rename_i f hp
      split at hs
      · cases hs
        have hsole : Sole (s.own f (some p)) := h
        refine hsole.sit fun g hg => ?_
        have : f = g := by simpa using hg
        exact this ▸ h p f (.inl hp)
      · cases hs
    · cases hs
  | release p =>
    simp only [step] at hs
    split at hs
    · rename_i f hp
      cases hs
      have hsole : Sole (s.own f none) := h
      exact hsole.sit (by simp)
    · cases hs
  | remove p =>
    simp only [step] at hs
    split at hs
    · rename_i f hp
      cases hs
      intro q g hu
      simp only [State.Uses, seat_sit] at hu
      split at hu
      · simp at hu
      · rename_i hq
        exact absurd hu (hquiet q g hq (h q g hu))
    · cases hs
  | leave p =>
    simp only [step] at hs
    split at hs
    · rename_i f hp
      cases hs
      have hsole : Sole (s.own f none) := h
      exact hsole.sit (by simp)
    · cases hs
      exact h.sit (by simp)
    · cases hs

/-- A step of the lock, or none. -/
inductive Moves (s : State π) (quiet : Prop) (s' : State π) : Prop
  | same (h : s' = s)
  | act (a : Act π) (h : step s a = some s') (hquiet : quiet → Quiet s a)

theorem Moves.mono {s s' : State π} {quiet quiet' : Prop} (h : Moves s quiet s')
    (himp : quiet' → quiet) : Moves s quiet' s' := by
  cases h with
  | same h => exact .same h
  | act a h hquiet => exact .act a h fun hq => hquiet (himp hq)

theorem Moves.coherent {s s' : State π} {quiet : Prop} (h : Moves s quiet s') (hc : Coherent s) :
    Coherent s' := by
  cases h with
  | same heq => exact heq ▸ hc
  | act a ha _ => exact step_coherent hc ha

theorem Moves.sole {s s' : State π} {quiet : Prop} (h : Moves s quiet s') (hc : Coherent s)
    (hsole : Sole s) (hquiet : quiet) : Sole s' := by
  cases h with
  | same heq => exact heq ▸ hsole
  | act a ha hq => exact step_sole hsole hc (hq hquiet) ha

section calls

variable {κ : Type}

/-- The lock of processes that stand each at a call. -/
def State.ofCalls (named : Option Nat) (created : Nat) (owner : Nat → Option π)
    (calls : π → Option κ) (seat : κ → Option Seat) : State π where
  named
  created
  owner
  seat p := (calls p).bind seat

variable {named : Option Nat} {created : Nat} {owner : Nat → Option π} {calls : π → Option κ}
  {seat : κ → Option Seat} {p : π} {c : κ}

theorem ofCalls_update (c : Option κ) :
    State.ofCalls named created owner (Function.update calls p c) seat =
      (State.ofCalls named created owner calls seat).sit p (c.bind seat) := by
  unfold State.ofCalls State.sit
  congr 1
  funext q
  by_cases hq : q = p
  · subst hq
    simp
  · simp [Function.update_of_ne hq]

omit [DecidableEq π] in
theorem seat_ofCalls (h : calls p = some c) :
    (State.ofCalls named created owner calls seat).seat p = seat c := by
  simp [State.ofCalls, h]

/-- A process ends, and what it has open is closed. -/
theorem moves_leave {quiet : Prop} (h : calls p = some c) :
    Moves (State.ofCalls named created owner calls seat) quiet
      (State.ofCalls named created (fun f => if seat c = some (.held f) then none else owner f)
        (Function.update calls p none) seat) := by
  have hseat : (State.ofCalls named created owner calls seat).seat p = seat c := seat_ofCalls h
  rw [ofCalls_update, Option.bind_none]
  cases hc : seat c with
  | none =>
    refine .same ?_
    simp only [reduceCtorEq, if_false]
    exact sit_self (hseat.trans hc)
  | some stand =>
    refine .act (.leave p) ?_ fun _ => trivial
    rw [hc] at hseat
    cases stand with
    | held f =>
      have hown : (fun g => if some (Seat.held f) = some (Seat.held g) then none else owner g) =
          Function.update owner f none := by
        funext g
        simp [Function.update_apply, eq_comm]
      rw [hown]
      simp only [step, hseat]
      rfl
    | opened f =>
      simp only [step, hseat]
      simp
    | released f =>
      simp only [step, hseat]
      simp

/-- A process removes the name, and ends. -/
theorem moves_remove {quiet : Prop} {f : Nat} (h : calls p = some c) (hc : seat c = some (.released f))
    (hquiet : quiet → Quiet (State.ofCalls named created owner calls seat) (.remove p)) :
    Moves (State.ofCalls named created owner calls seat) quiet
      (State.ofCalls none created (fun f => if seat c = some (.held f) then none else owner f)
        (Function.update calls p none) seat) := by
  refine .act (.remove p) ?_ hquiet
  have hseat : (State.ofCalls named created owner calls seat).seat p = some (.released f) :=
    (seat_ofCalls h).trans hc
  rw [ofCalls_update, Option.bind_none]
  simp only [step, hseat, hc]
  simp [State.ofCalls]

end calls

end NamedLock

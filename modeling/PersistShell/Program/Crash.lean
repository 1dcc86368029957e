import PersistShell.Program.Outcome

/-! A process that may die. Its program is a sequence of acts, each of which happens as a
whole or not at all, and the process dies once it has done as many as it has left. -/

namespace Program

/-- A state and the number of acts the process still lives for; `none` is no limit. -/
structure Mortal (σ : Type) where
  state : σ
  left : Option Nat := none

/-- The process lives for `n` more acts. -/
def Lives (left : Option Nat) (n : Nat) : Prop := ∀ k ∈ left, n ≤ k

variable {σ ε α : Type}

def act (f : σ → Except ε σ) : Program (Mortal σ) ε Unit := fun s =>
  match s.left with
  | some 0 => (.panic, s)
  | left =>
    match f s.state with
    | .ok t => (.ok (), ⟨t, left.map (· - 1)⟩)
    | .error e => (.err e, s)

def acts (step : α → σ → Except ε σ) (as : List α) : Program (Mortal σ) ε Unit :=
  forEach as fun a => act (step a)

/-- What the acts make of a state when nothing interrupts them. -/
def perform (step : α → σ → Except ε σ) (as : List α) (s : σ) : Except ε σ :=
  as.foldlM (fun s a => step a s) s

section perform

variable {step : α → σ → Except ε σ}

@[simp] theorem perform_nil (s : σ) : perform step [] s = .ok s := rfl

theorem perform_cons (a : α) (as : List α) (s : σ) :
    perform step (a :: as) s = step a s >>= perform step as := rfl

theorem perform_append (as bs : List α) (s : σ) :
    perform step (as ++ bs) s = perform step as s >>= perform step bs := by
  simp only [perform, List.foldlM_append]
  rfl

theorem perform_cons_ok {a : α} {as : List α} {s t : σ} (h : step a s = .ok t) :
    perform step (a :: as) s = perform step as t := by
  rw [perform_cons, h]
  rfl

theorem perform_append_ok {as bs : List α} {s t : σ} (h : perform step as s = .ok t) :
    perform step (as ++ bs) s = perform step bs t := by
  rw [perform_append, h]
  rfl

end perform

theorem Lives.mono {left : Option Nat} {m n : Nat} (h : Lives left n) (hle : m ≤ n) :
    Lives left m :=
  fun k hk => Nat.le_trans hle (h k hk)

theorem lives_none (n : Nat) : Lives none n := fun _ hk => by cases hk

theorem lives_some {n k : Nat} : Lives (some k) n ↔ n ≤ k :=
  ⟨fun h => h k rfl, fun h k' hk => by cases hk; exact h⟩

theorem Lives.spend {left : Option Nat} {m n : Nat} (h : Lives left (m + n)) :
    Lives (left.map (· - m)) n := by
  cases left with
  | none => exact lives_none n
  | some k => exact lives_some.mpr (Nat.le_sub_of_add_le' (lives_some.mp h))

section acts

variable {step : α → σ → Except ε σ} {left : Option Nat} {s t : σ}

theorem act_ok {f : σ → Except ε σ} (hleft : Lives left 1) (h : f s = .ok t) :
    act f ⟨s, left⟩ = (.ok (), ⟨t, left.map (· - 1)⟩) := by
  unfold act
  cases left with
  | none => rw [h]
  | some k =>
    cases k with
    | zero => exact absurd (lives_some.mp hleft) (by decide)
    | succ k => simp [h]

theorem act_err {f : σ → Except ε σ} {e : ε} (hleft : Lives left 1) (h : f s = .error e) :
    act f ⟨s, left⟩ = (.err e, ⟨s, left⟩) := by
  unfold act
  cases left with
  | none => rw [h]
  | some k =>
    cases k with
    | zero => exact absurd (lives_some.mp hleft) (by decide)
    | succ k => simp [h]

theorem acts_append (as bs : List α) :
    acts step (as ++ bs) = acts step as >>= fun _ => acts step bs := by
  induction as with
  | nil => rfl
  | cons a as ih =>
    funext s
    have hrest : acts step (a :: as ++ bs) = act (step a) >>= fun _ => acts step (as ++ bs) := rfl
    have hfirst : acts step (a :: as) = act (step a) >>= fun _ => acts step as := rfl
    rw [hrest, hfirst, ih]
    simp only [bind_apply]
    rcases act (step a) s with ⟨_ | _ | _, _⟩ <;> rfl

/-- Acts that all succeed, in a process that lives long enough. -/
theorem acts_done {as : List α} (hleft : Lives left as.length) (h : perform step as s = .ok t) :
    acts step as ⟨s, left⟩ = (.ok (), ⟨t, left.map (· - as.length)⟩) := by
  induction as generalizing s left with
  | nil =>
    cases h
    cases left <;> rfl
  | cons a as ih =>
    rw [perform_cons] at h
    cases ha : step a s with
    | error e => rw [ha] at h; cases h
    | ok r =>
      rw [ha] at h
      have hfirst := act_ok (hleft.mono (by simp)) ha
      have hlives : Lives (left.map (· - 1)) as.length :=
        Lives.spend (hleft.mono (by simp [Nat.add_comm]))
      refine (bind_ok hfirst).trans ((ih hlives h).trans ?_)
      cases left with
      | none => rfl
      | some n => simp [Nat.sub_sub, Nat.add_comm]

/-- A process that dies among acts that had all succeeded so far. -/
theorem acts_cut {as : List α} {n : Nat} (hn : n < as.length)
    (h : perform step (as.take n) s = .ok t) :
    acts step as ⟨s, some n⟩ = (.panic, ⟨t, some 0⟩) := by
  have hsplit : acts step as = acts step (as.take n) >>= fun _ => acts step (as.drop n) := by
    rw [← acts_append, List.take_append_drop]
  have hlen : (as.take n).length = n := List.length_take_of_le (Nat.le_of_lt hn)
  have hlives : Lives (some n) (as.take n).length := by
    rw [hlen]
    exact lives_some.mpr (Nat.le_refl n)
  have hdone := acts_done hlives h
  rw [hsplit, bind_ok hdone, hlen]
  obtain ⟨a, rest, hrest⟩ := List.exists_cons_of_length_pos
    (l := as.drop n) (by rw [List.length_drop]; omega)
  rw [hrest]
  simp [acts, act, bind_panic]

/-- An act fails: the process ends with its error, and the state stays as it was before. -/
theorem acts_fail {as bs : List α} {a : α} {e : ε} (hleft : Lives left (as.length + 1))
    (h : perform step as s = .ok t) (ha : step a t = .error e) :
    ∃ left', acts step (as ++ a :: bs) ⟨s, left⟩ = (.err e, ⟨t, left'⟩) := by
  have hdone := acts_done (hleft.mono (Nat.le_succ _)) h
  refine ⟨left.map (· - as.length), ?_⟩
  rw [acts_append, bind_ok hdone]
  exact bind_err (act_err hleft.spend ha)

end acts

end Program

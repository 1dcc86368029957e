/-! Programs over a state that return, fail or abort. A program is a function of the
state, so the state it leaves behind is there after a failure too. The rules below are
those of a triple with one postcondition for the result, one for the error, and no
execution that aborts. -/

namespace Program

/-- What a program ends with. -/
inductive Outcome (ε α : Type) where
  | ok (value : α)
  | err (error : ε)
  | panic
  deriving Repr, DecidableEq

end Program

/-- A check that returns early with an error. -/
def rejectIf {m : Type → Type} {ε : Type} [Monad m] [MonadExcept ε m] (c : Prop) [Decidable c]
    (error : ε) : m Unit :=
  if c then throw error else pure ()

/-- A program over states `σ` with errors `ε`. -/
def Program (σ ε α : Type) : Type := σ → Program.Outcome ε α × σ

namespace Program

variable {σ ε α β γ : Type}

protected def pure (a : α) : Program σ ε α := fun s => (.ok a, s)

protected def bind (m : Program σ ε α) (f : α → Program σ ε β) : Program σ ε β := fun s =>
  match m s with
  | (.ok a, s') => f a s'
  | (.err e, s') => (.err e, s')
  | (.panic, s') => (.panic, s')

instance : Monad (Program σ ε) where
  pure := Program.pure
  bind := Program.bind

def fail (e : ε) : Program σ ε α := fun s => (.err e, s)

def abort : Program σ ε α := fun s => (.panic, s)

def read (f : σ → α) : Program σ ε α := fun s => (.ok (f s), s)

def update (f : σ → σ) : Program σ ε Unit := fun s => (.ok (), f s)

instance : MonadExceptOf ε (Program σ ε) where
  throw := fail
  tryCatch m handle := fun s =>
    match m s with
    | (.err e, s') => handle e s'
    | r => r

/-- Runs `m` and hands its error over as a value. -/
def attempt (m : Program σ ε α) : Program σ ε (Except ε α) := fun s =>
  match m s with
  | (.ok a, s') => (.ok (.ok a), s')
  | (.err e, s') => (.ok (.error e), s')
  | (.panic, s') => (.panic, s')

/-- The value of an option that the code unwraps. -/
def unwrap : Option α → Program σ ε α
  | some a => Program.pure a
  | none => abort

/-- A result computed without touching the state. -/
def lift : Except ε α → Program σ ε α
  | .ok a => Program.pure a
  | .error e => fail e

/-- A program over a part of the state. -/
def zoom {τ : Type} (get : σ → τ) (set : τ → σ → σ) (m : Program τ ε α) : Program σ ε α :=
  fun s => ((m (get s)).1, set (m (get s)).2 s)

def forEach : List α → (α → Program σ ε Unit) → Program σ ε Unit
  | [], _ => Program.pure ()
  | a :: as, f => Program.bind (f a) fun _ => forEach as f

section equations

@[simp] theorem pure_apply (a : α) (s : σ) : (pure a : Program σ ε α) s = (.ok a, s) := rfl

theorem bind_apply (m : Program σ ε α) (f : α → Program σ ε β) (s : σ) :
    (m >>= f) s = match m s with
      | (.ok a, s') => f a s'
      | (.err e, s') => (.err e, s')
      | (.panic, s') => (.panic, s') := rfl

theorem bind_ok {m : Program σ ε α} {f : α → Program σ ε β} {s s' : σ} {a : α}
    (h : m s = (.ok a, s')) : (m >>= f) s = f a s' := by
  rw [bind_apply, h]

theorem bind_err {m : Program σ ε α} {f : α → Program σ ε β} {s s' : σ} {e : ε}
    (h : m s = (.err e, s')) : (m >>= f) s = (.err e, s') := by
  rw [bind_apply, h]

theorem bind_panic {m : Program σ ε α} {f : α → Program σ ε β} {s s' : σ}
    (h : m s = (.panic, s')) : (m >>= f) s = (.panic, s') := by
  rw [bind_apply, h]

/-- A sequence returns when both of its parts do. -/
theorem bind_returns {m : Program σ ε α} {f : α → Program σ ε β} {s s' : σ} {b : β} :
    (m >>= f) s = (.ok b, s') ↔ ∃ a t, m s = (.ok a, t) ∧ f a t = (.ok b, s') := by
  rw [bind_apply]
  rcases m s with ⟨a | e | _, t⟩
  · exact ⟨fun h => ⟨a, t, rfl, h⟩, fun ⟨a', t', hm, h⟩ => by cases hm; exact h⟩
  · exact ⟨fun h => (nomatch h), fun ⟨_, _, hm, _⟩ => (nomatch hm)⟩
  · exact ⟨fun h => (nomatch h), fun ⟨_, _, hm, _⟩ => (nomatch hm)⟩

@[simp] theorem fail_apply (e : ε) (s : σ) : (fail e : Program σ ε α) s = (.err e, s) := rfl

@[simp] theorem abort_apply (s : σ) : (abort : Program σ ε α) s = (.panic, s) := rfl

@[simp] theorem read_apply (f : σ → α) (s : σ) :
    (read f : Program σ ε α) s = (.ok (f s), s) := rfl

@[simp] theorem update_apply (f : σ → σ) (s : σ) :
    (update f : Program σ ε Unit) s = (.ok (), f s) := rfl

theorem attempt_apply (m : Program σ ε α) (s : σ) :
    attempt m s = match m s with
      | (.ok a, s') => (.ok (.ok a), s')
      | (.err e, s') => (.ok (.error e), s')
      | (.panic, s') => (.panic, s') := rfl

@[simp] theorem unwrap_some (a : α) : (unwrap (some a) : Program σ ε α) = pure a := rfl

@[simp] theorem unwrap_none : (unwrap none : Program σ ε α) = abort := rfl

@[simp] theorem lift_ok (a : α) : (lift (.ok a) : Program σ ε α) = pure a := rfl

@[simp] theorem lift_error (e : ε) : (lift (.error e) : Program σ ε α) = fail e := rfl

theorem reject_err {c : Prop} [Decidable c] {e : ε} (h : c) (s : σ) :
    (rejectIf c e : Program σ ε Unit) s = (.err e, s) := by
  unfold rejectIf
  rw [if_pos h]
  rfl

theorem reject_ok {c : Prop} [Decidable c] {e : ε} (h : ¬ c) (s : σ) :
    (rejectIf c e : Program σ ε Unit) s = (.ok (), s) := by
  unfold rejectIf
  rw [if_neg h]
  rfl

theorem lift_returns {r : Except ε α} {s s' : σ} {a : α} :
    (lift r : Program σ ε α) s = (.ok a, s') ↔ r = .ok a ∧ s' = s := by
  cases r with
  | ok b =>
    constructor
    · intro h
      cases h
      exact ⟨rfl, rfl⟩
    · rintro ⟨h, rfl⟩
      cases h
      rfl
  | error e =>
    constructor
    · intro h
      cases h
    · rintro ⟨h, -⟩
      cases h

theorem reject_returns {c : Prop} [Decidable c] {e : ε} {s s' : σ} {u : Unit} :
    (rejectIf c e : Program σ ε Unit) s = (.ok u, s') ↔ ¬ c ∧ s' = s := by
  by_cases hc : c
  · rw [reject_err hc]
    constructor
    · intro h
      cases h
    · rintro ⟨h, -⟩
      exact absurd hc h
  · rw [reject_ok hc]
    constructor
    · intro h
      cases h
      exact ⟨hc, rfl⟩
    · rintro ⟨-, rfl⟩
      rfl

@[simp] theorem forEach_nil (f : α → Program σ ε Unit) : forEach [] f = pure () := rfl

@[simp] theorem forEach_cons (a : α) (as : List α) (f : α → Program σ ε Unit) :
    forEach (a :: as) f = f a >>= fun _ => forEach as f := rfl

end equations

/-- From every state in `P`, the program does not abort; what it returns is in `Q`, what it
fails with is in `E`. -/
def Triple (P : σ → Prop) (m : Program σ ε α) (Q : α → σ → Prop) (E : ε → σ → Prop) : Prop :=
  ∀ s, P s → match m s with
    | (.ok a, s') => Q a s'
    | (.err e, s') => E e s'
    | (.panic, _) => False

/-- `J` survives the program, whether it returns or fails. -/
def Keeps (J : σ → Prop) (m : Program σ ε α) : Prop := Triple J m (fun _ => J) (fun _ => J)

section rules

variable {P P' J : σ → Prop} {Q Q' : α → σ → Prop} {E E' : ε → σ → Prop}
  {m : Program σ ε α}

theorem Triple.conseq (h : Triple P m Q E) (hP : ∀ s, P' s → P s)
    (hQ : ∀ a s, Q a s → Q' a s) (hE : ∀ e s, E e s → E' e s) : Triple P' m Q' E' := by
  intro s hs
  have := h s (hP s hs)
  revert this
  rcases m s with ⟨_ | _ | _, s'⟩
  · exact hQ _ _
  · exact hE _ _
  · exact id

theorem Triple.pre (h : Triple P m Q E) (hP : ∀ s, P' s → P s) : Triple P' m Q E :=
  h.conseq hP (fun _ _ => id) (fun _ _ => id)

theorem Triple.post (h : Triple P m Q E) (hQ : ∀ a s, Q a s → Q' a s) : Triple P m Q' E :=
  h.conseq (fun _ => id) hQ (fun _ _ => id)

/-- A triple may be shown for each state on its own. -/
theorem Triple.each (h : ∀ s, P s → Triple (fun s' => s' = s) m Q E) : Triple P m Q E :=
  fun s hs => h s hs s rfl

theorem Triple.pure {a : α} (h : ∀ s, P s → Q a s) :
    Triple P (Pure.pure a : Program σ ε α) Q E := h

theorem Triple.fail {e : ε} (h : ∀ s, P s → E e s) :
    Triple P (Program.fail e : Program σ ε α) Q E := h

theorem Triple.read {f : σ → α} (h : ∀ s, P s → Q (f s) s) :
    Triple P (Program.read f : Program σ ε α) Q E := h

theorem Triple.update {f : σ → σ} {Q : Unit → σ → Prop} (h : ∀ s, P s → Q () (f s)) :
    Triple P (Program.update f : Program σ ε Unit) Q E := h

theorem Triple.bind {f : α → Program σ ε β} {R : β → σ → Prop} (hm : Triple P m Q E)
    (hf : ∀ a, Triple (Q a) (f a) R E) : Triple P (m >>= f) R E := by
  intro s hs
  have := hm s hs
  rw [bind_apply]
  revert this
  rcases m s with ⟨a | e | _, s'⟩
  · exact hf a s'
  · exact id
  · exact id

theorem Triple.attempt (h : Triple P m Q E) :
    Triple P (Program.attempt m)
      (fun r s => match r with | .ok a => Q a s | .error e => E e s) E' := by
  intro s hs
  have := h s hs
  rw [attempt_apply]
  revert this
  rcases m s with ⟨a | e | _, s'⟩ <;> exact id

theorem Triple.unwrap {o : Option α} (h : ∀ s, P s → ∃ a, o = some a ∧ Q a s) :
    Triple P (Program.unwrap o : Program σ ε α) Q E := by
  intro s hs
  obtain ⟨a, rfl, ha⟩ := h s hs
  exact ha

theorem Triple.lift {r : Except ε α} (hok : ∀ a, r = .ok a → ∀ s, P s → Q a s)
    (herr : ∀ e, r = .error e → ∀ s, P s → E e s) :
    Triple P (Program.lift r : Program σ ε α) Q E := by
  cases r with
  | ok a => exact hok a rfl
  | error e => exact herr e rfl

/-- The invariant of a loop speaks of the elements still to come. -/
theorem Triple.forEach {f : β → Program σ ε Unit} {I : List β → σ → Prop}
    (h : ∀ b bs, Triple (I (b :: bs)) (f b) (fun _ => I bs) E) (bs : List β) :
    Triple (I bs) (Program.forEach bs f) (fun _ => I []) E := by
  induction bs with
  | nil => exact Triple.pure fun _ => id
  | cons b bs ih => exact Triple.bind (h b bs) fun _ => ih

/-- The invariant of a loop that carries a value speaks of the elements still to come. -/
theorem Triple.foldlM {f : α → β → Program σ ε α} {I : List β → α → σ → Prop}
    (h : ∀ b bs a, Triple (I (b :: bs) a) (f a b) (fun a' => I bs a') E) (bs : List β) (a : α) :
    Triple (I bs a) (bs.foldlM f a) (fun a' => I [] a') E := by
  induction bs generalizing a with
  | nil => exact Triple.pure fun _ => id
  | cons b bs ih =>
    rw [List.foldlM_cons]
    exact Triple.bind (h b bs a) fun a' => ih a'

theorem Triple.of_false (h : ∀ s, ¬ P s) : Triple P m Q E := fun s hs => (h s hs).elim

theorem Keeps.pure (a : α) : Keeps J (Pure.pure a : Program σ ε α) := fun _ => id

theorem Keeps.fail (e : ε) : Keeps J (Program.fail e : Program σ ε α) := fun _ => id

theorem Keeps.read (f : σ → α) : Keeps J (Program.read f : Program σ ε α) := fun _ => id

theorem Keeps.update {f : σ → σ} (h : ∀ s, J s → J (f s)) :
    Keeps J (Program.update f : Program σ ε Unit) := h

theorem Keeps.bind {f : α → Program σ ε β} (hm : Keeps J m) (hf : ∀ a, Keeps J (f a)) :
    Keeps J (m >>= f) :=
  Triple.bind hm hf

theorem Keeps.attempt (h : Keeps J m) : Keeps J (Program.attempt m) :=
  (Triple.attempt h).post fun r _ => by cases r <;> exact id

theorem Keeps.lift (r : Except ε α) : Keeps J (Program.lift r : Program σ ε α) :=
  Triple.lift (fun _ _ _ => id) fun _ _ _ => id

theorem Keeps.reject (c : Prop) [Decidable c] (e : ε) :
    Keeps J (rejectIf c e : Program σ ε Unit) := by
  unfold rejectIf
  split
  · exact Keeps.fail e
  · exact Keeps.pure ()

theorem Keeps.forEach {f : β → Program σ ε Unit} (h : ∀ b, Keeps J (f b)) (bs : List β) :
    Keeps J (Program.forEach bs f) :=
  Triple.forEach (I := fun _ => J) (fun b _ => h b) bs

end rules

/-- `J` survives the program, however it ends. -/
def Leaves (J : σ → Prop) (m : Program σ ε α) : Prop := ∀ s, J s → J (m s).2

section leaves

variable {J : σ → Prop} {m : Program σ ε α}

theorem Leaves.run {s s' : σ} {r : Outcome ε α} (h : Leaves J m) (hrun : m s = (r, s'))
    (hs : J s) : J s' := by
  have := h s hs
  rw [hrun] at this
  exact this

theorem Leaves.pure (a : α) : Leaves J (Pure.pure a : Program σ ε α) := fun _ => id

theorem Leaves.fail (e : ε) : Leaves J (Program.fail e : Program σ ε α) := fun _ => id

theorem Leaves.read (f : σ → α) : Leaves J (Program.read f : Program σ ε α) := fun _ => id

theorem Leaves.update {f : σ → σ} (h : ∀ s, J s → J (f s)) :
    Leaves J (Program.update f : Program σ ε Unit) := h

theorem Leaves.bind {f : α → Program σ ε β} (hm : Leaves J m) (hf : ∀ a, Leaves J (f a)) :
    Leaves J (m >>= f) := by
  intro s hs
  have := hm s hs
  rw [bind_apply]
  revert this
  rcases m s with ⟨a | e | _, s'⟩
  · exact hf a s'
  · exact id
  · exact id

theorem Leaves.lift (r : Except ε α) : Leaves J (Program.lift r : Program σ ε α) := by
  cases r with
  | ok a => exact Leaves.pure a
  | error e => exact Leaves.fail e

theorem Leaves.abort : Leaves J (Program.abort : Program σ ε α) := fun _ => id

theorem Leaves.unwrap (o : Option α) : Leaves J (Program.unwrap o : Program σ ε α) := by
  cases o with
  | none => exact Leaves.abort
  | some a => exact Leaves.pure a

theorem Leaves.attempt (h : Leaves J m) : Leaves J (Program.attempt m) := by
  intro s hs
  have := h s hs
  rw [attempt_apply]
  revert this
  rcases m s with ⟨a | e | _, s'⟩ <;> exact id

theorem Leaves.forEach {f : β → Program σ ε Unit} (h : ∀ b, Leaves J (f b)) (bs : List β) :
    Leaves J (Program.forEach bs f) := by
  induction bs with
  | nil => exact Leaves.pure ()
  | cons b bs ih => exact Leaves.bind (h b) fun _ => ih

/-- A loop whose passes are known to be for certain elements. -/
theorem Leaves.forEach_mem {f : β → Program σ ε Unit} {bs : List β}
    (h : ∀ b ∈ bs, Leaves J (f b)) : Leaves J (Program.forEach bs f) := by
  induction bs with
  | nil => exact Leaves.pure ()
  | cons b bs ih =>
    exact Leaves.bind (h b List.mem_cons_self) fun _ =>
      ih fun b hb => h b (List.mem_cons_of_mem _ hb)

/-- What is read is known of a state in `J`. -/
theorem Leaves.read_bind {g : σ → α} {f : α → Program σ ε β}
    (h : ∀ s, J s → Leaves J (f (g s))) : Leaves J (Program.read g >>= f) :=
  fun s hs => h s hs s hs

theorem Leaves.foldlM {f : α → β → Program σ ε α} (h : ∀ a b, Leaves J (f a b)) (bs : List β)
    (a : α) : Leaves J (bs.foldlM f a) := by
  induction bs generalizing a with
  | nil => exact Leaves.pure a
  | cons b bs ih =>
    rw [List.foldlM_cons]
    exact Leaves.bind (h a b) ih

/-- What a program leaves of a part of the state, seen from the whole. -/
theorem Leaves.zoom {τ : Type} {get : σ → τ} {set : τ → σ → σ} {m : Program τ ε α}
    {K : τ → Prop} (h : Leaves K m) (hget : ∀ s, J s → K (get s))
    (hset : ∀ t s, J s → K t → J (set t s)) : Leaves J (Program.zoom get set m) :=
  fun s hs => hset _ s hs (h _ (hget s hs))

theorem Leaves.reject (c : Prop) [Decidable c] (e : ε) :
    Leaves J (rejectIf c e : Program σ ε Unit) := by
  unfold rejectIf
  split
  · exact Leaves.fail e
  · exact Leaves.pure ()

end leaves

/-- From every state in `P`, the program returns into `Q`, or ends otherwise in `J`. -/
def Within (P : σ → Prop) (m : Program σ ε α) (Q : α → σ → Prop) (J : σ → Prop) : Prop :=
  ∀ s, P s → match m s with
    | (.ok a, s') => Q a s'
    | (_, s') => J s'

section within

variable {P P' J : σ → Prop} {Q Q' : α → σ → Prop} {m : Program σ ε α}

theorem Within.conseq (h : Within P m Q J) (hP : ∀ s, P' s → P s)
    (hQ : ∀ a s, Q a s → Q' a s) : Within P' m Q' J := by
  intro s hs
  have := h s (hP s hs)
  revert this
  rcases m s with ⟨_ | _ | _, s'⟩
  · exact hQ _ _
  · exact id
  · exact id

theorem Within.pre (h : Within P m Q J) (hP : ∀ s, P' s → P s) : Within P' m Q J :=
  h.conseq hP fun _ _ => id

theorem Within.post (h : Within P m Q J) (hQ : ∀ a s, Q a s → Q' a s) : Within P m Q' J :=
  h.conseq (fun _ => id) hQ

theorem Within.weaken {J' : σ → Prop} (h : Within P m Q J) (hJ : ∀ s, J s → J' s) :
    Within P m Q J' := by
  intro s hs
  have := h s hs
  revert this
  rcases m s with ⟨_ | _ | _, s'⟩
  · exact id
  · exact hJ _
  · exact hJ _

theorem Within.each (h : ∀ s, P s → Within (fun s' => s' = s) m Q J) : Within P m Q J :=
  fun s hs => h s hs s rfl

theorem Within.pure {a : α} (h : ∀ s, P s → Q a s) :
    Within P (Pure.pure a : Program σ ε α) Q J := h

theorem Within.fail {e : ε} (h : ∀ s, P s → J s) :
    Within P (Program.fail e : Program σ ε α) Q J := h

theorem Within.abort (h : ∀ s, P s → J s) : Within P (Program.abort : Program σ ε α) Q J := h

theorem Within.read {f : σ → α} (h : ∀ s, P s → Q (f s) s) :
    Within P (Program.read f : Program σ ε α) Q J := h

theorem Within.update {f : σ → σ} {Q : Unit → σ → Prop} (h : ∀ s, P s → Q () (f s)) :
    Within P (Program.update f : Program σ ε Unit) Q J := h

theorem Within.bind {f : α → Program σ ε β} {R : β → σ → Prop} (hm : Within P m Q J)
    (hf : ∀ a, Within (Q a) (f a) R J) : Within P (m >>= f) R J := by
  intro s hs
  have := hm s hs
  rw [bind_apply]
  revert this
  rcases m s with ⟨a | e | _, s'⟩
  · exact hf a s'
  · exact id
  · exact id

/-- What is read is known of the state. -/
theorem Within.read_bind {g : σ → α} {f : α → Program σ ε β} {R : β → σ → Prop}
    (h : ∀ s, P s → Within (fun s' => s' = s) (f (g s)) R J) :
    Within P (Program.read g >>= f) R J :=
  fun s hs => h s hs s rfl

theorem Within.lift {r : Except ε α} (hok : ∀ a, r = .ok a → ∀ s, P s → Q a s)
    (herr : ∀ s, P s → J s) : Within P (Program.lift r : Program σ ε α) Q J := by
  cases r with
  | ok a => exact hok a rfl
  | error e => exact herr

theorem Within.unwrap {o : Option α} (hsome : ∀ a, o = some a → ∀ s, P s → Q a s)
    (hnone : ∀ s, P s → J s) : Within P (Program.unwrap o : Program σ ε α) Q J := by
  cases o with
  | none => exact hnone
  | some a => exact hsome a rfl

theorem Within.reject (hJ : ∀ s, P s → J s) (c : Prop) [Decidable c] (e : ε) :
    Within P (rejectIf c e : Program σ ε Unit) (fun _ s => P s ∧ ¬ c) J := by
  unfold rejectIf
  split
  · exact Within.fail hJ
  · rename_i hc
    exact Within.pure fun _ hs => ⟨hs, hc⟩

theorem Within.of_leaves (h : Leaves J m) (hP : ∀ s, P s → J s) :
    Within P m (fun _ => J) J := by
  intro s hs
  have := h s (hP s hs)
  revert this
  rcases m s with ⟨_ | _ | _, s'⟩ <;> exact id

/-- What is known of the result of the first part. -/
theorem Leaves.bind_within {f : α → Program σ ε β} {K : α → Prop}
    (hm : Within J m (fun a s => J s ∧ K a) J) (hf : ∀ a, K a → Leaves J (f a)) :
    Leaves J (m >>= f) := by
  intro s hs
  have := hm s hs
  rw [bind_apply]
  revert this
  rcases m s with ⟨a | e | _, s'⟩
  · exact fun h => hf a h.2 s' h.1
  · exact id
  · exact id

/-- What a triple says, beside what the program leaves in any case. -/
theorem Triple.within_leaves {E : ε → σ → Prop} (h : Triple P m Q E) (hJ : Leaves J m)
    {K : σ → Prop} (hK : ∀ s, J s → K s) :
    Within (fun s => P s ∧ J s) m (fun a s => Q a s ∧ J s) K := by
  intro s hs
  have htriple := h s hs.1
  have hleaves := hJ s hs.2
  revert htriple hleaves
  rcases m s with ⟨a | e | _, s'⟩
  · exact fun hQ hJ => ⟨hQ, hJ⟩
  · exact fun _ hJ => hK _ hJ
  · exact fun _ hJ => hK _ hJ

theorem Within.forEach {f : β → Program σ ε Unit} {I : List β → σ → Prop}
    (h : ∀ b bs, Within (I (b :: bs)) (f b) (fun _ => I bs) J) (bs : List β) :
    Within (I bs) (Program.forEach bs f) (fun _ => I []) J := by
  induction bs with
  | nil => exact Within.pure fun _ => id
  | cons b bs ih => exact Within.bind (h b bs) fun _ => ih

/-- An error is handed over as a value; only an abort still ends the program. -/
theorem Within.attempt (h : Within P m Q J) :
    Within P (Program.attempt m)
      (fun r s => match r with | .ok a => Q a s | .error _ => J s) J := by
  intro s hs
  have := h s hs
  rw [attempt_apply]
  revert this
  rcases m s with ⟨a | e | _, s'⟩ <;> exact id

theorem Triple.attempt_within {E : ε → σ → Prop} (h : Triple P m Q E) :
    Within P (Program.attempt m)
      (fun r s => match r with | .ok a => Q a s | .error e => E e s) J := by
  intro s hs
  have := h s hs
  rw [attempt_apply]
  revert this
  rcases m s with ⟨a | e | _, s'⟩
  · exact id
  · exact id
  · exact False.elim

theorem Within.leaves (h : Within P m Q J) (hQ : ∀ a s, Q a s → J s) {s : σ} (hs : P s) :
    J (m s).2 := by
  have := h s hs
  revert this
  rcases m s with ⟨a | e | _, s'⟩
  · exact hQ a s'
  · exact id
  · exact id

theorem Within.run (h : Within P m Q J) {s s' : σ} {a : α} (hrun : m s = (.ok a, s'))
    (hs : P s) : Q a s' := by
  have := h s hs
  rw [hrun] at this
  exact this

/-- What a program does to a part of the state, seen from the whole. -/
theorem Within.zoom {τ : Type} {get : σ → τ} {set : τ → σ → σ} {m : Program τ ε α}
    (h : ∀ s, P s → Within (fun t => t = get s) m (fun a t => Q a (set t s))
      (fun t => J (set t s))) : Within P (Program.zoom get set m) Q J := by
  intro s hs
  have := h s hs (get s) rfl
  simp only [Program.zoom]
  revert this
  rcases m (get s) with ⟨a | e | _, t⟩ <;> exact id

end within

/-- From every state in `J`, the program returns into `J` or fails with an error in `E`; it may
also abort. -/
def FailsWith (E : ε → Prop) (J : σ → Prop) (m : Program σ ε α) : Prop :=
  ∀ s, J s → match m s with
    | (.ok _, s') => J s'
    | (.err e, _) => E e
    | (.panic, _) => True

section failsWith

variable {E : ε → Prop} {J : σ → Prop} {m : Program σ ε α}

theorem FailsWith.pure (a : α) : FailsWith E J (Pure.pure a : Program σ ε α) := fun _ => id

theorem FailsWith.fail {e : ε} (h : E e) : FailsWith E J (Program.fail e : Program σ ε α) :=
  fun _ _ => h

theorem FailsWith.abort : FailsWith E J (Program.abort : Program σ ε α) := fun _ _ => trivial

theorem FailsWith.read (f : σ → α) : FailsWith E J (Program.read f : Program σ ε α) := fun _ => id

theorem FailsWith.update {f : σ → σ} (h : ∀ s, J s → J (f s)) :
    FailsWith E J (Program.update f : Program σ ε Unit) := h

theorem FailsWith.bind {f : α → Program σ ε β} (hm : FailsWith E J m)
    (hf : ∀ a, FailsWith E J (f a)) : FailsWith E J (m >>= f) := by
  intro s hs
  have := hm s hs
  rw [bind_apply]
  revert this
  rcases m s with ⟨a | e | _, s'⟩
  · exact hf a s'
  · exact id
  · exact id

/-- What is read is known of the state. -/
theorem FailsWith.read_bind {g : σ → α} {f : α → Program σ ε β}
    (h : ∀ s, J s → FailsWith E (fun s' => J s' ∧ s' = s) (f (g s)))
    (hJ : ∀ a, Leaves J (f a)) : FailsWith E J (Program.read g >>= f) := by
  intro s hs
  have hrun := h s hs s ⟨hs, rfl⟩
  have hleaves := hJ (g s) s hs
  change match f (g s) s with
    | (.ok _, s') => J s'
    | (.err e, _) => E e
    | (.panic, _) => True
  revert hrun hleaves
  rcases f (g s) s with ⟨a | e | _, s'⟩
  · exact fun _ => id
  · exact fun h _ => h
  · exact fun _ _ => trivial

theorem FailsWith.unwrap (o : Option α) : FailsWith E J (Program.unwrap o : Program σ ε α) := by
  cases o with
  | none => exact FailsWith.abort
  | some a => exact FailsWith.pure a

theorem FailsWith.run {s s' : σ} {e : ε} (h : FailsWith E J m) (hs : J s)
    (hrun : m s = (.err e, s')) : E e := by
  have := h s hs
  rw [hrun] at this
  exact this

end failsWith

end Program

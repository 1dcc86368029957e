import Mathlib.Data.List.Basic

/-! Readers that take a value off the front of an input: what they take, that what comes behind it
does not matter, and that a part of it is too short. -/

namespace Reading

variable {σ ε α β : Type} {m : StateT (List σ) (Except ε) α}
  {f : α → StateT (List σ) (Except ε) β} {front back : List σ} {a : α} {b : β} {e : ε}

theorem bind_eq_ok {input rest : List σ} : (m >>= f) input = .ok (b, rest) ↔
    ∃ a left, m input = .ok (a, left) ∧ f a left = .ok (b, rest) := by
  change (m input >>= fun p => f p.1 p.2) = _ ↔ _
  cases m input with
  | error e => exact ⟨fun h => (by cases h), fun ⟨_, _, h, _⟩ => (by cases h)⟩
  | ok p =>
    refine ⟨fun h => ⟨p.1, p.2, rfl, h⟩, ?_⟩
    rintro ⟨a, left, hp, h⟩
    cases hp
    exact h

theorem bind_error {input : List σ} (h : m input = .error e) : (m >>= f) input = .error e := by
  change (m input >>= fun p => f p.1 p.2) = _
  rw [h]
  rfl

/-- The reader takes `front` off an input and makes `a` of it. -/
def Reads (m : StateT (List σ) (Except ε) α) (front : List σ) (a : α) : Prop :=
  ∀ rest, m (front ++ rest) = .ok (a, rest)

/-- What comes behind the part that is read does not matter. -/
def Extends (m : StateT (List σ) (Except ε) α) : Prop :=
  ∀ input a rest, m input = .ok (a, rest) → ∀ more, m (input ++ more) = .ok (a, rest ++ more)

/-- What is read and the part it was read from are in `Q`. -/
def Takes (m : StateT (List σ) (Except ε) α) (Q : α → List σ → Prop) : Prop :=
  ∀ input a rest, m input = .ok (a, rest) → ∃ front, input = front ++ rest ∧ Q a front

/-- With a piece missing at the end, the reader fails with this error. -/
def Short (e : ε) (m : StateT (List σ) (Except ε) α) (whole : List σ) : Prop :=
  ∀ front missing, front ++ missing = whole → missing ≠ [] → m front = .error e

section extends_

theorem Extends.pure (a : α) : Extends (Pure.pure a : StateT (List σ) (Except ε) α) := by
  intro input b rest h more
  cases h
  rfl

theorem Extends.throw (e : ε) : Extends (throw e : StateT (List σ) (Except ε) α) :=
  fun _ _ _ h => by cases h

theorem Extends.bind (hm : Extends m) (hf : ∀ a, Extends (f a)) : Extends (m >>= f) := by
  intro input b rest h more
  obtain ⟨a, left, hfirst, hrest⟩ := bind_eq_ok.mp h
  exact bind_eq_ok.mpr ⟨a, left ++ more, hm _ _ _ hfirst more, hf a _ _ _ hrest more⟩

/-- What is read whole is not read of a part, and not without a rest of more. -/
theorem Extends.exact (hm : Extends m) (h : Reads m front a) {input rest : List σ} {b : α}
    (hread : m input = .ok (b, [])) (hsplit : input ++ rest = front ∨ input = front ++ rest) :
    rest = [] := by
  rcases hsplit with rfl | rfl
  · have hwhole := h []
    rw [List.append_nil, hm _ _ _ hread rest] at hwhole
    exact (Prod.mk.inj (Except.ok.inj hwhole)).2
  · rw [h rest] at hread
    exact (Prod.mk.inj (Except.ok.inj hread)).2

end extends_

section takes

variable {Q : α → List σ → Prop} {R : β → List σ → Prop}

theorem Takes.pure {a : α} (h : Q a []) :
    Takes (Pure.pure a : StateT (List σ) (Except ε) α) Q := by
  intro input b rest hread
  cases hread
  exact ⟨[], rfl, h⟩

theorem Takes.throw (e : ε) : Takes (throw e : StateT (List σ) (Except ε) α) Q :=
  fun _ _ _ h => by cases h

theorem Takes.bind (hm : Takes m Q)
    (hf : ∀ a front, Q a front → Takes (f a) fun b back => R b (front ++ back)) :
    Takes (m >>= f) R := by
  intro input b rest h
  obtain ⟨a, left, hfirst, hrest⟩ := bind_eq_ok.mp h
  obtain ⟨front, rfl, hQ⟩ := hm _ _ _ hfirst
  obtain ⟨back, rfl, hR⟩ := hf a front hQ _ _ _ hrest
  exact ⟨front ++ back, (List.append_assoc ..).symm, hR⟩

end takes

section short

theorem Short.first (hm : Short e m front) : Short e (m >>= f) front :=
  fun part missing hsplit hmissing => bind_error (hm part missing hsplit hmissing)

theorem Short.bind (hm : Short e m front) (hreads : Reads m front a) (hf : Short e (f a) back) :
    Short e (m >>= f) (front ++ back) := by
  have hlater : ∀ part missing, part ++ missing = back → missing ≠ [] →
      (m >>= f) (front ++ part) = .error e := by
    intro part missing hsplit hmissing
    change (m (front ++ part) >>= fun p => f p.1 p.2) = _
    rw [hreads part]
    exact hf part missing hsplit hmissing
  intro part missing hsplit hmissing
  rcases List.append_eq_append_iff.mp hsplit with ⟨tail, hfront, hback⟩ | ⟨tail, hpart, hback⟩
  · by_cases htail : tail = []
    · subst htail
      rw [List.append_nil] at hfront
      rw [List.nil_append] at hback
      have hnone := hlater [] missing hback hmissing
      rw [List.append_nil, hfront] at hnone
      exact hnone
    · exact bind_error (hm part tail hfront.symm htail)
  · rw [hpart]
    exact hlater tail missing hback.symm hmissing

end short

end Reading

import Mathlib.Data.List.Basic

/-! Chains of points, each of which may have a next one, and what is found at the nearest point
of a chain. A chain may run into a circle. -/

namespace Chains

section nearest

variable {α β : Type} (next : α → Option α) (found : α → Option β)

/-- The point of a chain after some steps. -/
def after : Nat → α → Option α
  | 0, a => some a
  | n + 1, a => (next a).bind (after n)

/-- What is found at the first point of a chain at which there is something. -/
def Nearest (a : α) (b : β) : Prop :=
  ∃ n c, after next n a = some c ∧ found c = some b ∧
    ∀ m < n, ∀ d, after next m a = some d → found d = none

variable {next found} {a c : α} {b : β}

theorem nearest_here (h : found a = some b) : Nearest next found a b :=
  ⟨0, a, rfl, h, fun m hm => absurd hm (Nat.not_lt_zero m)⟩

theorem nearest_next (hnone : found a = none) (hnext : next a = some c)
    (h : Nearest next found c b) : Nearest next found a b := by
  obtain ⟨n, d, hafter, hfound, hfirst⟩ := h
  refine ⟨n + 1, d, ?_, hfound, fun m hm e he => ?_⟩
  · rw [after, hnext, Option.bind_some, hafter]
  · cases m with
    | zero =>
      rw [← Option.some.inj he]
      exact hnone
    | succ m =>
      rw [after, hnext, Option.bind_some] at he
      exact hfirst m (Nat.lt_of_succ_lt_succ hm) e he

/-- Something is found here, or on the way from the next point. -/
theorem nearest_cases (h : Nearest next found a b) :
    found a = some b ∨ found a = none ∧ ∃ c, next a = some c ∧ Nearest next found c b := by
  obtain ⟨n, d, hafter, hfound, hfirst⟩ := h
  cases n with
  | zero =>
    rw [← Option.some.inj hafter] at hfound
    exact Or.inl hfound
  | succ n =>
    obtain ⟨c, hnext, hrest⟩ := Option.bind_eq_some_iff.mp hafter
    refine Or.inr ⟨hfirst 0 (Nat.succ_pos n) a rfl, c, hnext, n, d, hrest, hfound,
      fun m hm e he => ?_⟩
    refine hfirst (m + 1) (Nat.succ_lt_succ hm) e ?_
    rw [after, hnext, Option.bind_some, he]

theorem nearest_unique {b' : β} (h : Nearest next found a b) (h' : Nearest next found a b') :
    b = b' := by
  obtain ⟨n, c, hafter, hfound, hfirst⟩ := h
  obtain ⟨n', c', hafter', hfound', hfirst'⟩ := h'
  rcases Nat.lt_trichotomy n n' with hlt | rfl | hlt
  · rw [hfirst' n hlt c hafter] at hfound
    cases hfound
  · rw [← Option.some.inj (hafter.symm.trans hafter'), hfound] at hfound'
    exact Option.some.inj hfound'
  · rw [hfirst n' hlt c' hafter'] at hfound'
    cases hfound'

/-- Nothing is found in a set of points that a chain does not leave. -/
theorem not_nearest_of_closed {closed : α → Prop}
    (hclosed : ∀ a, closed a → found a = none ∧ ∀ c, next a = some c → closed c)
    (ha : closed a) : ¬ Nearest next found a b := by
  rintro ⟨n, c, hafter, hfound, -⟩
  induction n generalizing a with
  | zero =>
    rw [← Option.some.inj hafter, (hclosed a ha).1] at hfound
    cases hfound
  | succ n ih =>
    obtain ⟨d, hnext, hrest⟩ := Option.bind_eq_some_iff.mp hafter
    exact ih ((hclosed a ha).2 d hnext) hrest

end nearest

section search

variable {α β : Type} {next : α → Option α} {found : α → Option β}

/-- What is known when a search has come to a point: there is nothing behind it, and it came from
there. -/
structure Trail (next : α → Option α) (found : α → Option β) (visited : List α) (a : α) : Prop where
  nothing : ∀ v ∈ visited, found v = none
  linked : ∀ v ∈ visited, ∀ c, next v = some c → c ∈ visited ∨ c = a

theorem Trail.nil (a : α) : Trail next found [] a :=
  ⟨fun _ h => (by cases h), fun _ h => (by cases h)⟩

theorem Trail.step {visited : List α} {a c : α} (h : Trail next found visited a)
    (hnone : found a = none) (hnext : next a = some c) : Trail next found (a :: visited) c := by
  refine ⟨fun v hv => ?_, fun v hv d hd => ?_⟩
  · rcases List.mem_cons.mp hv with rfl | hv
    · exact hnone
    · exact h.nothing v hv
  · rcases List.mem_cons.mp hv with rfl | hv
    · exact Or.inr (Option.some.inj (hd.symm.trans hnext))
    · rcases h.linked v hv d hd with hmem | rfl
      · exact Or.inl (List.mem_cons_of_mem a hmem)
      · exact Or.inl List.mem_cons_self

/-- In a circle there is nothing to find. -/
theorem Trail.circle {visited : List α} {a : α} {b : β} (h : Trail next found visited a)
    (hseen : a ∈ visited) : ¬ Nearest next found a b := by
  refine @not_nearest_of_closed α β next found a b (· ∈ visited) (fun v hv => ?_) hseen
  refine ⟨h.nothing v hv, fun c hc => ?_⟩
  rcases h.linked v hv c hc with hmem | rfl
  · exact hmem
  · exact hseen

variable [DecidableEq α]

/-- How many of some points have not been seen. -/
def unseen (points visited : List α) : Nat := (points.filter (· ∉ visited)).length

theorem unseen_lt {points visited : List α} {a : α} (hmem : a ∈ points) (hnew : a ∉ visited) :
    unseen points (a :: visited) < unseen points visited := by
  have hless : points.filter (· ∉ a :: visited) =
      (points.filter (· ∉ visited)).filter (· ≠ a) := by
    rw [List.filter_filter]
    refine List.filter_congr fun c _ => ?_
    simp only [List.mem_cons, not_or, Bool.decide_and]
  rw [unseen, hless]
  refine List.length_filter_lt_length_iff_exists.mpr ⟨a, ?_, ?_⟩
  · exact List.mem_filter.mpr ⟨hmem, decide_eq_true hnew⟩
  · simp

end search

end Chains

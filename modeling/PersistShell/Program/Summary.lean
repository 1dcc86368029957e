import Mathlib.Algebra.GroupWithZero.Nat
import Mathlib.Algebra.Order.BigOperators.Group.List
import Mathlib.Algebra.Order.Group.Nat

/-! What is known of items that come one after another: their sum, up to a limit, and the
largest of them. -/

namespace Summary

variable {α : Type} {f : α → Nat} {items : List α} {a : α} {sum peak limit : Nat}

theorem sum_append (f : α → Nat) (items : List α) (a : α) :
    ((items ++ [a]).map f).sum = (items.map f).sum + f a := by
  rw [List.map_append, List.sum_append, List.map_singleton, List.sum_singleton]

theorem sum_filter (p : α → Bool) (f : α → Nat) (items : List α) :
    ((items.filter p).map f).sum = (items.map fun a => if p a then f a else 0).sum := by
  induction items with
  | nil => rfl
  | cons a items ih =>
    rw [List.map_cons, List.sum_cons, ← ih, List.filter_cons]
    split
    · rfl
    · exact (Nat.zero_add _).symm

/-- A sum that stops at a limit is the limit, or the sum. -/
theorem saturating_append (h : sum = min (items.map f).sum limit) :
    min (sum + f a) limit = min ((items ++ [a]).map f).sum limit := by
  rw [sum_append]
  omega

/-- The largest of some items; nothing is the largest of none. -/
structure Peak (f : α → Nat) (items : List α) (peak : Nat) : Prop where
  bound : ∀ a ∈ items, f a ≤ peak
  attained : items = [] ∧ peak = 0 ∨ ∃ a ∈ items, f a = peak

theorem Peak.nil (f : α → Nat) : Peak f [] 0 := ⟨fun _ h => (by cases h), Or.inl ⟨rfl, rfl⟩⟩

theorem Peak.append (h : Peak f items peak) (a : α) :
    Peak f (items ++ [a]) (max peak (f a)) := by
  refine ⟨fun b hb => ?_, Or.inr ?_⟩
  · rcases List.mem_append.mp hb with hb | hb
    · exact (h.bound b hb).trans (Nat.le_max_left _ _)
    · rw [List.mem_singleton.mp hb]
      exact Nat.le_max_right _ _
  · rcases h.attained with ⟨-, rfl⟩ | ⟨b, hb, heq⟩
    · exact ⟨a, List.mem_append_right _ List.mem_cons_self, (Nat.zero_max _).symm⟩
    · rcases Nat.le_total (f a) peak with hle | hle
      · exact ⟨b, List.mem_append_left _ hb, by rw [heq, Nat.max_eq_left hle]⟩
      · exact ⟨a, List.mem_append_right _ List.mem_cons_self, (Nat.max_eq_right hle).symm⟩

theorem Peak.exists (h : Peak f items peak) (hne : items ≠ []) : ∃ a ∈ items, f a = peak :=
  h.attained.resolve_left fun hnil => hne hnil.1

/-- A sum is no more than the largest item, as many times as there are items. -/
theorem Peak.sum_le (h : Peak f items peak) : (items.map f).sum ≤ items.length * peak := by
  have hsum := List.sum_le_card_nsmul (items.map f) peak fun n hn => by
    obtain ⟨a, ha, rfl⟩ := List.mem_map.mp hn
    exact h.bound a ha
  rw [List.length_map] at hsum
  exact hsum

end Summary

import Mathlib.Data.List.Induction

/-! What is kept of a growing list under a limit: the longest suffix within it. -/

namespace Retention

variable {α : Type} {within : List α → Prop} {kept kept' all : List α} {a : α}

/-- The longest suffix within a limit. -/
structure Longest (within : List α → Prop) (kept all : List α) : Prop where
  suffix : kept <:+ all
  fits : within kept
  longest : ∀ part, part <:+ all → within part → part <:+ kept

theorem Longest.refl (h : within all) : Longest within all all :=
  ⟨List.suffix_refl _, h, fun _ hpart _ => hpart⟩

/-- The limit holds of what is left when the last item is taken away. -/
def Shrinks (within : List α → Prop) : Prop := ∀ items a, within (items ++ [a]) → within items

/-- What is left out does not come back: the longest suffix is found from what was kept. -/
theorem Longest.append (hshrinks : Shrinks within) (h : Longest within kept all)
    (h' : Longest within kept' (kept ++ [a])) : Longest within kept' (all ++ [a]) := by
  obtain ⟨front, hfront⟩ := h.suffix
  have hsuffix : kept ++ [a] <:+ all ++ [a] :=
    ⟨front, by rw [← List.append_assoc, hfront]⟩
  refine ⟨h'.suffix.trans hsuffix, h'.fits, fun part hpart hwithin => ?_⟩
  induction part using List.reverseRecOn with
  | nil => exact List.nil_suffix
  | append_singleton items b _ =>
    obtain ⟨before, hbefore⟩ := hpart
    rw [← List.append_assoc] at hbefore
    obtain ⟨hitems, hlast⟩ := List.append_inj' hbefore rfl
    cases hlast
    obtain ⟨rest, hrest⟩ := h.longest items ⟨before, hitems⟩ (hshrinks items a hwithin)
    exact h'.longest _ ⟨rest, by rw [← List.append_assoc, hrest]⟩ hwithin

/-- When the last item alone is within the limit it is kept. -/
theorem Longest.getLast (h : Longest within kept (all ++ [a])) (ha : within [a]) :
    kept.getLast? = some a := by
  obtain ⟨front, rfl⟩ := h.longest [a] (List.suffix_append _ _) ha
  exact List.getLast?_concat

end Retention

import Mathlib.Order.Lattice

/-! Binary search in a sorted list. The part in which the key may be starts at `base` and is
halved until it has one element. -/

namespace BinarySearch

variable {α κ : Type} [LinearOrder κ] (key : α → κ) (x : κ) (l : List α)

/-- Where the last element of the search is; the key of an element behind the list is none. -/
def narrow (base size : Nat) : Nat :=
  if size ≤ 1 then base
  else
    let mid := base + size / 2
    narrow (if l[mid]?.any fun a => x < key a then base else mid) (size - size / 2)
termination_by size
decreasing_by omega

/-- The place of the element with the key. -/
def search : Option Nat :=
  let i := narrow key x l 0 l.length
  if l[i]?.any fun a => key a = x then some i else none

variable {key x l}

theorem narrow_eq {base size i : Nat} {a : α} (hsorted : l.Pairwise fun a b => key a < key b)
    (ha : l[i]? = some a) (hkey : key a = x) (hlow : base ≤ i) (hhigh : i < base + size)
    (hsize : base + size ≤ l.length) : narrow key x l base size = i := by
  induction size using Nat.strongRecOn generalizing base with
  | _ size ih =>
    rw [narrow]
    split
    · omega
    · obtain ⟨hi, hia⟩ := List.getElem?_eq_some_iff.mp ha
      have hmid : base + size / 2 < l.length := by omega
      dsimp only
      rw [List.getElem?_eq_getElem hmid, Option.any_some]
      split
      · rename_i hless
        have hbefore : i < base + size / 2 := by
          by_contra hge
          have hle : key l[base + size / 2] ≤ x := by
            rcases Nat.lt_or_eq_of_le (Nat.le_of_not_lt hge) with hlt | heq
            · rw [← hkey, ← hia]
              exact (List.pairwise_iff_getElem.mp hsorted _ _ hmid hi hlt).le
            · rw [← hkey, ← hia]
              simp only [heq, le_refl]
          exact absurd (of_decide_eq_true hless) (not_lt.mpr hle)
        exact ih (size - size / 2) (by omega) hlow (by omega) (by omega)
      · rename_i hless
        have hbehind : base + size / 2 ≤ i := by
          by_contra hlt
          have hlater := List.pairwise_iff_getElem.mp hsorted _ _ hi hmid (Nat.lt_of_not_le hlt)
          rw [hia, hkey] at hlater
          exact hless (decide_eq_true hlater)
        exact ih (size - size / 2) (by omega) hbehind (by omega) (by omega)

/-- What is in the list is found. -/
theorem search_eq {i : Nat} {a : α} (hsorted : l.Pairwise fun a b => key a < key b)
    (ha : l[i]? = some a) : search key (key a) l = some i := by
  have hi := (List.getElem?_eq_some_iff.mp ha).1
  rw [search, narrow_eq hsorted ha rfl (Nat.zero_le i) (by omega) (by omega)]
  rw [ha, Option.any_some, if_pos (decide_eq_true rfl)]

end BinarySearch

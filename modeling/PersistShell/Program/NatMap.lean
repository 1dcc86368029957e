import Std.Data.ExtTreeMap

/-! Lookups in finite maps keyed by natural numbers, with the comparison of keys as an
equation. -/

namespace NatMap

variable {β : Type} (m : Std.ExtTreeMap Nat β) (k a : Nat)

theorem get_insert (v : β) : (m.insert k v)[a]? = if k = a then some v else m[a]? := by
  rw [Std.ExtTreeMap.getElem?_insert]
  simp only [Nat.compare_eq_eq]

theorem get_singleton (v : β) : ({(k, v)} : Std.ExtTreeMap Nat β)[k]? = some v :=
  (get_insert ∅ k k v).trans (if_pos rfl)

theorem get_erase : (m.erase k)[a]? = if k = a then none else m[a]? := by
  rw [Std.ExtTreeMap.getElem?_erase]
  simp only [Nat.compare_eq_eq]

theorem get_alter (f : Option β → Option β) :
    (m.alter k f)[a]? = if k = a then f m[k]? else m[a]? := by
  rw [Std.ExtTreeMap.getElem?_alter]
  simp only [Nat.compare_eq_eq]

theorem get_map {γ : Type} (f : Nat → β → γ) : (m.map f)[a]? = m[a]?.map (f a) :=
  Std.ExtTreeMap.getElem?_map

theorem contains_iff : m.contains a = true ↔ ∃ v, m[a]? = some v := by
  rw [Std.ExtTreeMap.contains_eq_isSome_getElem?, Option.isSome_iff_exists]

theorem mem_keys_iff : a ∈ m.keys ↔ ∃ v, m[a]? = some v := by
  rw [Std.ExtTreeMap.mem_keys, Std.ExtTreeMap.mem_iff_isSome_getElem?, Option.isSome_iff_exists]

end NatMap

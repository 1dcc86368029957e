import Mathlib.Algebra.GroupWithZero.Nat
import Mathlib.Algebra.Order.Group.Nat
import Mathlib.Algebra.BigOperators.Group.List.Basic
import Mathlib.Data.List.Perm.Basic

/-! Items that are gathered in buckets by an index: each bucket has the items of its index, and
together they have all of them. Times that are cut into intervals of one width are such indices. -/

namespace Buckets

section groups

variable {α β : Type} (index : α → Nat) (add : β → α → β) (fresh : β)

/-- What is gathered of a list of items; nothing of no items. -/
def gather (items : List α) : Option β :=
  items.foldl (fun bucket a => some (add (bucket.getD fresh) a)) none

/-- Each item goes into the bucket of its index. -/
def collect (buckets : List (Option β)) (items : List α) : List (Option β) :=
  items.foldl (fun buckets a =>
    buckets.modify (index a) fun bucket => some (add (bucket.getD fresh) a)) buckets

/-- The items of an index. -/
def group (items : List α) (i : Nat) : List α := items.filter fun a => index a = i

def groups (n : Nat) (items : List α) : List (List α) := (List.range n).map (group index items)

variable {index add fresh}

theorem gather_eq (items : List α) :
    gather add fresh items = if items = [] then none else some (items.foldl add fresh) := by
  have hsome : ∀ (items : List α) b,
      items.foldl (fun bucket a => some (add (bucket.getD fresh) a)) (some b) =
        some (items.foldl add b) := by
    intro items
    induction items with
    | nil => exact fun b => rfl
    | cons a items ih => exact fun b => ih (add b a)
  cases items with
  | nil => rfl
  | cons a items => exact hsome items (add fresh a)

theorem collect_get (buckets : List (Option β)) (items : List α) (i : Nat) :
    (collect index add fresh buckets items)[i]? =
      (buckets[i]?).map fun bucket => (group index items i).foldl
        (fun bucket a => some (add (bucket.getD fresh) a)) bucket := by
  induction items generalizing buckets with
  | nil =>
    change buckets[i]? = (buckets[i]?).map id
    rw [Option.map_id_apply]
  | cons a items ih =>
    rw [collect, List.foldl_cons, ← collect, ih, List.getElem?_modify, group, group,
      List.filter_cons]
    by_cases h : index a = i
    · rw [if_pos (decide_eq_true h)]
      cases buckets[i]? with
      | none => rfl
      | some bucket => simp only [h, if_true, Option.map_eq_map, Option.map_some, List.foldl_cons]
    · rw [if_neg (by simpa using h)]
      cases buckets[i]? with
      | none => rfl
      | some bucket => simp only [h, if_false, Option.map_eq_map, Option.map_some]

/-- What the buckets hold in the end. -/
theorem collect_replicate (n : Nat) (items : List α) :
    collect index add fresh (List.replicate n none) items =
      (groups index n items).map (gather add fresh) := by
  refine List.ext_getElem? fun i => ?_
  rw [collect_get, groups, List.map_map, List.getElem?_map, List.getElem?_replicate]
  by_cases h : i < n
  · rw [if_pos h, List.getElem?_range h]
    rfl
  · rw [if_neg h, List.getElem?_eq_none (by rw [List.length_range]; omega)]
    rfl

/-- The buckets with something in them, in their order. -/
theorem filterMap_gather (lists : List (List α)) :
    (lists.map (gather add fresh)).filterMap id =
      (lists.filter (!·.isEmpty)).map fun items => items.foldl add fresh := by
  induction lists with
  | nil => rfl
  | cons items lists ih =>
    rw [List.map_cons, List.filterMap_cons, gather_eq, ih]
    cases items <;> rfl

theorem flatten_groups_perm_filter (n : Nat) (items : List α) :
    (groups index n items).flatten.Perm (items.filter fun a => index a < n) := by
  induction n with
  | zero => simp [groups]
  | succ n ih =>
    have hsplit := List.filter_append_perm (fun a => decide (index a < n))
      (items.filter fun a => index a < n + 1)
    rw [List.filter_filter, List.filter_filter] at hsplit
    have hbefore : ∀ a, (decide (index a < n) && decide (index a < n + 1)) =
        decide (index a < n) := by
      intro a
      rw [Bool.eq_iff_iff]
      simp only [Bool.and_eq_true, decide_eq_true_eq]
      omega
    have hlast : ∀ a, (!decide (index a < n) && decide (index a < n + 1)) =
        decide (index a = n) := by
      intro a
      rw [Bool.eq_iff_iff]
      simp only [Bool.and_eq_true, Bool.not_eq_true', decide_eq_true_eq, decide_eq_false_iff_not]
      omega
    simp only [hbefore, hlast] at hsplit
    rw [groups, List.range_succ, List.map_append, List.flatten_append]
    refine (List.Perm.append ih ?_).trans hsplit
    simp [group]

/-- Each item is in exactly one group. -/
theorem flatten_groups_perm {n : Nat} {items : List α} (h : ∀ a ∈ items, index a < n) :
    (groups index n items).flatten.Perm items := by
  have hall : (items.filter fun a => index a < n) = items :=
    List.filter_eq_self.mpr fun a ha => decide_eq_true (h a ha)
  have hperm := @flatten_groups_perm_filter α index n items
  rw [hall] at hperm
  exact hperm

/-- What is made of the groups adds up to what is made of all the items, where it fits. -/
theorem sum_made {γ : Type} {Made : List α → γ → Prop} {part : α → Nat} {field : γ → Nat}
    {limit : Nat} (hfield : ∀ items c, Made items c → field c = min (items.map part).sum limit)
    {lists : List (List α)} {made : List γ} (hmade : List.Forall₂ Made lists made)
    (hfits : (lists.flatten.map part).sum ≤ limit) :
    (made.map field).sum = (lists.flatten.map part).sum := by
  induction hmade with
  | nil => rfl
  | cons hone _ ih =>
    rw [List.flatten_cons, List.map_append, List.sum_append] at hfits ⊢
    rw [List.map_cons, List.sum_cons, ih (by omega), hfield _ _ hone]
    omega

/-- The same, when nothing is made of an empty group. -/
theorem sum_groups {γ : Type} {Made : List α → γ → Prop} {part : α → Nat} {field : γ → Nat}
    {limit : Nat} (hfield : ∀ items c, Made items c → field c = min (items.map part).sum limit)
    {lists : List (List α)} {made : List γ} {items : List α}
    (hmade : List.Forall₂ Made (lists.filter (!·.isEmpty)) made)
    (hwhole : lists.flatten.Perm items) (hfits : (items.map part).sum ≤ limit) :
    (made.map field).sum = (items.map part).sum := by
  have hsame : (items.map part).sum =
      ((lists.filter (!·.isEmpty)).flatten.map part).sum := by
    rw [List.flatten_filter_not_isEmpty]
    exact ((hwhole.map part).sum_eq).symm
  rw [hsame] at hfits ⊢
  exact sum_made hfield hmade hfits

end groups

section intervals

/-- How wide the intervals are, when `span` is cut into at most `n` of them. -/
def width (span n : Nat) : Nat := max ((span + n - 1) / n) 1

/-- The interval of a time behind `start`. -/
def slot (start width n t : Nat) : Nat := min ((t - start - 1) / width) (n - 1)

variable {span n start t w : Nat}

theorem width_pos (span n : Nat) : 0 < width span n := Nat.le_max_right _ _

theorem span_le (hn : 0 < n) : span ≤ n * width span n := by
  have hdiv := Nat.lt_mul_div_succ (span + n - 1) hn
  have hle : n * ((span + n - 1) / n) ≤ n * width span n :=
    Nat.mul_le_mul_left n (Nat.le_max_left _ _)
  rw [Nat.mul_add, Nat.mul_one] at hdiv
  omega

theorem slot_lt (hn : 0 < n) : slot start w n t < n := by
  unfold slot
  omega

/-- The time is in its interval, which is open at the start. -/
theorem slot_spec (hn : 0 < n) (hw : 0 < w) (hspan : span ≤ n * w) (hstart : start < t)
    (hend : t ≤ start + span) :
    start + slot start w n t * w < t ∧ t ≤ start + (slot start w n t + 1) * w := by
  have hlt : (t - start - 1) / w < n := (Nat.div_lt_iff_lt_mul hw).mpr (by omega)
  have hslot : slot start w n t = (t - start - 1) / w := by
    unfold slot
    omega
  have hlow := Nat.div_mul_le_self (t - start - 1) w
  have hhigh := Nat.lt_mul_div_succ (t - start - 1) hw
  rw [Nat.mul_comm w] at hhigh
  rw [hslot]
  omega

/-- Items are cut into groups by the interval that their time is in. -/
structure Cut {α : Type} (time : α → Nat) (start w n : Nat) (items : List α)
    (groups : List (List α)) : Prop where
  count : groups.length = n
  whole : groups.flatten.Perm items
  inside : ∀ i group, groups[i]? = some group → ∀ a ∈ group,
    start + i * w < time a ∧ time a ≤ start + (i + 1) * w

theorem cut_groups {α : Type} {time : α → Nat} {items : List α} (hn : 0 < n) (hw : 0 < w)
    (hspan : span ≤ n * w) (h : ∀ a ∈ items, start < time a ∧ time a ≤ start + span) :
    Cut time start w n items (groups (fun a => slot start w n (time a)) n items) where
  count := by rw [groups, List.length_map, List.length_range]
  whole := flatten_groups_perm fun _ _ => slot_lt hn
  inside := by
    intro i group hgroup a ha
    have hi : i < n := by
      have hlt := (List.getElem?_eq_some_iff.mp hgroup).1
      rw [groups, List.length_map, List.length_range] at hlt
      exact hlt
    rw [groups, List.getElem?_map, List.getElem?_range hi, Option.map_some] at hgroup
    rw [← Option.some.inj hgroup] at ha
    obtain ⟨hmem, hindex⟩ := List.mem_filter.mp ha
    rw [← of_decide_eq_true hindex]
    exact slot_spec hn hw hspan (h a hmem).1 (h a hmem).2

end intervals

end Buckets

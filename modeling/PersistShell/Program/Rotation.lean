import Mathlib.Algebra.GroupWithZero.Nat
import Mathlib.Data.List.DropRight

/-! A log that is kept in several files, the newest first. An item goes to the newest file as long
as it fits, else to a new one, and the oldest files go. What the files hold together is the end of
what was written, and reading them backwards under a budget gives the end of that. -/

namespace Rotation

variable {α : Type} {size : α → Nat} {max keep : Nat} {files : List (List α)}

/-- Everything the files hold, the oldest first. -/
def contents (files : List (List α)) : List α := files.reverse.flatten

/-- An item is written; besides the newest file at most `keep` are kept. -/
def write (size : α → Nat) (max keep : Nat) (files : List (List α)) (a : α) : List (List α) :=
  if ((files.headD []).map size).sum + size a ≤ max then (files.headD [] ++ [a]) :: files.tail
  else ([a] :: files.headD [] :: files.tail).take (keep + 1)

def writeAll (size : α → Nat) (max keep : Nat) (items : List α) : List (List α) :=
  items.foldl (write size max keep) []

theorem contents_cons (file : List α) (files : List (List α)) :
    contents (file :: files) = contents files ++ file := by
  simp [contents]

theorem contents_take (files : List (List α)) (n : Nat) :
    contents (files.take n) <:+ contents files := by
  have hsplit : contents files = contents (files.drop n) ++ contents (files.take n) := by
    rw [contents, contents, contents, ← List.flatten_append, ← List.reverse_append,
      List.take_append_drop]
  rw [hsplit]
  exact List.suffix_append _ _

theorem contents_headD (files : List (List α)) :
    contents files.tail ++ files.headD [] = contents files := by
  cases files with
  | nil => rfl
  | cons file files => exact (contents_cons file files).symm

theorem contents_write (files : List (List α)) (a : α) :
    contents (write size max keep files a) <:+ contents files ++ [a] := by
  have hall : contents ([a] :: files.headD [] :: files.tail) = contents files ++ [a] := by
    rw [contents_cons, contents_cons, contents_headD]
  unfold write
  split
  · exact ⟨[], by rw [List.nil_append, contents_cons, ← List.append_assoc, contents_headD]⟩
  · rw [← hall]
    exact contents_take _ _

theorem length_write (h : files.length ≤ keep + 1) (a : α) :
    (write size max keep files a).length ≤ keep + 1 := by
  unfold write
  split
  · rw [List.length_cons, List.length_tail]
    omega
  · exact List.length_take_le _ _

/-- A file of more than one item is within the limit. -/
def Bounded (size : α → Nat) (max : Nat) (files : List (List α)) : Prop :=
  ∀ file ∈ files, 1 < file.length → (file.map size).sum ≤ max

theorem Bounded.write (h : Bounded size max files) (a : α) :
    Bounded size max (write size max keep files a) := by
  have htail : ∀ file ∈ files.tail, 1 < file.length → (file.map size).sum ≤ max :=
    fun file hmem => h file (List.mem_of_mem_tail hmem)
  unfold Rotation.write
  split
  · rename_i hfits
    intro file hmem hlength
    rcases List.mem_cons.mp hmem with rfl | hmem
    · simpa using hfits
    · exact htail file hmem hlength
  · intro file hmem hlength
    rcases List.mem_cons.mp (List.mem_of_mem_take hmem) with rfl | hmem
    · exact absurd hlength (lt_irrefl _)
    · rcases List.mem_cons.mp hmem with rfl | hmem
      · cases files with
        | nil => cases hlength
        | cons file files => exact h file List.mem_cons_self hlength
      · exact htail file hmem hlength

/-- What holds of the files after any items. -/
theorem writeAll_spec (size : α → Nat) (max keep : Nat) (items : List α) :
    contents (writeAll size max keep items) <:+ items ∧
      (writeAll size max keep items).length ≤ keep + 1 ∧
      Bounded size max (writeAll size max keep items) := by
  induction items using List.reverseRecOn with
  | nil => exact ⟨List.suffix_refl _, Nat.zero_le _, fun file hmem => by cases hmem⟩
  | append_singleton items a ih =>
    obtain ⟨hsuffix, hlength, hbounded⟩ := ih
    rw [writeAll, List.foldl_append]
    refine ⟨(contents_write _ a).trans ?_, length_write hlength a, hbounded.write a⟩
    obtain ⟨front, hfront⟩ := hsuffix
    exact ⟨front, (List.append_assoc _ _ _).symm.trans (congrArg (· ++ [a]) hfront)⟩

section reading

/-- The ends of the files, the newest first, until the budget is used up. -/
def collect (budget : Nat) : List (List α) → List (List α)
  | [] => []
  | file :: files =>
    let tail := file.rtake budget
    if budget - tail.length = 0 then [tail] else tail :: collect (budget - tail.length) files

theorem length_rtake (l : List α) (n : Nat) : (l.rtake n).length = min n l.length := by
  rw [List.rtake, List.length_drop]
  omega

theorem rtake_append_of_le {l m : List α} {n : Nat} (h : n ≤ m.length) :
    (l ++ m).rtake n = m.rtake n := by
  have hdrop : l.length + m.length - n = l.length + (m.length - n) := by omega
  rw [List.rtake, List.rtake, List.length_append, hdrop, ← List.drop_drop, List.drop_left]

theorem rtake_append_of_ge {l m : List α} {n : Nat} (h : m.length ≤ n) :
    (l ++ m).rtake n = l.rtake (n - m.length) ++ m := by
  have hdrop : l.length + m.length - n = l.length - (n - m.length) := by omega
  rw [List.rtake, List.rtake, List.length_append, hdrop,
    List.drop_append_of_le_length (Nat.sub_le _ _)]

/-- Reading backwards gives the end of everything. -/
theorem contents_collect (budget : Nat) (files : List (List α)) :
    contents (collect budget files) = (contents files).rtake budget := by
  induction files generalizing budget with
  | nil => simp [collect, contents]
  | cons file files ih =>
    have hlength := length_rtake file budget
    unfold collect
    dsimp only
    rw [contents_cons]
    split
    · rename_i hdone
      rw [rtake_append_of_le (by omega)]
      simp [contents]
    · have hle : file.length ≤ budget := by omega
      have hwhole : file.rtake budget = file := by
        rw [List.rtake, Nat.sub_eq_zero_of_le hle, List.drop_zero]
      rw [contents_cons, hwhole, ih, rtake_append_of_ge hle]

end reading

end Rotation

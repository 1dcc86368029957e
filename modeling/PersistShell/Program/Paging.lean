import Mathlib.Algebra.BigOperators.Intervals
import Mathlib.Algebra.GroupWithZero.Nat
import Mathlib.Algebra.Order.BigOperators.Group.Finset
import Mathlib.Data.List.Sort
import Mathlib.Logic.Function.Iterate
import Mathlib.Order.Basic

/-! Reading a sorted list page by page while it may change, and versions that tell whether it
has. A page is what follows a cursor, up to a limit; the next cursor is the key of its last
element. -/

namespace Paging

section pages

variable {β κ : Type} [LinearOrder κ] (key : β → κ)

/-- The part of the list behind a cursor. -/
def past (cursor : κ) (l : List β) : List β := l.filter fun b => cursor < key b

/-- The part of the list up to a cursor. -/
def upTo (cursor : κ) (l : List β) : List β := l.filter fun b => key b ≤ cursor

def page (cursor : κ) (limit : Nat) (l : List β) : List β := (past key cursor l).take limit

variable {key} {l : List β} {cursor : κ} {limit : Nat}

theorem upTo_append_past (hsorted : l.Pairwise fun a b => key a < key b) :
    upTo key cursor l ++ past key cursor l = l := by
  induction l with
  | nil => rfl
  | cons b l ih =>
    rw [List.pairwise_cons] at hsorted
    have hrest := ih hsorted.2
    by_cases hb : key b ≤ cursor
    · have hnot : ¬ cursor < key b := not_lt.mpr hb
      simp only [upTo, past, List.filter_cons, hb, hnot, decide_true, decide_false, if_true,
        Bool.false_eq_true, if_false, List.cons_append] at hrest ⊢
      rw [hrest]
    · -- everything behind `b` is past the cursor too
      have hlater : ∀ c ∈ l, cursor < key c := fun c hc =>
        (not_le.mp hb).trans (hsorted.1 c hc)
      have hnone : upTo key cursor (b :: l) = [] := by
        rw [upTo, List.filter_eq_nil_iff]
        intro c hc
        rcases List.mem_cons.mp hc with rfl | hc
        · simpa using hb
        · simpa using hlater c hc
      have hall : past key cursor (b :: l) = b :: l := by
        rw [past, List.filter_eq_self]
        intro c hc
        rcases List.mem_cons.mp hc with rfl | hc
        · simpa using hb
        · simpa using hlater c hc
      rw [hnone, hall, List.nil_append]

/-- A page that is the last one completes the list. -/
theorem upTo_append_page (hsorted : l.Pairwise fun a b => key a < key b)
    (hlast : (past key cursor l).drop limit = []) :
    upTo key cursor l ++ page key cursor limit l = l := by
  have hall : page key cursor limit l = past key cursor l := by
    have := List.take_append_drop limit (past key cursor l)
    rw [hlast, List.append_nil] at this
    exact this
  rw [hall, upTo_append_past hsorted]

theorem past_sorted (hsorted : l.Pairwise fun a b => key a < key b) :
    (past key cursor l).Pairwise fun a b => key a < key b :=
  hsorted.filter _

/-- A page takes the reader up to its last element. -/
theorem upTo_append_page_of_last (hsorted : l.Pairwise fun a b => key a < key b) {b : β}
    (hlast : (page key cursor limit l).getLast? = some b) :
    upTo key cursor l ++ page key cursor limit l = upTo key (key b) l := by
  have hmem : b ∈ page key cursor limit l := List.mem_of_getLast? hlast
  have hpast : b ∈ past key cursor l := List.mem_of_mem_take hmem
  have hcursor : cursor < key b := by
    have := (List.mem_filter.mp hpast).2
    simpa using this
  have hordered : (past key cursor l).Pairwise fun a b => key a < key b := past_sorted hsorted
  rw [← List.take_append_drop limit (past key cursor l), List.pairwise_append] at hordered
  -- the page goes up to `b`, and what is left starts behind it
  have hpage : ∀ c ∈ page key cursor limit l, key c ≤ key b := by
    intro c hc
    obtain ⟨front, hfront⟩ := List.getLast?_eq_some_iff.mp hlast
    rw [hfront] at hc
    rcases List.mem_append.mp hc with hc | hc
    · have hsplit := hordered.1
      rw [page] at hfront
      rw [hfront, List.pairwise_append] at hsplit
      exact (hsplit.2.2 c hc b List.mem_cons_self).le
    · rw [List.mem_singleton.mp hc]
  have hrest : ∀ c ∈ (past key cursor l).drop limit, key b < key c :=
    fun c hc => hordered.2.2 b hmem c hc
  have hsplit : l = upTo key cursor l ++ (page key cursor limit l ++
      (past key cursor l).drop limit) := by
    rw [page, List.take_append_drop, upTo_append_past hsorted]
  have hfront : (upTo key cursor l).filter (fun c => key c ≤ key b) = upTo key cursor l := by
    rw [List.filter_eq_self]
    intro c hc
    have hle : key c ≤ cursor := by simpa using (List.mem_filter.mp hc).2
    simpa using hle.trans hcursor.le
  have hmiddle : (page key cursor limit l).filter (fun c => key c ≤ key b) =
      page key cursor limit l := by
    rw [List.filter_eq_self]
    intro c hc
    simpa using hpage c hc
  have hback : ((past key cursor l).drop limit).filter (fun c => key c ≤ key b) = [] := by
    rw [List.filter_eq_nil_iff]
    intro c hc
    simpa using hrest c hc
  conv_rhs => rw [upTo, hsplit, List.filter_append, List.filter_append, hfront, hmiddle, hback,
    List.append_nil]

/-- Keys alone decide what is on a page. -/
theorem map_past {γ : Type} {key' : γ → κ} {f : β → γ} (hf : ∀ b, key' (f b) = key b) :
    (past key cursor l).map f = past key' cursor (l.map f) := by
  induction l with
  | nil => rfl
  | cons b l ih =>
    simp only [past, List.map_cons, List.filter_cons, hf] at ih ⊢
    split
    · rw [List.map_cons, ih]
    · exact ih

theorem map_page {γ : Type} {key' : γ → κ} {f : β → γ} (hf : ∀ b, key' (f b) = key b) :
    (page key cursor limit l).map f = page key' cursor limit (l.map f) := by
  rw [page, page, List.map_take, map_past hf]

end pages

section versions

variable {σ ν γ : Type}

/-- A state changed `n` times into another one, each time with a new version; without a change,
the view of the state is what it was. -/
structure Evolves (next : ν → ν) (version : σ → ν) (view : σ → γ) (n : Nat) (s s' : σ) : Prop where
  version : version s' = next^[n] (version s)
  view : n = 0 → view s' = view s

variable {next : ν → ν} {version : σ → ν} {view : σ → γ} {m n : Nat} {s s' s'' : σ}

theorem Evolves.refl (s : σ) : Evolves next version view 0 s s := ⟨rfl, fun _ => rfl⟩

theorem Evolves.trans (h : Evolves next version view m s s')
    (h' : Evolves next version view n s' s'') : Evolves next version view (m + n) s s'' where
  version := by
    rw [h'.version, h.version, ← Function.iterate_add_apply, Nat.add_comm n m]
  view hzero := by
    rw [h'.view (by omega), h.view (by omega)]

/-- Many steps one after another. -/
theorem Evolves.steps {f : Nat → σ} {changes : Nat → Nat}
    (h : ∀ i, Evolves next version view (changes i) (f i) (f (i + 1))) {i j : Nat}
    (hij : i ≤ j) :
    Evolves next version view (∑ k ∈ Finset.Ico i j, changes k) (f i) (f j) := by
  induction j, hij using Nat.le_induction with
  | base =>
    rw [Finset.Ico_self, Finset.sum_empty]
    exact .refl _
  | succ j hij ih =>
    rw [Finset.sum_Ico_succ_top hij]
    exact ih.trans (h j)

/-- When versions repeat only after `period` changes, a version that is the same again after
fewer changes means the same view. -/
theorem Evolves.view_of_version {period : Nat}
    (hperiod : ∀ v n, next^[n] v = v → n = 0 ∨ period ≤ n)
    (h : Evolves next version view n s s') (hfew : n < period) (hsame : version s' = version s) :
    view s' = view s := by
  rw [h.version] at hsame
  rcases hperiod _ _ hsame with hzero | hmany
  · exact h.view hzero
  · omega

end versions

end Paging

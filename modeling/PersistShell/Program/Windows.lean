import Mathlib.Order.Basic
import Mathlib.Tactic.Ring

/-! Times that come in order, and windows of one width that are open at their start: a window is
collected when the first time of a later window has come. A time that is the end of its window is
collected only when it is the one that closes it. -/

namespace Windows

variable (w : Nat) (t : Nat → Nat)

/-- The last multiple of the width up to a time. -/
def start (ms : Nat) : Nat := ms / w * w

/-- The `n`-th time is of a later window than the one before. -/
def Closes (n : Nat) : Prop := 1 ≤ n ∧ start w (t (n - 1)) < start w (t n)

/-- The `n`-th time closes the window that the `i`-th one is in, and that has come by then. -/
def Collects (n i : Nat) : Prop :=
  Closes w t n ∧ i ≤ n ∧ start w (t (n - 1)) < t i ∧ t i ≤ start w (t (n - 1)) + w

/-- The `i`-th time is not the end of a window, or the one before is in that window. -/
def OnTime (i : Nat) : Prop := t i % w ≠ 0 ∨ start w (t (i - 1)) + w = t i

variable {w t} {len : Nat}

theorem start_le (ms : Nat) : start w ms ≤ ms := Nat.div_mul_le_self ms w

theorem lt_start_add (hw : 0 < w) (ms : Nat) : ms < start w ms + w := by
  have h := Nat.lt_mul_div_succ ms hw
  rw [Nat.mul_add, Nat.mul_one, Nat.mul_comm] at h
  exact h

theorem start_mono {a b : Nat} (h : a ≤ b) : start w a ≤ start w b :=
  Nat.mul_le_mul_right w (Nat.div_le_div_right h)

/-- Two starts are a width apart. -/
theorem start_add_le {a b : Nat} (h : start w a < start w b) : start w a + w ≤ start w b := by
  have hlt : a / w < b / w := Nat.lt_of_mul_lt_mul_right h
  calc start w a + w = (a / w + 1) * w := by rw [start]; ring
    _ ≤ start w b := Nat.mul_le_mul_right w hlt

theorem start_eq_of_mod {ms : Nat} (h : ms % w = 0) : start w ms = ms :=
  Nat.div_mul_cancel (Nat.dvd_of_mod_eq_zero h)

theorem start_lt_of_mod {ms : Nat} (h : ms % w ≠ 0) : start w ms < ms := by
  have hsum := Nat.div_add_mod ms w
  rw [Nat.mul_comm] at hsum
  unfold start
  omega

section collected

variable (hmono : ∀ i j, i ≤ j → j < len → t i ≤ t j)

include hmono

theorem collects_unique {n m i : Nat} (hn : n < len) (hm : m < len) (h : Collects w t n i)
    (h' : Collects w t m i) : n = m := by
  have hlater : ∀ {n m : Nat}, m < len → Collects w t n i → Collects w t m i → ¬ n < m := by
    intro n m hm hn hm' hlt
    have hsep := start_add_le hn.1.2
    have hstart := start_mono (w := w) (hmono n (m - 1) (by omega) (by omega))
    have hend := hn.2.2.2
    have hbegin := hm'.2.2.1
    omega
  rcases Nat.lt_trichotomy n m with hlt | heq | hlt
  · exact absurd hlt (hlater hm h h')
  · exact heq
  · exact absurd hlt (hlater hn h' h)

theorem onTime_of_collects {n i : Nat} (hn : n < len) (hi : 1 ≤ i)
    (h : Collects w t n i) : OnTime w t i := by
  by_cases hmod : t i % w = 0
  · obtain ⟨hcloses, hle, hbegin, hend⟩ := h
    -- only the time that closes the window can be its end
    have hsame : i = n := by
      by_contra hne
      have hbefore := hmono i (n - 1) (by omega) (by omega)
      have hstart := start_mono (w := w) hbefore
      rw [start_eq_of_mod hmod] at hstart
      omega
    subst hsame
    have hsep := start_add_le hcloses.2
    rw [start_eq_of_mod hmod] at hsep
    exact Or.inr (by omega)
  · exact Or.inl hmod

/-- A time is collected as soon as a later window has begun. -/
theorem collects_exists (hw : 0 < w) {i j : Nat} (hi : 1 ≤ i) (hlen : i < len)
    (hj : j < len) (hlater : start w (t i) < start w (t j)) (htime : OnTime w t i) :
    ∃ n, n < len ∧ Collects w t n i := by
  have hij : i < j := by
    by_contra hle
    have hback := start_mono (w := w) (hmono j i (by omega) hlen)
    omega
  by_cases hmod : t i % w = 0
  · have hend := htime.resolve_left (not_not_intro hmod)
    refine ⟨i, by omega, ⟨hi, ?_⟩, le_rfl, by omega, by omega⟩
    rw [start_eq_of_mod hmod]
    omega
  · -- the first time of a later window closes the one of `i`
    have hbegin := start_lt_of_mod hmod
    have hinside := lt_start_add hw (t i)
    induction j, hij using Nat.le_induction with
    | base =>
      refine ⟨i + 1, hj, ⟨by omega, ?_⟩, by omega, ?_, ?_⟩
      · rw [Nat.add_sub_cancel]
        exact hlater
      · rw [Nat.add_sub_cancel]
        exact hbegin
      · rw [Nat.add_sub_cancel]
        exact hinside.le
    | succ j hij ih =>
      by_cases hearlier : start w (t i) < start w (t j)
      · exact ih (by omega) hearlier
      · have hsame : start w (t j) = start w (t i) :=
          Nat.le_antisymm (Nat.le_of_not_lt hearlier)
            (start_mono (hmono i j (by omega) (by omega)))
        refine ⟨j + 1, hj, ⟨by omega, ?_⟩, by omega, ?_, ?_⟩
        · rw [Nat.add_sub_cancel, hsame]
          exact hlater
        · rw [Nat.add_sub_cancel, hsame]
          exact hbegin
        · rw [Nat.add_sub_cancel, hsame]
          exact hinside.le

end collected

end Windows

import Mathlib.Data.List.Lex
import Mathlib.Data.String.Basic
import Mathlib.Tactic.IntervalCases

/-! Decimal numbers of a fixed width, and the order of texts that are made of them. -/

namespace Decimal

/-- The last `width` decimal digits of a number. -/
def digits : Nat → Nat → List Char
  | 0, _ => []
  | width + 1, n => digits width (n / 10) ++ [Nat.digitChar (n % 10)]

/-- A number, with zeros put in front of it up to a width. -/
def padded (width n : Nat) : List Char :=
  List.replicate (width - (Nat.toDigits 10 n).length) '0' ++ Nat.toDigits 10 n

section lists

variable {l l' r r' : List Char}

theorem append_lt_append_of_lt (hlength : l.length = l'.length) (h : l < l') :
    l ++ r < l' ++ r' := by
  induction l generalizing l' with
  | nil =>
    cases l' with
    | nil => exact absurd h (lt_irrefl _)
    | cons c l' => cases hlength
  | cons c l ih =>
    cases l' with
    | nil => cases hlength
    | cons c' l' =>
      rw [List.cons_append, List.cons_append, List.cons_lt_cons_iff]
      rcases List.cons_lt_cons_iff.mp h with hlt | ⟨rfl, hlt⟩
      · exact Or.inl hlt
      · exact Or.inr ⟨rfl, ih (Nat.succ.inj hlength) hlt⟩

theorem append_lt_append_left (l : List Char) (h : r < r') : l ++ r < l ++ r' := by
  induction l with
  | nil => exact h
  | cons c l ih => exact List.cons_lt_cons_iff.mpr (Or.inr ⟨rfl, ih⟩)

end lists

variable {width m n : Nat}

@[simp] theorem length_digits (width n : Nat) : (digits width n).length = width := by
  induction width generalizing n with
  | zero => rfl
  | succ width ih => rw [digits, List.length_append, ih, List.length_singleton]

theorem digitChar_lt (h : m < n) (hn : n < 10) : Nat.digitChar m < Nat.digitChar n := by
  interval_cases n <;> interval_cases m <;> decide

theorem digits_lt (h : m < n) (hn : n < 10 ^ width) : digits width m < digits width n := by
  induction width generalizing m n with
  | zero =>
    rw [pow_zero] at hn
    omega
  | succ width ih =>
    rw [pow_succ] at hn
    rcases Nat.lt_or_eq_of_le (Nat.div_le_div_right (c := 10) h.le) with hlt | heq
    · exact append_lt_append_of_lt (by simp) (ih hlt (by omega))
    · rw [digits, digits, heq]
      refine append_lt_append_left _ (List.cons_lt_cons_iff.mpr (Or.inl (digitChar_lt ?_ ?_)))
      · omega
      · omega

theorem digits_of_lt_pow {k : Nat} (h : n < 10 ^ width) :
    digits (width + k) n = List.replicate k '0' ++ digits width n := by
  induction width generalizing n with
  | zero =>
    have hzero : n = 0 := by simpa using h
    subst hzero
    induction k with
    | zero => rfl
    | succ k ih =>
      change digits (0 + k) (0 / 10) ++ [Nat.digitChar (0 % 10)] = _
      rw [Nat.zero_div, ih, List.replicate_succ', digits, List.append_nil, List.append_nil]
      rfl
  | succ width ih =>
    rw [pow_succ] at h
    rw [Nat.add_right_comm, digits, ih (by omega), digits, List.append_assoc]

theorem toDigits_eq_digits (n : Nat) :
    Nat.toDigits 10 n = digits (Nat.toDigits 10 n).length n := by
  induction n using Nat.strongRecOn with
  | ind n ih =>
    rcases Nat.lt_or_ge n 10 with hlt | hge
    · rw [Nat.toDigits_of_lt_base hlt, List.length_singleton, digits, digits, List.nil_append,
        Nat.mod_eq_of_lt hlt]
    · rw [Nat.toDigits_of_base_le (by decide) hge, List.length_append, List.length_singleton, digits,
        ← ih (n / 10) (by omega)]

/-- A number that is not too wide has as many digits as it is padded to. -/
theorem padded_eq_digits (hwidth : 0 < width) (h : n < 10 ^ width) :
    padded width n = digits width n := by
  have hle : (Nat.toDigits 10 n).length ≤ width := (Nat.length_toDigits_le_iff (by decide) hwidth).mpr h
  have hfits : n < 10 ^ (Nat.toDigits 10 n).length :=
    (Nat.length_toDigits_le_iff (by decide) Nat.length_toDigits_pos).mp le_rfl
  obtain ⟨k, hk⟩ := Nat.exists_eq_add_of_le hle
  rw [padded, hk, digits_of_lt_pow hfits, ← toDigits_eq_digits, Nat.add_sub_cancel_left]

end Decimal

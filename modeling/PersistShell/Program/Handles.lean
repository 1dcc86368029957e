import Mathlib.Logic.Function.Basic

/-! Keys that are given handles. Handles are numbers that are counted up, so that one which was
taken back is not given out again, whatever becomes of its key. -/

/-- The handles of keys and the keys of handles, and how many handles were issued. -/
structure Handles (κ : Type) where
  issued : Nat
  handle : κ → Option Nat
  key : Nat → Option κ

namespace Handles

variable {κ : Type}

/-- A handle is taken from the count, for no key yet. -/
def issue (t : Handles κ) : Handles κ := { t with issued := t.issued + 1 }

/-- Handles and keys are inverse to each other, and the handles are among those issued. -/
structure Paired (t : Handles κ) : Prop where
  iff : ∀ k n, t.handle k = some n ↔ t.key n = some k
  issued : ∀ n k, t.key n = some k → 1 ≤ n ∧ n ≤ t.issued

/-- What a handle that `t` has issued stands for in `t'`, it stands for in `t`. -/
structure Later (t t' : Handles κ) : Prop where
  issued : t.issued ≤ t'.issued
  key : ∀ n ≤ t.issued, ∀ k, t'.key n = some k → t.key n = some k

variable {t t' t'' : Handles κ} {k : κ} {n : Nat}

theorem Paired.issue (h : t.Paired) : t.issue.Paired where
  iff := h.iff
  issued n k hk := ⟨(h.issued n k hk).1, Nat.le_succ_of_le (h.issued n k hk).2⟩

theorem Later.refl (t : Handles κ) : Later t t := ⟨Nat.le_refl _, fun _ _ _ => id⟩

theorem Later.trans (h : Later t t') (h' : Later t' t'') : Later t t'' where
  issued := Nat.le_trans h.issued h'.issued
  key n hn k hk := h.key n hn k (h'.key n (Nat.le_trans hn h.issued) k hk)

theorem later_issue (t : Handles κ) : Later t t.issue := ⟨Nat.le_succ _, fun _ _ _ => id⟩

/-- A handle that stands for nothing any more never stands for anything again. -/
theorem Later.unknown (h : Later t t') (hn : n ≤ t.issued) (hnone : t.key n = none) :
    t'.key n = none := by
  cases hk : t'.key n with
  | none => rfl
  | some k =>
    rw [h.key n hn k hk] at hnone
    cases hnone

variable [DecidableEq κ]

/-- The handle that was issued last is given to `k`. -/
def bind (t : Handles κ) (k : κ) : Handles κ :=
  { t with
    handle := Function.update t.handle k (some t.issued)
    key := Function.update t.key t.issued (some k) }

/-- The handle of `k` is taken back. -/
def drop (t : Handles κ) (k : κ) : Handles κ :=
  match t.handle k with
  | none => t
  | some n =>
    { t with handle := Function.update t.handle k none, key := Function.update t.key n none }

theorem handle_bind (t : Handles κ) (k k' : κ) :
    (t.bind k).handle k' = if k' = k then some t.issued else t.handle k' :=
  Function.update_apply _ _ _ _

theorem key_bind (t : Handles κ) (k : κ) (n : Nat) :
    (t.bind k).key n = if n = t.issued then some k else t.key n :=
  Function.update_apply _ _ _ _

theorem issued_drop (t : Handles κ) (k : κ) : (t.drop k).issued = t.issued := by
  unfold drop
  split <;> rfl

theorem handle_drop (t : Handles κ) (k k' : κ) :
    (t.drop k).handle k' = if k' = k then none else t.handle k' := by
  unfold drop
  cases hk : t.handle k with
  | none =>
    by_cases heq : k' = k
    · rw [if_pos heq, heq, hk]
    · rw [if_neg heq]
  | some n => exact Function.update_apply _ _ _ _

theorem key_drop (h : t.Paired) (k : κ) (n : Nat) (k' : κ) :
    (t.drop k).key n = some k' ↔ t.key n = some k' ∧ k' ≠ k := by
  unfold drop
  cases hk : t.handle k with
  | none =>
    refine ⟨fun hn => ⟨hn, ?_⟩, fun hn => hn.1⟩
    rintro rfl
    rw [(h.iff k' n).mpr hn] at hk
    cases hk
  | some m =>
    have hm := (h.iff k m).mp hk
    dsimp only
    rw [Function.update_apply]
    by_cases hnm : n = m
    · subst hnm
      rw [if_pos rfl, hm]
      constructor
      · intro hnone
        cases hnone
      · rintro ⟨hsome, hne⟩
        exact absurd (Option.some.inj hsome).symm hne
    · rw [if_neg hnm]
      refine ⟨fun hn => ⟨hn, ?_⟩, fun hn => hn.1⟩
      -- a key has one handle
      rintro rfl
      rw [(h.iff k' n).mpr hn] at hk
      exact hnm (Option.some.inj hk)

/-- A handle from the count is given to a key that has none. -/
theorem Paired.bind (h : t.Paired) (hk : t.handle k = none) : (t.issue.bind k).Paired where
  iff k' n := by
    rw [handle_bind, key_bind]
    change (if k' = k then some (t.issued + 1) else t.handle k') = some n ↔
      (if n = t.issued + 1 then some k else t.key n) = some k'
    by_cases hkk : k' = k
    · subst hkk
      rw [if_pos rfl]
      by_cases hn : n = t.issued + 1
      · rw [if_pos hn, hn]
        simp
      · rw [if_neg hn, ← h.iff, hk]
        simp [Ne.symm hn]
    · rw [if_neg hkk, h.iff]
      by_cases hn : n = t.issued + 1
      · rw [if_pos hn]
        constructor
        · intro hkey
          have := (h.issued n k' hkey).2
          omega
        · intro hkey
          exact absurd (Option.some.inj hkey).symm hkk
      · rw [if_neg hn]
  issued n k' hk' := by
    rw [key_bind] at hk'
    change 1 ≤ n ∧ n ≤ t.issued + 1
    split at hk'
    · rename_i hn
      have hn : n = t.issued + 1 := hn
      omega
    · have := h.issued n k' hk'
      omega

theorem later_bind (t : Handles κ) (k : κ) : Later t (t.issue.bind k) where
  issued := Nat.le_succ _
  key n hn k' hk' := by
    have hne : n ≠ t.issue.issued := Nat.ne_of_lt (Nat.lt_succ_of_le hn)
    rwa [key_bind, if_neg hne] at hk'

theorem Paired.drop (h : t.Paired) (k : κ) : (t.drop k).Paired where
  iff k' n := by
    rw [handle_drop, key_drop h, ← h.iff]
    split
    · rename_i heq
      simp [heq]
    · rename_i hne
      simp [hne]
  issued n k' hk' := by
    rw [issued_drop]
    exact h.issued n k' ((key_drop h k n k').mp hk').1

theorem later_drop (h : t.Paired) (k : κ) : Later t (t.drop k) where
  issued := Nat.le_of_eq (issued_drop t k).symm
  key n _ k' hk' := ((key_drop h k n k').mp hk').1

end Handles

import Mathlib.Data.List.Basic

/-! The environment of a process: entries in order, a name that occurs more than once included.
What the calls that change one name do to the values of the others. -/

namespace Environ

variable {ν α : Type} [DecidableEq ν]

/-- The entries of an environment in their order. -/
abbrev Entries (ν α : Type) := List (ν × α)

/-- The first entry of the name is replaced, or a new one put behind the last. -/
def setenv (env : Entries ν α) (name : ν) (value : α) : Entries ν α :=
  match env with
  | [] => [(name, value)]
  | entry :: env =>
    if entry.1 = name then (name, value) :: env else entry :: setenv env name value

/-- All entries of the name go. -/
def unsetenv (env : Entries ν α) (name : ν) : Entries ν α := env.filter (·.1 ≠ name)

def setAll (env : Entries ν α) (pairs : Entries ν α) : Entries ν α :=
  pairs.foldl (fun env entry => setenv env entry.1 entry.2) env

def unsetAll (env : Entries ν α) (names : List ν) : Entries ν α := names.foldl unsetenv env

/-- The values a name has, the first of them the one that a look-up finds. -/
def valuesOf (env : Entries ν α) (name : ν) : List α := (env.filter (·.1 = name)).map Prod.snd

theorem valuesOf_cons (entry : ν × α) (env : Entries ν α) (name : ν) :
    valuesOf (entry :: env) name =
      if entry.1 = name then entry.2 :: valuesOf env name else valuesOf env name := by
  unfold valuesOf
  split <;> simp [*]

theorem valuesOf_setenv_self (env : Entries ν α) (name : ν) (value : α) :
    valuesOf (setenv env name value) name = value :: (valuesOf env name).tail := by
  induction env with
  | nil => simp [setenv, valuesOf]
  | cons entry env ih =>
    unfold setenv
    split
    · rename_i hname
      simp [valuesOf_cons, hname]
    · rename_i hname
      simp [valuesOf_cons, hname, ih]

theorem valuesOf_setenv_of_ne {name other : ν} (hne : name ≠ other) (env : Entries ν α) (value : α) :
    valuesOf (setenv env name value) other = valuesOf env other := by
  induction env with
  | nil => simp [setenv, valuesOf, hne]
  | cons entry env ih =>
    unfold setenv
    split
    · rename_i hname
      simp [valuesOf_cons, hname, hne]
    · simp [valuesOf_cons, ih]

theorem valuesOf_unsetenv_of_ne {name other : ν} (hne : name ≠ other) (env : Entries ν α) :
    valuesOf (unsetenv env name) other = valuesOf env other := by
  unfold valuesOf unsetenv
  rw [List.filter_filter]
  congr 1
  refine List.filter_congr fun entry _ => ?_
  by_cases hentry : entry.1 = other
  · simp [hentry, hne.symm]
  · simp [hentry]

theorem valuesOf_unsetenv_self (env : Entries ν α) (name : ν) :
    valuesOf (unsetenv env name) name = [] := by
  simp [valuesOf, unsetenv, List.filter_filter]

/-- What a name has after a change depends on what it had before. -/
theorem valuesOf_setenv_congr {env env' : Entries ν α} {name : ν}
    (h : valuesOf env name = valuesOf env' name) (other : ν) (value : α) :
    valuesOf (setenv env other value) name = valuesOf (setenv env' other value) name := by
  by_cases hne : other = name
  · subst hne
    rw [valuesOf_setenv_self, valuesOf_setenv_self, h]
  · rw [valuesOf_setenv_of_ne hne, valuesOf_setenv_of_ne hne, h]

theorem valuesOf_setAll_congr {env env' : Entries ν α} {name : ν}
    (h : valuesOf env name = valuesOf env' name) (pairs : Entries ν α) :
    valuesOf (setAll env pairs) name = valuesOf (setAll env' pairs) name := by
  induction pairs generalizing env env' with
  | nil => exact h
  | cons entry pairs ih => exact ih (valuesOf_setenv_congr h entry.1 entry.2)

theorem valuesOf_unsetAll {name : ν} {names : List ν} (h : name ∉ names) (env : Entries ν α) :
    valuesOf (unsetAll env names) name = valuesOf env name := by
  induction names generalizing env with
  | nil => rfl
  | cons other names ih =>
    obtain ⟨hne, hrest⟩ := not_or.mp (mt List.mem_cons.mpr h)
    exact (ih hrest (unsetenv env other)).trans (valuesOf_unsetenv_of_ne (Ne.symm hne) env)

theorem setAll_append (env pairs pairs' : Entries ν α) :
    setAll env (pairs ++ pairs') = setAll (setAll env pairs) pairs' :=
  List.foldl_append

end Environ

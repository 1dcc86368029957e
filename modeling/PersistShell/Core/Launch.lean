import Mathlib.Algebra.GroupWithZero.Nat
import Mathlib.Data.List.Nodup
import PersistShell.Core.Environment

/-! When the layers of a launch environment are accepted: the checks of all layers as one
condition on them. -/

namespace PersistShell

/-- `validatePair` accepts. -/
def PairOk (entry : String × String) : Prop :=
  validName entry.1 = true ∧ (utf8 entry.2).length ≤ maxShellEnvironmentValueBytes ∧
    (utf8 entry.2).contains 0 = false

theorem validatePair_eq_ok {entry : String × String} {u : Unit} :
    validatePair entry.1 entry.2 = .ok u ↔ PairOk entry := by
  have hiff : (!validName entry.1 ||
      decide ((utf8 entry.2).length > maxShellEnvironmentValueBytes) ||
      (utf8 entry.2).contains 0) = false ↔ PairOk entry := by
    simp only [PairOk, Bool.or_eq_false_iff, Bool.not_eq_false', decide_eq_false_iff_not, not_lt,
      gt_iff_lt, and_assoc]
  rw [← hiff, validatePair]
  split
  · rename_i h
    exact ⟨nofun, fun h' => nomatch h.symm.trans h'⟩
  · exact ⟨fun _ => eq_false_of_ne_true ‹_›, fun _ => rfl⟩

def pairBytes (entry : String × String) : Nat := (utf8 entry.1).length + (utf8 entry.2).length

namespace LaunchUse

/-- Where a layer leads when its names are new and its bytes fit. -/
def after {α : Type} (use : LaunchUse) (name : α → String) (size : α → Nat) (layer : List α) :
    LaunchUse :=
  ⟨(layer.map name).reverse ++ use.names, use.bytes + (layer.map size).sum⟩

/-- The names are distinct and the bytes fit. -/
def Fits (use : LaunchUse) : Prop := use.names.Nodup ∧ use.bytes ≤ maxShellEnvironmentBytes

theorem insertName_addBytes_eq_ok {use use' : LaunchUse} {name : String} {added : Nat} :
    (do (← use.insertName name).addBytes added : Except PersistError LaunchUse) = .ok use' ↔
      name ∉ use.names ∧ use.bytes + added ≤ maxShellEnvironmentBytes ∧
        use' = ⟨name :: use.names, use.bytes + added⟩ := by
  rw [bind_eq_ok]
  unfold insertName addBytes
  constructor
  · rintro ⟨inserted, hinsert, hadd⟩
    split at hinsert
    · cases hinsert
    · cases hinsert
      split at hadd
      · cases hadd
      · cases hadd
        exact ⟨‹_›, Nat.le_of_not_lt ‹_›, rfl⟩
  · rintro ⟨hnew, hsize, rfl⟩
    exact ⟨_, if_neg hnew, if_neg (Nat.not_lt.mpr hsize)⟩

variable {α : Type} {step : LaunchUse → α → Except PersistError LaunchUse} {P : α → Prop}
  {name : α → String} {size : α → Nat}

/-- A layer is accepted when each of its entries is and what it leads to fits. -/
theorem foldlM_eq_ok (hstep : ∀ use x use', step use x = .ok use' ↔ P x ∧ name x ∉ use.names ∧
      use.bytes + size x ≤ maxShellEnvironmentBytes ∧
      use' = ⟨name x :: use.names, use.bytes + size x⟩)
    {layer : List α} {use use' : LaunchUse} (hfits : use.Fits) :
    layer.foldlM step use = .ok use' ↔
      (∀ x ∈ layer, P x) ∧ use'.Fits ∧ use' = use.after name size layer := by
  induction layer generalizing use with
  | nil =>
    rw [List.foldlM_nil]
    refine ⟨fun h => ?_, fun ⟨_, _, h⟩ => congrArg Except.ok h.symm⟩
    cases h
    exact ⟨nofun, hfits, rfl⟩
  | cons x layer ih =>
    have hafter : use.after name size (x :: layer) =
        LaunchUse.after ⟨name x :: use.names, use.bytes + size x⟩ name size layer := by
      simp [after, Nat.add_assoc]
    rw [List.foldlM_cons, bind_eq_ok, hafter]
    constructor
    · rintro ⟨mid, hmid, hrest⟩
      obtain ⟨hx, hnew, hsize, rfl⟩ := (hstep _ _ _).mp hmid
      obtain ⟨hlayer, hfits', heq⟩ := (ih ⟨List.nodup_cons.mpr ⟨hnew, hfits.1⟩, hsize⟩).mp hrest
      exact ⟨List.forall_mem_cons.mpr ⟨hx, hlayer⟩, hfits', heq⟩
    · rintro ⟨hlayer, hfits', heq⟩
      obtain ⟨hx, hlayer⟩ := List.forall_mem_cons.mp hlayer
      have hmid : Fits ⟨name x :: use.names, use.bytes + size x⟩ := by
        refine ⟨hfits'.1.sublist ?_, le_trans ?_ hfits'.2⟩
        · rw [heq]
          exact List.sublist_append_right _ _
        · rw [heq]
          exact Nat.le_add_right _ _
      exact ⟨_, (hstep _ _ _).mpr ⟨hx, (List.nodup_cons.mp hmid.1).1, hmid.2, rfl⟩,
        (ih hmid).mpr ⟨hlayer, hfits', heq⟩⟩

end LaunchUse

namespace ShellLaunchEnvironment

def names (e : ShellLaunchEnvironment) : List String :=
  e.savedSet.map Prod.fst ++ e.savedUnset ++ e.connection.map Prod.fst ++ e.private_.map Prod.fst

def bytes (e : ShellLaunchEnvironment) : Nat :=
  (e.savedSet.map pairBytes).sum + (e.savedUnset.map fun name => (utf8 name).length).sum +
    (e.connection.map pairBytes).sum + (e.private_.map pairBytes).sum

/-- What `validate` checks of a launch environment. -/
structure Accepted (e : ShellLaunchEnvironment) : Prop where
  count : e.entryCount ≤ maxShellEnvironmentVariables
  savedSet : ∀ entry ∈ e.savedSet, PairOk entry ∧ hardDenied entry.1 = false
  savedUnset : ∀ name ∈ e.savedUnset, validName name = true ∧ hardDenied name = false
  connection : ∀ entry ∈ e.connection, PairOk entry ∧ entry.1 ∈ connectionNames
  private_ : ∀ entry ∈ e.private_, PairOk entry
  distinct : e.names.Nodup
  size : e.bytes ≤ maxShellEnvironmentBytes

theorem validateSavedSet_eq_ok (use : LaunchUse) (entry : String × String) (use' : LaunchUse) :
    validateSavedSet use entry = .ok use' ↔ (PairOk entry ∧ hardDenied entry.1 = false) ∧
      entry.1 ∉ use.names ∧ use.bytes + pairBytes entry ≤ maxShellEnvironmentBytes ∧
      use' = ⟨entry.1 :: use.names, use.bytes + pairBytes entry⟩ := by
  rw [pairBytes, ← LaunchUse.insertName_addBytes_eq_ok]
  unfold validateSavedSet
  rw [bind_eq_ok]
  constructor
  · rintro ⟨_, hpair, h⟩
    obtain ⟨_, hdenied, h⟩ := bind_eq_ok.mp h
    exact ⟨⟨validatePair_eq_ok.mp hpair, by simpa using rejectIf_eq_ok.mp hdenied⟩, h⟩
  · rintro ⟨⟨hpair, hdenied⟩, h⟩
    exact ⟨(), validatePair_eq_ok.mpr hpair, bind_eq_ok.mpr
      ⟨(), rejectIf_eq_ok.mpr (by simpa using hdenied), h⟩⟩

theorem validateSavedUnset_eq_ok (use : LaunchUse) (name : String) (use' : LaunchUse) :
    validateSavedUnset use name = .ok use' ↔ (validName name = true ∧ hardDenied name = false) ∧
      name ∉ use.names ∧ use.bytes + (utf8 name).length ≤ maxShellEnvironmentBytes ∧
      use' = ⟨name :: use.names, use.bytes + (utf8 name).length⟩ := by
  rw [← LaunchUse.insertName_addBytes_eq_ok]
  unfold validateSavedUnset
  rw [bind_eq_ok]
  constructor
  · rintro ⟨_, hcheck, h⟩
    exact ⟨by simpa using rejectIf_eq_ok.mp hcheck, h⟩
  · rintro ⟨hcheck, h⟩
    exact ⟨(), rejectIf_eq_ok.mpr (by simpa using hcheck), h⟩

theorem foldlM_savedUnset_eq_ok {names : List String} {use use' : LaunchUse} (hfits : use.Fits) :
    names.foldlM validateSavedUnset use = .ok use' ↔
      (∀ name ∈ names, validName name = true ∧ hardDenied name = false) ∧ use'.Fits ∧
        use' = use.after id (fun name => (utf8 name).length) names :=
  LaunchUse.foldlM_eq_ok validateSavedUnset_eq_ok hfits

theorem validateConnection_eq_ok (use : LaunchUse) (entry : String × String) (use' : LaunchUse) :
    validateConnection use entry = .ok use' ↔ (PairOk entry ∧ entry.1 ∈ connectionNames) ∧
      entry.1 ∉ use.names ∧ use.bytes + pairBytes entry ≤ maxShellEnvironmentBytes ∧
      use' = ⟨entry.1 :: use.names, use.bytes + pairBytes entry⟩ := by
  rw [pairBytes, ← LaunchUse.insertName_addBytes_eq_ok]
  unfold validateConnection
  rw [bind_eq_ok]
  constructor
  · rintro ⟨_, hpair, h⟩
    obtain ⟨_, hname, h⟩ := bind_eq_ok.mp h
    exact ⟨⟨validatePair_eq_ok.mp hpair, not_not.mp (rejectIf_eq_ok.mp hname)⟩, h⟩
  · rintro ⟨⟨hpair, hname⟩, h⟩
    exact ⟨(), validatePair_eq_ok.mpr hpair, bind_eq_ok.mpr
      ⟨(), rejectIf_eq_ok.mpr (not_not.mpr hname), h⟩⟩

theorem validatePrivate_eq_ok (use : LaunchUse) (entry : String × String) (use' : LaunchUse) :
    validatePrivate use entry = .ok use' ↔ PairOk entry ∧
      entry.1 ∉ use.names ∧ use.bytes + pairBytes entry ≤ maxShellEnvironmentBytes ∧
      use' = ⟨entry.1 :: use.names, use.bytes + pairBytes entry⟩ := by
  rw [pairBytes, ← LaunchUse.insertName_addBytes_eq_ok]
  unfold validatePrivate
  rw [bind_eq_ok]
  constructor
  · rintro ⟨_, hpair, h⟩
    exact ⟨validatePair_eq_ok.mp hpair, h⟩
  · rintro ⟨hpair, h⟩
    exact ⟨(), validatePair_eq_ok.mpr hpair, h⟩

theorem fits_of_append {use : LaunchUse} {names : List String} {bytes : Nat}
    (h : LaunchUse.Fits ⟨names ++ use.names, use.bytes + bytes⟩) : use.Fits :=
  ⟨h.1.sublist (List.sublist_append_right _ _), (Nat.le_add_right _ _).trans h.2⟩

theorem validate_eq_ok {e : ShellLaunchEnvironment} {u : Unit} :
    e.validate = .ok u ↔ e.Accepted := by
  have hempty : LaunchUse.Fits ⟨[], 0⟩ := ⟨List.nodup_nil, Nat.zero_le _⟩
  have hfits : LaunchUse.Fits ((((LaunchUse.mk [] 0).after Prod.fst pairBytes e.savedSet).after id
      (fun name => (utf8 name).length) e.savedUnset |>.after Prod.fst pairBytes
      e.connection).after Prod.fst pairBytes e.private_) ↔
      e.names.Nodup ∧ e.bytes ≤ maxShellEnvironmentBytes := by
    rw [LaunchUse.Fits, ← List.nodup_reverse]
    simp only [LaunchUse.after, names, bytes, List.reverse_append, List.reverse_reverse,
      List.append_nil, List.map_id, Nat.zero_add, List.append_assoc]
  unfold validate
  rw [bind_eq_ok]
  constructor
  · rintro ⟨_, hcount, h⟩
    obtain ⟨use₁, h₁, h⟩ := bind_eq_ok.mp h
    obtain ⟨use₂, h₂, h⟩ := bind_eq_ok.mp h
    obtain ⟨use₃, h₃, h⟩ := bind_eq_ok.mp h
    obtain ⟨use₄, h₄, -⟩ := bind_eq_ok.mp h
    obtain ⟨hset, hfits₁, rfl⟩ := (LaunchUse.foldlM_eq_ok validateSavedSet_eq_ok hempty).mp h₁
    obtain ⟨hunset, hfits₂, rfl⟩ := (foldlM_savedUnset_eq_ok hfits₁).mp h₂
    obtain ⟨hconnection, hfits₃, rfl⟩ :=
      (LaunchUse.foldlM_eq_ok validateConnection_eq_ok hfits₂).mp h₃
    obtain ⟨hprivate, hfits₄, rfl⟩ :=
      (LaunchUse.foldlM_eq_ok validatePrivate_eq_ok hfits₃).mp h₄
    obtain ⟨hdistinct, hsize⟩ := hfits.mp hfits₄
    exact ⟨Nat.le_of_not_lt (rejectIf_eq_ok.mp hcount), hset, hunset, hconnection, hprivate,
      hdistinct, hsize⟩
  · intro h
    have hfits₄ := hfits.mpr ⟨h.distinct, h.size⟩
    have hfits₃ := fits_of_append hfits₄
    have hfits₂ := fits_of_append hfits₃
    have hfits₁ := fits_of_append hfits₂
    refine ⟨(), rejectIf_eq_ok.mpr (Nat.not_lt.mpr h.count), ?_⟩
    exact bind_eq_ok.mpr ⟨_, (LaunchUse.foldlM_eq_ok validateSavedSet_eq_ok hempty).mpr
        ⟨h.savedSet, hfits₁, rfl⟩, bind_eq_ok.mpr
      ⟨_, (foldlM_savedUnset_eq_ok hfits₁).mpr ⟨h.savedUnset, hfits₂, rfl⟩, bind_eq_ok.mpr
      ⟨_, (LaunchUse.foldlM_eq_ok validateConnection_eq_ok hfits₂).mpr
        ⟨h.connection, hfits₃, rfl⟩, bind_eq_ok.mpr
      ⟨_, (LaunchUse.foldlM_eq_ok validatePrivate_eq_ok hfits₃).mpr
        ⟨h.private_, hfits₄, rfl⟩, rfl⟩⟩⟩⟩

theorem new_eq_ok {savedSet : List (String × String)} {savedUnset : List String}
    {connection private_ : List (String × String)} {e : ShellLaunchEnvironment} :
    new savedSet savedUnset connection private_ = .ok e ↔
      e = ⟨savedSet, savedUnset, connection, private_⟩ ∧ e.Accepted := by
  unfold new
  dsimp only
  rw [bind_eq_ok]
  constructor
  · rintro ⟨_, hvalid, h⟩
    cases h
    exact ⟨rfl, validate_eq_ok.mp hvalid⟩
  · rintro ⟨rfl, haccepted⟩
    exact ⟨(), validate_eq_ok.mpr haccepted, rfl⟩

end ShellLaunchEnvironment

end PersistShell

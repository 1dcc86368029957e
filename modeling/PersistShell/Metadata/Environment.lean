import PersistShell.Core.Policy

/-! The environment column of the metadata: a snapshot as JSON text, or the map that earlier
versions wrote. -/

namespace PersistShell

variable [SerdeJson]

def encodeEnvironment (snapshot : EnvironmentSnapshot) (policy : EnvironmentPolicy) :
    Except PersistError String := do
  let filtered ← policy.filterSnapshot snapshot
  let encoded ← encodeEnvironmentSnapshot filtered
  match fromUtf8 encoded with
  | some text => return text
  | none => throw (.invalidArgument "environment metadata is not UTF-8")

def decodeLegacyMap (encoded : String) : Except PersistError { entries : List (String × String) //
    (entries.map Prod.fst).Pairwise (· < ·) } :=
  match SerdeJson.stringMap (utf8 encoded) with
  | .ok entries => .ok entries
  | .error _ => .error (.invalidArgument "invalid legacy environment metadata")

/-- A legacy map as a snapshot. -/
def legacySnapshot (policy : EnvironmentPolicy) (legacy : { entries : List (String × String) //
    (entries.map Prod.fst).Pairwise (· < ·) }) : EnvironmentSnapshot where
  formatVersion := shellEnvironmentFormatVersion
  policyVersion := shellEnvironmentPolicyVersion
  policyFingerprint := policy.fingerprint
  envSet := legacy.val
  envUnset := []
  captureStatus := .preserved
  envSet_sorted := legacy.property
  envUnset_sorted := EnvironmentSnapshot.sorted_nil

/-- What the text of the column stands for, before the policy is applied. -/
def storedSnapshot (encoded : String) (policy : EnvironmentPolicy) :
    Except PersistError EnvironmentSnapshot :=
  match decodeEnvironmentSnapshot (utf8 encoded) with
  | .ok snapshot => .ok snapshot
  | .error _ => (decodeLegacyMap encoded).map (legacySnapshot policy)

def decodeEnvironment (encoded : Option String) (policy : EnvironmentPolicy) :
    Except PersistError (Option EnvironmentSnapshot) := do
  match encoded with
  | none => return none
  | some encoded =>
    rejectIf ((utf8 encoded).length > maxShellEnvironmentBytes)
      (PersistError.invalidArgument "environment metadata exceeds size limit")
    return some (← policy.filterSnapshot (← storedSnapshot encoded policy))

/-- A text that is no longer than the limit, is a snapshot or a legacy map within the hard
limits, and of which the part that the policy allows is within the limits of the policy. -/
def EnvironmentUsable (encoded : Option String) (policy : EnvironmentPolicy) : Prop :=
  ∀ text, encoded = some text → (utf8 text).length ≤ maxShellEnvironmentBytes ∧
    ∃ snapshot, storedSnapshot text policy = .ok snapshot ∧
      snapshot.validateHardLimits = .ok () ∧
      (policy.filtered snapshot).validate policy.maxVariables policy.maxBytes = .ok ()

theorem filterSnapshot_eq_ok {policy : EnvironmentPolicy} {s s' : EnvironmentSnapshot} :
    policy.filterSnapshot s = .ok s' ↔ s.validateHardLimits = .ok () ∧
      (policy.filtered s).validate policy.maxVariables policy.maxBytes = .ok () ∧
      s' = policy.filtered s := by
  unfold EnvironmentPolicy.filterSnapshot
  rw [bind_eq_ok]
  refine ⟨fun ⟨_, hhard, h⟩ => ?_, fun ⟨hhard, hlimits, heq⟩ => ⟨(), hhard, ?_⟩⟩
  · obtain ⟨_, hlimits, h⟩ := bind_eq_ok.mp h
    cases h
    exact ⟨hhard, hlimits, rfl⟩
  · exact bind_eq_ok.mpr ⟨(), hlimits, congrArg Except.ok heq.symm⟩

/-- A snapshot within some limits is within wider ones. -/
theorem EnvironmentSnapshot.validate_mono {s : EnvironmentSnapshot}
    {maxVariables maxBytes maxVariables' maxBytes' : Nat}
    (h : s.validate maxVariables maxBytes = .ok ()) (hvariables : maxVariables ≤ maxVariables')
    (hbytes : maxBytes ≤ maxBytes') : s.validate maxVariables' maxBytes' = .ok () := by
  obtain ⟨_, hversion, h⟩ := bind_eq_ok.mp h
  obtain ⟨_, hcount, h⟩ := bind_eq_ok.mp h
  have hcount := rejectIf_eq_ok.mp hcount
  refine bind_eq_ok.mpr ⟨(), hversion, bind_eq_ok.mpr
    ⟨(), rejectIf_eq_ok.mpr (by omega), ?_⟩⟩
  obtain ⟨_, hoverlap, h⟩ := bind_eq_ok.mp h
  obtain ⟨_, hset, h⟩ := bind_eq_ok.mp h
  obtain ⟨_, hunset, h⟩ := bind_eq_ok.mp h
  obtain ⟨_, hstatus, h⟩ := bind_eq_ok.mp h
  refine bind_eq_ok.mpr ⟨(), hoverlap, bind_eq_ok.mpr ⟨(), hset, bind_eq_ok.mpr ⟨(), hunset,
    bind_eq_ok.mpr ⟨(), hstatus, ?_⟩⟩⟩⟩
  cases hencoded : SerdeJson.snapshotToVec s with
  | error error =>
    rw [hencoded] at h
    cases h
  | ok encoded =>
    rw [hencoded] at h
    have hsize := rejectIf_eq_ok.mp h
    exact rejectIf_eq_ok.mpr (by omega)

theorem filterSnapshot_again {policy : EnvironmentPolicy} {s t : EnvironmentSnapshot}
    (hvariables : policy.maxVariables ≤ maxShellEnvironmentVariables)
    (hbytes : policy.maxBytes ≤ maxShellEnvironmentBytes) (h : policy.filterSnapshot s = .ok t) :
    policy.filterSnapshot t = .ok t := by
  obtain ⟨-, hlimits, rfl⟩ := filterSnapshot_eq_ok.mp h
  have hagain := policy.filtered_filtered s
  refine filterSnapshot_eq_ok.mpr ⟨EnvironmentSnapshot.validate_mono hlimits hvariables hbytes, ?_, hagain.symm⟩
  rw [hagain]
  exact hlimits

/-- A snapshot and what the policy leaves of it are stored as the same text. -/
theorem encodeEnvironment_filtered {policy : EnvironmentPolicy} {s t : EnvironmentSnapshot}
    (hvariables : policy.maxVariables ≤ maxShellEnvironmentVariables)
    (hbytes : policy.maxBytes ≤ maxShellEnvironmentBytes) (h : policy.filterSnapshot s = .ok t) :
    encodeEnvironment t policy = encodeEnvironment s policy := by
  unfold encodeEnvironment
  rw [filterSnapshot_again hvariables hbytes h, h]

/-- The environment of a column that is empty, or the allowed part of what it stands for. -/
theorem decodeEnvironment_isOk_iff {encoded : Option String} {policy : EnvironmentPolicy} :
    (∃ environment, decodeEnvironment encoded policy = .ok environment) ↔
      EnvironmentUsable encoded policy := by
  cases encoded with
  | none => exact ⟨fun _ => nofun, fun _ => ⟨none, rfl⟩⟩
  | some text =>
    constructor
    · rintro ⟨environment, h⟩
      obtain ⟨_, hsize, h⟩ := bind_eq_ok.mp h
      obtain ⟨snapshot, hstored, h⟩ := bind_eq_ok.mp h
      obtain ⟨filtered, hfiltered, -⟩ := bind_eq_ok.mp h
      obtain ⟨hhard, hlimits, -⟩ := filterSnapshot_eq_ok.mp hfiltered
      rintro _ ⟨⟩
      exact ⟨Nat.le_of_not_lt (rejectIf_eq_ok.mp hsize), snapshot, hstored, hhard, hlimits⟩
    · intro h
      obtain ⟨hsize, snapshot, hstored, hhard, hlimits⟩ := h text rfl
      refine ⟨some (policy.filtered snapshot), bind_eq_ok.mpr
        ⟨(), rejectIf_eq_ok.mpr (Nat.not_lt.mpr hsize), bind_eq_ok.mpr
          ⟨snapshot, hstored, bind_eq_ok.mpr ⟨policy.filtered snapshot, ?_, rfl⟩⟩⟩⟩
      exact filterSnapshot_eq_ok.mpr ⟨hhard, hlimits, rfl⟩

/-- Whatever comes out of the column is allowed and within the limits. -/
theorem decodeEnvironment_yields {encoded : Option String} {policy : EnvironmentPolicy}
    {snapshot : EnvironmentSnapshot} (h : decodeEnvironment encoded policy = .ok (some snapshot)) :
    (∃ s, snapshot = policy.filtered s) ∧
      snapshot.validate policy.maxVariables policy.maxBytes = .ok () := by
  cases encoded with
  | none => cases h
  | some text =>
    obtain ⟨_, -, h⟩ := bind_eq_ok.mp h
    obtain ⟨s, -, h⟩ := bind_eq_ok.mp h
    obtain ⟨filtered, hfiltered, h⟩ := bind_eq_ok.mp h
    obtain ⟨-, hlimits, rfl⟩ := filterSnapshot_eq_ok.mp hfiltered
    cases h
    exact ⟨⟨s, rfl⟩, hlimits⟩

end PersistShell

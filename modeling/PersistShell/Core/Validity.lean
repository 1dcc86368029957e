import PersistShell.Core.JsonSize
import PersistShell.Core.Policy

/-! What a valid snapshot is: well formed, with as many variables and as long a text as the limits
allow. -/

namespace PersistShell

/-- The library writes the text of a snapshot. -/
class Json.Writes [SerdeJson] : Prop where
  snapshotToVec (s : EnvironmentSnapshot) :
    SerdeJson.snapshotToVec s = .ok (utf8 (Json.snapshotText s))

/-- What a valid snapshot is, apart from the limits. -/
structure EnvironmentSnapshot.WellFormed (s : EnvironmentSnapshot) : Prop where
  format : s.formatVersion = shellEnvironmentFormatVersion
  policy : s.policyVersion = shellEnvironmentPolicyVersion
  fingerprint : validFingerprint s.policyFingerprint = true
  disjoint : ∀ entry ∈ s.envSet, entry.1 ∉ s.envUnset
  set : ∀ entry ∈ s.envSet, validateEntry entry.1 entry.2 = .ok ()
  unset : ∀ name ∈ s.envUnset, validateEntry name "" = .ok ()
  status : s.captureStatus = .unavailable → s.envSet = [] ∧ s.envUnset = []

section validate

variable [SerdeJson] [Json.Writes] {s : EnvironmentSnapshot} {maxVariables maxBytes : Nat}

/-- The text of a snapshot is as long as the library makes it. -/
theorem length_of_snapshotToVec {encoded : Bytes} (h : SerdeJson.snapshotToVec s = .ok encoded) :
    encoded.length = Json.size (Json.snapshotText s) := by
  rw [Json.Writes.snapshotToVec] at h
  cases h
  rfl

theorem EnvironmentSnapshot.validate_eq_ok :
    s.validate maxVariables maxBytes = .ok () ↔
      s.WellFormed ∧ s.envSet.length + s.envUnset.length ≤ maxVariables ∧
        Json.size (Json.snapshotText s) ≤ maxBytes := by
  constructor
  · intro h
    obtain ⟨_, hversion, h⟩ := bind_eq_ok.mp h
    obtain ⟨_, hcount, h⟩ := bind_eq_ok.mp h
    obtain ⟨_, hoverlap, h⟩ := bind_eq_ok.mp h
    obtain ⟨_, hset, h⟩ := bind_eq_ok.mp h
    obtain ⟨_, hunset, h⟩ := bind_eq_ok.mp h
    obtain ⟨_, hstatus, h⟩ := bind_eq_ok.mp h
    have hversion := rejectIf_eq_ok.mp hversion
    simp only [not_or, Decidable.not_not, Bool.not_eq_true', Bool.not_eq_false] at hversion
    have hoverlap := rejectIf_eq_ok.mp hoverlap
    have hstatus := rejectIf_eq_ok.mp hstatus
    rw [Json.Writes.snapshotToVec] at h
    refine ⟨⟨hversion.1, hversion.2.1, hversion.2.2, ?_, forM_eq_ok.mp hset, forM_eq_ok.mp hunset,
      ?_⟩, Nat.le_of_not_lt (rejectIf_eq_ok.mp hcount), Nat.le_of_not_lt (rejectIf_eq_ok.mp h)⟩
    · exact fun entry hentry hmem =>
        hoverlap (List.any_eq_true.mpr ⟨entry, hentry, List.contains_iff_mem.mpr hmem⟩)
    · intro hunavailable
      constructor
      · exact Decidable.not_not.mp fun hne => hstatus ⟨hunavailable, .inl hne⟩
      · exact Decidable.not_not.mp fun hne => hstatus ⟨hunavailable, .inr hne⟩
  · rintro ⟨hs, hcount, hsize⟩
    refine bind_eq_ok.mpr ⟨(), rejectIf_eq_ok.mpr ?_, bind_eq_ok.mpr
      ⟨(), rejectIf_eq_ok.mpr (Nat.not_lt.mpr hcount), bind_eq_ok.mpr
      ⟨(), rejectIf_eq_ok.mpr ?_, bind_eq_ok.mpr ⟨(), forM_eq_ok.mpr hs.set, bind_eq_ok.mpr
      ⟨(), forM_eq_ok.mpr hs.unset, bind_eq_ok.mpr ⟨(), rejectIf_eq_ok.mpr ?_, ?_⟩⟩⟩⟩⟩⟩
    · simp only [not_or, Decidable.not_not, Bool.not_eq_true', Bool.not_eq_false]
      exact ⟨hs.format, hs.policy, hs.fingerprint⟩
    · intro hany
      obtain ⟨entry, hentry, hmem⟩ := List.any_eq_true.mp hany
      exact hs.disjoint entry hentry (List.contains_iff_mem.mp hmem)
    · rintro ⟨hunavailable, hne⟩
      obtain ⟨hset, hunset⟩ := hs.status hunavailable
      exact hne.elim (fun h => h hset) fun h => h hunset
    · rw [Json.Writes.snapshotToVec]
      exact rejectIf_eq_ok.mpr (Nat.not_lt.mpr hsize)

end validate

theorem EnvironmentSnapshot.WellFormed.size {s : EnvironmentSnapshot} (h : s.WellFormed) :
    Json.size (Json.snapshotText s) = 125 + Json.listSize (s.envSet.map Json.entrySize) +
      Json.listSize (s.envUnset.map Json.nameSize) + Json.statusSize s.captureStatus :=
  Json.size_snapshotText h.format h.policy h.fingerprint

section fingerprint

theorem hexDigit_valid (n : Nat) : ∃ b : UInt8, String.utf8EncodeChar (hexDigit (n % 16)) = [b] ∧
    (isAsciiDigit b || (97 ≤ b && b ≤ 102)) = true := by
  have hall : ∀ i : Fin 16, ∃ b : UInt8, String.utf8EncodeChar (hexDigit i.val) = [b] ∧
      (isAsciiDigit b || (97 ≤ b && b ≤ 102)) = true := by
    intro i
    refine ⟨(String.utf8EncodeChar (hexDigit i.val)).head!, ?_⟩
    revert i
    decide
  exact hall ⟨n % 16, Nat.mod_lt n (by decide)⟩

theorem hexString_valid (width value : Nat) :
    ((hexString width value).flatMap String.utf8EncodeChar).length = width ∧
      ((hexString width value).flatMap String.utf8EncodeChar).all
        (fun b => isAsciiDigit b || (97 ≤ b && b ≤ 102)) = true := by
  induction width generalizing value with
  | zero => exact ⟨rfl, rfl⟩
  | succ width ih =>
    obtain ⟨hlength, hall⟩ := ih (value / 16)
    obtain ⟨b, hb, hhex⟩ := hexDigit_valid value
    rw [hexString, List.flatMap_append, List.flatMap_singleton, hb]
    refine ⟨by rw [List.length_append, hlength, List.length_singleton], ?_⟩
    rw [List.all_append, hall, Bool.true_and, List.all_cons, hhex]
    rfl

theorem validFingerprint_fingerprint (include_ : List String) (maxVariables maxBytes : Nat) :
    validFingerprint (fingerprint include_ maxVariables maxBytes) = true := by
  have hvalid := hexString_valid 16
  unfold fingerprint validFingerprint
  dsimp only
  rw [utf8_eq_flatMap, String.toList_ofList, (hvalid _).1, (hvalid _).2]
  rfl

theorem EnvironmentPolicy.new_fingerprint {include_ : List String} {maxVariables maxBytes : Nat}
    {policy : EnvironmentPolicy}
    (h : EnvironmentPolicy.new include_ maxVariables maxBytes = .ok policy) :
    validFingerprint policy.fingerprint = true ∧ policy.maxVariables = maxVariables ∧
      policy.maxBytes = maxBytes := by
  obtain ⟨_, -, h⟩ := bind_eq_ok.mp h
  obtain ⟨_, -, h⟩ := bind_eq_ok.mp h
  obtain ⟨_, -, h⟩ := bind_eq_ok.mp h
  obtain ⟨_, -, h⟩ := bind_eq_ok.mp h
  obtain ⟨_, -, h⟩ := bind_eq_ok.mp h
  cases h
  exact ⟨validFingerprint_fingerprint _ _ _, rfl, rfl⟩

end fingerprint

end PersistShell

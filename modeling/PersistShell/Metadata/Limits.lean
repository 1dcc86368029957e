import PersistShell.Core.Validity
import PersistShell.Metadata.Environment

/-! Snapshots at the limits: what filtering and relabelling do to the length of the text, and
when a valid snapshot no longer fits after them. -/

namespace PersistShell

section relabel

variable {policy : EnvironmentPolicy} {s : EnvironmentSnapshot}

theorem EnvironmentSnapshot.WellFormed.filtered (h : s.WellFormed)
    (hpolicy : validFingerprint policy.fingerprint = true) : (policy.filtered s).WellFormed where
  format := rfl
  policy := rfl
  fingerprint := hpolicy
  disjoint entry hentry hmem :=
    h.disjoint entry (List.mem_filter.mp hentry).1 (List.mem_filter.mp hmem).1
  set entry hentry := h.set entry (List.mem_filter.mp hentry).1
  unset name hname := h.unset name (List.mem_filter.mp hname).1
  status hunavailable := by
    have hsame : s.captureStatus = .unavailable := by
      unfold EnvironmentPolicy.filtered at hunavailable
      dsimp only at hunavailable
      split at hunavailable
      · cases hunavailable
      · exact hunavailable
    obtain ⟨hset, hunset⟩ := h.status hsame
    change s.envSet.filter _ = [] ∧ s.envUnset.filter _ = []
    rw [hset, hunset]
    exact ⟨rfl, rfl⟩

theorem EnvironmentSnapshot.WellFormed.preserved (h : s.WellFormed) :
    { s with captureStatus := .preserved : EnvironmentSnapshot }.WellFormed where
  format := h.format
  policy := h.policy
  fingerprint := h.fingerprint
  disjoint := h.disjoint
  set := h.set
  unset := h.unset
  status := fun hunavailable => by cases hunavailable

/-- Only the label `complete` is shorter than `preserved`, by one byte. -/
theorem statusSize_preserved (status : EnvironmentCaptureStatus) :
    Json.statusSize .preserved ≤
      Json.statusSize status + if status = .complete then 1 else 0 := by
  cases status <;> decide

theorem statusSize_complete : Json.statusSize .preserved = Json.statusSize .complete + 1 := by
  decide

theorem size_preserved (h : s.WellFormed) :
    Json.size (Json.snapshotText { s with captureStatus := .preserved }) +
      Json.statusSize s.captureStatus =
    Json.size (Json.snapshotText s) + Json.statusSize .preserved := by
  have hnew := h.preserved.size
  have hold := h.size
  dsimp only at hnew
  omega

/-- What filtering leaves out is longer than what the label can grow by. -/
theorem size_filtered_le (h : s.WellFormed) (hpolicy : validFingerprint policy.fingerprint = true) :
    Json.size (Json.snapshotText (policy.filtered s)) ≤
      Json.size (Json.snapshotText s) + if s.captureStatus = .complete then 1 else 0 := by
  have hstatus := statusSize_preserved s.captureStatus
  have hset := Json.listSize_filter_le Json.entrySize
    (fun entry => policy.allows entry.1) s.envSet
  have hunset := Json.listSize_filter_le Json.nameSize
    (fun name => policy.allows name) s.envUnset
  have hlabel : Json.statusSize (policy.filtered s).captureStatus ≤
      Json.statusSize s.captureStatus + if s.captureStatus = .complete then 1 else 0 := by
    unfold EnvironmentPolicy.filtered
    dsimp only
    split
    · exact hstatus
    · exact Nat.le_add_right _ _
  have hnew := (h.filtered hpolicy).size
  have hold := h.size
  change _ = 125 + Json.listSize ((s.envSet.filter fun entry => policy.allows entry.1).map _) +
    Json.listSize ((s.envUnset.filter fun name => policy.allows name).map _) + _ at hnew
  omega

end relabel

section limits

variable [SerdeJson] [Json.Writes] {include_ : List String} {policy : EnvironmentPolicy}

/-- Filtering, relabelling and encoding succeed. -/
def StaysValid (policy : EnvironmentPolicy) (s : EnvironmentSnapshot) : Prop :=
  (∃ t, policy.filterSnapshot s = .ok t) ∧
    (s.envSet ≠ [] ∨ s.envUnset ≠ [] → ∃ t, s.preserved = .ok t) ∧
    ∃ text, encodeEnvironment s policy = .ok text

theorem encodeEnvironment_of_filter {s t : EnvironmentSnapshot}
    (h : policy.filterSnapshot s = .ok t) (ht : t.validateHardLimits = .ok ()) :
    ∃ text, encodeEnvironment s policy = .ok text := by
  obtain ⟨-, -, hsize⟩ := EnvironmentSnapshot.validate_eq_ok.mp ht
  have hencode : encodeEnvironmentSnapshot t = .ok (utf8 (Json.snapshotText t)) := by
    refine bind_eq_ok.mpr ⟨(), ht, ?_⟩
    rw [Json.Writes.snapshotToVec]
    exact bind_eq_ok.mpr ⟨(), rejectIf_eq_ok.mpr (Nat.not_lt.mpr hsize), rfl⟩
  refine ⟨Json.snapshotText t, bind_eq_ok.mpr ⟨t, h, bind_eq_ok.mpr ⟨_, hencode, ?_⟩⟩⟩
  rw [fromUtf8_utf8]
  rfl

theorem not_preserved_of_full {s t : EnvironmentSnapshot} (hform : s.WellFormed)
    (hcomplete : s.captureStatus = .complete)
    (hfull : Json.size (Json.snapshotText s) = maxShellEnvironmentBytes) : s.preserved ≠ .ok t := by
  intro ht
  obtain ⟨_, -, ht⟩ := bind_eq_ok.mp ht
  obtain ⟨_, hvalid, -⟩ := bind_eq_ok.mp ht
  obtain ⟨-, -, hlonger⟩ := EnvironmentSnapshot.validate_eq_ok.mp hvalid
  have hgrown := size_preserved hform
  rw [hcomplete, statusSize_complete] at hgrown
  omega

/-- A complete snapshot that fills the limit does not stay within it when it is relabelled, and
every other one does. -/
theorem staysValid_iff (hpolicy : EnvironmentPolicy.new include_ maxShellEnvironmentVariables
    maxShellEnvironmentBytes = .ok policy) (s : EnvironmentSnapshot)
    (hs : s.validateHardLimits = .ok ()) :
    StaysValid policy s ↔ ¬ (s.captureStatus = .complete ∧
      ∃ encoded, SerdeJson.snapshotToVec s = .ok encoded ∧
        encoded.length = maxShellEnvironmentBytes) := by
  obtain ⟨hfingerprint, hvariables, hbytes⟩ := EnvironmentPolicy.new_fingerprint hpolicy
  obtain ⟨hform, hcount, hsize⟩ := EnvironmentSnapshot.validate_eq_ok.mp hs
  constructor
  · rintro ⟨-, hpreserved, -⟩ ⟨hcomplete, encoded, hencoded, hfull⟩
    rw [length_of_snapshotToVec hencoded] at hfull
    have hnonempty : s.envSet ≠ [] ∨ s.envUnset ≠ [] := by
      by_contra hempty
      simp only [not_or, Decidable.not_not] at hempty
      rw [hform.size, hempty.1, hempty.2, hcomplete] at hfull
      exact absurd hfull (by decide)
    obtain ⟨t, ht⟩ := hpreserved hnonempty
    exact not_preserved_of_full hform hcomplete hfull ht
  · intro hroom
    have hrelabelled : Json.size (Json.snapshotText s) +
        (if s.captureStatus = .complete then 1 else 0) ≤ maxShellEnvironmentBytes := by
      split
      · rename_i hcomplete
        have hnot : Json.size (Json.snapshotText s) ≠ maxShellEnvironmentBytes := fun hfull =>
          hroom ⟨hcomplete, _, Json.Writes.snapshotToVec s, hfull⟩
        omega
      · exact hsize
    have hfiltered : (policy.filtered s).validate policy.maxVariables policy.maxBytes = .ok () := by
      rw [hvariables, hbytes]
      refine EnvironmentSnapshot.validate_eq_ok.mpr ⟨hform.filtered hfingerprint, ?_, ?_⟩
      · have hset := List.length_filter_le (fun entry => policy.allows entry.1) s.envSet
        have hunset := List.length_filter_le (fun name => policy.allows name) s.envUnset
        change (s.envSet.filter fun entry => policy.allows entry.1).length +
          (s.envUnset.filter fun name => policy.allows name).length ≤ _
        omega
      · have := size_filtered_le hform hfingerprint
        omega
    have hfilter : policy.filterSnapshot s = .ok (policy.filtered s) :=
      filterSnapshot_eq_ok.mpr ⟨hs, hfiltered, rfl⟩
    refine ⟨⟨_, hfilter⟩, fun hnonempty => ?_, encodeEnvironment_of_filter hfilter ?_⟩
    · refine ⟨{ s with captureStatus := .preserved }, bind_eq_ok.mpr ⟨(), rejectIf_eq_ok.mpr ?_,
        bind_eq_ok.mpr ⟨(), EnvironmentSnapshot.validate_eq_ok.mpr ⟨hform.preserved, hcount, ?_⟩,
        rfl⟩⟩⟩
      · exact fun hempty => hnonempty.elim (fun h => h hempty.1) fun h => h hempty.2
      · have hgrown := size_preserved hform
        have hstatus := statusSize_preserved s.captureStatus
        omega
    · rw [hvariables, hbytes] at hfiltered
      exact hfiltered

end limits

section full

theorem limits_policy : ∃ policy, EnvironmentPolicy.new [] maxShellEnvironmentVariables
    maxShellEnvironmentBytes = .ok policy := by
  have hnew : (EnvironmentPolicy.new [] maxShellEnvironmentVariables
      maxShellEnvironmentBytes).isOk = true := by decide +kernel
  cases hpolicy : EnvironmentPolicy.new [] maxShellEnvironmentVariables maxShellEnvironmentBytes with
  | error e =>
    rw [hpolicy] at hnew
    cases hnew
  | ok policy => exact ⟨policy, rfl⟩

theorem langEntry_sorted : ([("LANG", "C")].map Prod.fst).Pairwise (· < ·) :=
  List.pairwise_singleton _ _

def langSnapshot : EnvironmentSnapshot where
  formatVersion := 1
  policyVersion := 1
  policyFingerprint := "0000000000000000"
  envSet := [("LANG", "C")]
  envUnset := []
  captureStatus := .complete
  envSet_sorted := langEntry_sorted
  envUnset_sorted := EnvironmentSnapshot.sorted_nil

theorem langSnapshot_staysValid : ∃ policy, EnvironmentPolicy.new [] maxShellEnvironmentVariables
    maxShellEnvironmentBytes = .ok policy ∧ @StaysValid Json.serdeJson policy langSnapshot := by
  let _ := Json.serdeJson
  have _ : Json.Writes := ⟨fun _ => rfl⟩
  obtain ⟨policy, hpolicy⟩ := limits_policy
  have hvalid : langSnapshot.validateHardLimits = .ok () := by decide +kernel
  refine ⟨policy, hpolicy, (staysValid_iff hpolicy langSnapshot hvalid).mpr ?_⟩
  rintro ⟨-, encoded, hencoded, hfull⟩
  cases hencoded
  exact absurd hfull (by decide +kernel)

/-- A value of this many letters. -/
def letters (n : Nat) : String := String.ofList (List.replicate n 'a')

theorem utf8_letters (n : Nat) : utf8 (letters n) = List.replicate n 97 := by
  have hletter : String.utf8EncodeChar 'a' = [97] := by decide
  rw [utf8_eq_flatMap, letters, String.toList_ofList, List.flatMap_replicate, hletter,
    List.flatten_replicate_singleton]

theorem size_quoted_letters (n : Nat) : Json.size (Json.quoted (letters n)) = 2 + n := by
  rw [Json.size_quoted_plain, Json.size, utf8_letters, List.length_replicate]
  intro b hb
  rw [utf8_letters] at hb
  rw [List.eq_of_mem_replicate hb]
  exact ⟨by decide, by decide, by decide, by decide⟩

theorem validateEntry_letters {name : String} {n : Nat} (hname : validName name = true)
    (hn : n ≤ maxShellEnvironmentValueBytes) : validateEntry name (letters n) = .ok () := by
  have hzero : (List.replicate n (97 : UInt8)).contains 0 = false := by
    rw [← Bool.not_eq_true, List.contains_iff_mem]
    exact fun hmem => absurd (List.eq_of_mem_replicate hmem) (by decide)
  unfold validateEntry
  rw [utf8_letters, List.length_replicate, hname, hzero, decide_eq_false (Nat.not_lt.mpr hn)]
  rfl

theorem entrySize_letters (lengths : List (String × Nat)) :
    (lengths.map fun entry => (entry.1, letters entry.2)).map Json.entrySize =
      lengths.map fun entry => Json.size (Json.quoted entry.1) + 1 + (2 + entry.2) := by
  rw [List.map_map]
  refine List.map_congr_left fun entry _ => ?_
  rw [Function.comp_apply, Json.entrySize, size_quoted_letters]

/-- Names that every policy allows, with the lengths of their values. -/
def fullLengths : List (String × Nat) :=
  [("LC_A", 8192), ("LC_B", 8192), ("LC_C", 8192), ("LC_D", 8192), ("LC_E", 8192), ("LC_F", 8192),
    ("LC_G", 8192), ("LC_H", 7978)]

theorem fullLengths_sorted :
    ((fullLengths.map fun entry => (entry.1, letters entry.2)).map Prod.fst).Pairwise (· < ·) := by
  rw [List.map_map]
  change (fullLengths.map Prod.fst).Pairwise (· < ·)
  decide

/-- Its text is as long as the text of a snapshot may be. -/
def fullSnapshot : EnvironmentSnapshot where
  formatVersion := 1
  policyVersion := 1
  policyFingerprint := "0000000000000000"
  envSet := fullLengths.map fun entry => (entry.1, letters entry.2)
  envUnset := []
  captureStatus := .complete
  envSet_sorted := fullLengths_sorted
  envUnset_sorted := EnvironmentSnapshot.sorted_nil

theorem fullSnapshot_wellFormed : fullSnapshot.WellFormed where
  format := rfl
  policy := rfl
  fingerprint := by decide
  disjoint _ _ := List.not_mem_nil
  set entry hentry := by
    obtain ⟨entry, hmem, rfl⟩ := List.mem_map.mp hentry
    have hall : ∀ entry ∈ fullLengths, validName entry.1 = true ∧
      entry.2 ≤ maxShellEnvironmentValueBytes := by decide
    exact validateEntry_letters (hall entry hmem).1 (hall entry hmem).2
  unset _ h := absurd h List.not_mem_nil
  status h := by cases h

theorem size_fullSnapshot :
    Json.size (Json.snapshotText fullSnapshot) = maxShellEnvironmentBytes := by
  have hset : fullSnapshot.envSet.map Json.entrySize =
      fullLengths.map fun entry => Json.size (Json.quoted entry.1) + 1 + (2 + entry.2) :=
    entrySize_letters fullLengths
  rw [fullSnapshot_wellFormed.size, hset]
  decide

theorem fullSnapshot_valid :
    @EnvironmentSnapshot.validateHardLimits Json.serdeJson fullSnapshot = .ok () := by
  let _ := Json.serdeJson
  have _ : Json.Writes := ⟨fun _ => rfl⟩
  exact EnvironmentSnapshot.validate_eq_ok.mpr
    ⟨fullSnapshot_wellFormed, by decide, Nat.le_of_eq size_fullSnapshot⟩

/-- A valid snapshot that cannot be relabelled. -/
theorem fullSnapshot_lost : ¬ ∀ (policy : EnvironmentPolicy) (s : EnvironmentSnapshot),
    EnvironmentPolicy.new [] maxShellEnvironmentVariables maxShellEnvironmentBytes = .ok policy →
    @EnvironmentSnapshot.validateHardLimits Json.serdeJson s = .ok () →
    @StaysValid Json.serdeJson policy s := by
  intro hclaim
  let _ := Json.serdeJson
  have _ : Json.Writes := ⟨fun _ => rfl⟩
  obtain ⟨policy, hpolicy⟩ := limits_policy
  obtain ⟨-, hpreserved, -⟩ := hclaim policy fullSnapshot hpolicy fullSnapshot_valid
  have hnonempty : fullSnapshot.envSet ≠ [] := by
    intro hempty
    have hlength := congrArg List.length hempty
    rw [fullSnapshot, List.length_map] at hlength
    cases hlength
  obtain ⟨t, ht⟩ := hpreserved (.inl hnonempty)
  exact not_preserved_of_full fullSnapshot_wellFormed rfl size_fullSnapshot ht

end full

end PersistShell

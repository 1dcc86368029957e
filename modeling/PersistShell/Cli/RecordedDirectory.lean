import PersistShell.Cli.CommitInput
import PersistShell.Core.Snapshot
import PersistShell.Metadata.Limits

/-! When a commit records the directory: the environment falls back, but what it falls back to
shares one limit with the directory. -/

namespace PersistShell

theorem toOption_eq_some {ε α : Type} {result : Except ε α} {a : α} :
    result.toOption = some a ↔ result = .ok a := by
  cases result with
  | error e => exact ⟨fun h => (by cases h), fun h => (by cases h)⟩
  | ok b => exact ⟨fun h => (by cases h; rfl), fun h => (by cases h; rfl)⟩

theorem readCwd_utf8 {cwd : String} (hcwd : ValidCwd cwd) : readCwd (utf8 cwd) = .ok cwd := by
  have hlength := hcwd.length_le
  have htake : (utf8 cwd).take (maxShellCwdBytes + 1) = utf8 cwd :=
    List.take_of_length_le (by omega)
  unfold readCwd
  dsimp only
  rw [htake, fromUtf8_utf8]
  exact bind_eq_ok.mpr ⟨(), rejectIf_eq_ok.mpr (Nat.not_lt.mpr hlength), rfl⟩

theorem size_toString_identity {identity : ShellStateIdentity} {sequence : Nat}
    (hidentity : identity.Valid) (hsequence : sequence < 2 ^ 64) :
    Json.size (toString identity.sessionId) ≤ 10 ∧ Json.size (toString sequence) ≤ 20 := by
  have hid := hidentity.sessionId_lt
  exact ⟨Json.size_toString_le (by decide) (by omega), Json.size_toString_le (by decide) (by omega)⟩

theorem parsePolicy_limits {environment : ProcessEnvironment} {policy : EnvironmentPolicy}
    (h : parsePolicy environment = some policy) :
    policy.maxVariables ≤ maxShellEnvironmentVariables ∧
      policy.maxBytes ≤ maxShellEnvironmentBytes := by
  simp only [parsePolicy, Option.bind_eq_bind, Option.bind_eq_some_iff] at h
  obtain ⟨_, -, _, -, _, -, _, -, _, -, _, -, found, hnew, h⟩ := h
  split at h
  · cases h
    exact EnvironmentPolicy.new_limits (toOption_eq_some.mp hnew)
  · cases h

section chosen

variable [SerdeJson]

/-- The environment that goes with the directory: the captured one or what it falls back to, and
without a policy the one there was. -/
def chosenEnvironment (environment : ProcessEnvironment) (previous : Option EnvironmentSnapshot) :
    Option EnvironmentSnapshot :=
  match parsePolicy environment with
  | none => previous.bind fun snapshot => snapshot.preserved.toOption
  | some policy => (captureOrFallback policy environment previous).toOption

variable {s : EnvironmentSnapshot} {policy : EnvironmentPolicy}
  {previous : Option EnvironmentSnapshot} {environment : ProcessEnvironment}

theorem EnvironmentSnapshot.fallback_valid
    (h : EnvironmentSnapshot.fallback policy previous = .ok s) :
    s.validate policy.maxVariables policy.maxBytes = .ok () := by
  unfold EnvironmentSnapshot.fallback at h
  dsimp only at h
  split at h
  · rename_i found hfound
    cases h
    obtain ⟨-, hvalid⟩ := Option.filter_eq_some_iff.mp hfound
    cases hvalidate : s.validate policy.maxVariables policy.maxBytes with
    | error e =>
      rw [hvalidate] at hvalid
      cases hvalid
    | ok _ => rfl
  · obtain ⟨_, hvalid, h⟩ := bind_eq_ok.mp h
    cases h
    exact hvalid

theorem captureOrFallback_valid (h : captureOrFallback policy environment previous = .ok s) :
    s.validate policy.maxVariables policy.maxBytes = .ok () := by
  unfold captureOrFallback at h
  split at h
  · rename_i captured hcaptured
    cases h
    obtain ⟨current, -, hcaptured⟩ := bind_eq_ok.mp hcaptured
    obtain ⟨hvalid, rfl⟩ := capture_eq_ok.mp hcaptured
    exact hvalid
  · exact EnvironmentSnapshot.fallback_valid h

/-- Whatever goes with the directory is within the limits of its own. -/
theorem chosenEnvironment_valid (h : chosenEnvironment environment previous = some s) :
    s.validateHardLimits = .ok () := by
  unfold chosenEnvironment at h
  cases hpolicy : parsePolicy environment with
  | none =>
    rw [hpolicy] at h
    obtain ⟨snapshot, -, hpreserved⟩ := Option.bind_eq_some_iff.mp h
    obtain ⟨_, -, hpreserved⟩ := bind_eq_ok.mp (toOption_eq_some.mp hpreserved)
    obtain ⟨_, hvalid, hpreserved⟩ := bind_eq_ok.mp hpreserved
    cases hpreserved
    exact hvalid
  | some policy =>
    rw [hpolicy] at h
    obtain ⟨hvariables, hbytes⟩ := parsePolicy_limits hpolicy
    exact EnvironmentSnapshot.validate_mono (captureOrFallback_valid (toOption_eq_some.mp h))
      hvariables hbytes

end chosen

section record

variable [SerdeJson] {environment : ProcessEnvironment} {identity : ShellStateIdentity}
  {sequence : Nat} {cwd : String}

theorem new_envelopeOf (hidentity : identity.Valid) (hsequence : sequence ≠ 0)
    (hcwd : ValidCwd cwd) :
    ShellStateEnvelope.new identity.sessionId identity.incarnation sequence cwd =
      .ok (envelopeOf identity sequence cwd none) :=
  bind_eq_ok.mpr ⟨(), (validateStateFields_envelopeOf hidentity hsequence hcwd none).mpr
    fun _ h => (by cases h), rfl⟩

theorem newV2_envelopeOf (hidentity : identity.Valid) (hsequence : sequence ≠ 0)
    (hcwd : ValidCwd cwd) {snapshot : EnvironmentSnapshot}
    (hsnapshot : snapshot.validateHardLimits = .ok ()) :
    ShellStateEnvelope.newV2 identity.sessionId identity.incarnation sequence cwd snapshot =
      .ok (envelopeOf identity sequence cwd (some snapshot)) :=
  bind_eq_ok.mpr ⟨(), (validateStateFields_envelopeOf hidentity hsequence hcwd (some snapshot)).mpr
    fun _ h => (by cases h; exact hsnapshot), rfl⟩

/-- An envelope is built in any case. -/
theorem commitFromReader_eq (h : commitIdentity environment = .ok (identity, sequence))
    (hsequence : sequence ≠ 0) (hcwd : ValidCwd cwd) (previous : Option EnvironmentSnapshot) :
    commitFromReader environment (utf8 cwd) previous =
      .ok (envelopeOf identity sequence cwd (chosenEnvironment environment previous)) := by
  have hidentity := (commitIdentity_valid h).1
  have hlegacy := new_envelopeOf hidentity hsequence hcwd
  refine bind_eq_ok.mpr ⟨_, h, bind_eq_ok.mpr ⟨cwd, readCwd_utf8 hcwd, ?_⟩⟩
  cases hchosen : chosenEnvironment environment previous with
  | none =>
    unfold chosenEnvironment at hchosen
    unfold buildState
    dsimp only
    cases hpolicy : parsePolicy environment with
    | none =>
      rw [hpolicy] at hchosen
      dsimp only at hchosen ⊢
      rw [hchosen]
      exact hlegacy
    | some policy =>
      rw [hpolicy] at hchosen
      dsimp only at hchosen ⊢
      cases hcapture : captureOrFallback policy environment previous with
      | error e => exact hlegacy
      | ok snapshot =>
        rw [hcapture] at hchosen
        cases hchosen
  | some snapshot =>
    have hsnapshot := newV2_envelopeOf hidentity hsequence hcwd (chosenEnvironment_valid hchosen)
    unfold chosenEnvironment at hchosen
    unfold buildState
    dsimp only
    cases hpolicy : parsePolicy environment with
    | none =>
      rw [hpolicy] at hchosen
      dsimp only at hchosen ⊢
      rw [hchosen]
      exact hsnapshot
    | some policy =>
      rw [hpolicy] at hchosen
      dsimp only at hchosen ⊢
      rw [toOption_eq_some.mp hchosen]
      exact hsnapshot

variable [SerdeState]

/-- The envelope of a commit is encoded, with the directory that was read. -/
def RecordsDirectory (environment : ProcessEnvironment) (cwd : String)
    (previous : Option EnvironmentSnapshot) : Prop :=
  ∃ state encoded, commitFromReader environment (utf8 cwd) previous = .ok state ∧
    encodeEnvelope state = .ok encoded ∧ state.cwd = cwd

variable [Json.WritesStates]

theorem recordsDirectory_iff_size (h : commitIdentity environment = .ok (identity, sequence))
    (hsequence : sequence ≠ 0) (hcwd : ValidCwd cwd) (previous : Option EnvironmentSnapshot) :
    RecordsDirectory environment cwd previous ↔
      envelopeSize identity sequence cwd (chosenEnvironment environment previous) ≤
        maxShellStateBytes := by
  obtain ⟨hidentity, -⟩ := commitIdentity_valid h
  have hbuilt := commitFromReader_eq h hsequence hcwd previous
  have hvalid := (validateStateFields_envelopeOf hidentity hsequence hcwd
    (chosenEnvironment environment previous)).mpr fun _ => chosenEnvironment_valid
  have hencode := encodeEnvelope_eq_ok hvalid
  rw [size_envelopeText hidentity] at hencode
  rw [← hencode]
  constructor
  · rintro ⟨state, encoded, hstate, hencoded, -⟩
    cases hbuilt.symm.trans hstate
    exact ⟨encoded, hencoded⟩
  · rintro ⟨encoded, hencoded⟩
    exact ⟨_, encoded, hbuilt, hencoded, rfl⟩

/-- The directory is recorded when it fits into the envelope beside what the environment has
become. -/
theorem recordsDirectory_iff (h : commitIdentity environment = .ok (identity, sequence))
    (hsequence : sequence ≠ 0) (hcwd : ValidCwd cwd) (previous : Option EnvironmentSnapshot) :
    RecordsDirectory environment cwd previous ↔
      ∀ snapshot, chosenEnvironment environment previous = some snapshot →
        envelopeSize identity sequence cwd (some snapshot) ≤ maxShellStateBytes := by
  rw [recordsDirectory_iff_size h hsequence hcwd]
  cases hchosen : chosenEnvironment environment previous with
  | some snapshot => exact ⟨fun hsize _ heq => heq ▸ hsize, fun hroom => hroom snapshot rfl⟩
  | none =>
    refine ⟨fun _ _ heq => (by cases heq), fun _ => ?_⟩
    obtain ⟨hidentity, hsmall⟩ := commitIdentity_valid h
    have hdigits := size_toString_identity hidentity hsmall
    have hquoted := Json.size_quoted_le cwd
    have hlength : Json.size cwd ≤ 4096 := hcwd.length_le
    change 95 + _ + _ + _ + 0 ≤ 73728
    omega

variable [Json.Writes]

/-- A directory of few escapes always fits. -/
theorem recordsDirectory_of_short (h : commitIdentity environment = .ok (identity, sequence))
    (hsequence : sequence ≠ 0) (hcwd : ValidCwd cwd) (previous : Option EnvironmentSnapshot)
    (hshort : Json.size (Json.quoted cwd) ≤ 8052) :
    RecordsDirectory environment cwd previous := by
  obtain ⟨hidentity, hsmall⟩ := commitIdentity_valid h
  have hdigits := size_toString_identity hidentity hsmall
  rw [recordsDirectory_iff_size h hsequence hcwd]
  cases hchosen : chosenEnvironment environment previous with
  | none =>
    change 95 + _ + _ + _ + 0 ≤ 73728
    omega
  | some snapshot =>
    obtain ⟨-, -, hsize⟩ :=
      EnvironmentSnapshot.validate_eq_ok.mp (chosenEnvironment_valid hchosen)
    have hsize : Json.size (Json.snapshotText snapshot) ≤ 65536 := hsize
    change 95 + _ + _ + _ + (15 + _) ≤ 73728
    omega

end record

section crowded

/-- A root directory whose name is made of control characters. -/
def controls (n : Nat) : String := String.ofList ('/' :: List.replicate n (Char.ofNat 1))

theorem utf8_controls (n : Nat) : utf8 (controls n) = 47 :: List.replicate n 1 := by
  have hslash : String.utf8EncodeChar '/' = [47] := by decide
  have hcontrol : String.utf8EncodeChar (Char.ofNat 1) = [1] := by decide
  rw [utf8_eq_flatMap, controls, String.toList_ofList, List.flatMap_cons, List.flatMap_replicate,
    hslash, hcontrol, List.flatten_replicate_singleton, List.singleton_append]

theorem controls_valid {n : Nat} (hn : n < maxShellCwdBytes) : ValidCwd (controls n) where
  length_le := by
    rw [utf8_controls, List.length_cons, List.length_replicate]
    exact hn
  no_zero := by
    rw [utf8_controls, List.mem_cons, not_or]
    exact ⟨by decide, fun hmem => absurd (List.eq_of_mem_replicate hmem) (by decide)⟩
  absolute := by
    rw [utf8_controls]
    rfl

theorem size_quoted_controls (n : Nat) : Json.size (Json.quoted (controls n)) = 3 + 6 * n := by
  have hslash : Json.size (Json.escape '/') = 1 := by decide
  have hcontrol : Json.size (Json.escape (Char.ofNat 1)) = 6 := by decide
  rw [Json.size_quoted, controls, String.toList_ofList, List.map_cons, List.map_replicate,
    List.sum_cons, List.sum_replicate_nat, hslash, hcontrol]
  omega

/-- The variables of a helper that has no policy. -/
def identityEnvironment : ProcessEnvironment :=
  encoded [("PERSIST_STATE_SESSION_ID", "7"),
    ("PERSIST_STATE_INCARNATION", "0a0a0a0a0a0a0a0a0a0a0a0a0a0a0a0a"),
    ("PERSIST_STATE_SEQUENCE", "2"),
    ("PERSIST_STATE_FILE", "/run/persist/session-state/7-0a0a0a0a0a0a0a0a0a0a0a0a0a0a0a0a.json")]

def sevenIdentity : ShellStateIdentity where
  sessionId := 7
  incarnation := List.replicate 16 10

theorem commitIdentity_seven : commitIdentity identityEnvironment = .ok (sevenIdentity, 2) := by
  decide +kernel

theorem parsePolicy_seven : parsePolicy identityEnvironment = none := by
  decide +kernel

/-- A shell without an environment on record. -/
theorem seven_records : @RecordsDirectory Json.serdeJson Json.serdeEnvelopes identityEnvironment
    (controls 4095) none := by
  let _ := Json.serdeJson
  let _ := Json.serdeEnvelopes
  have _ : Json.Writes := ⟨fun _ => rfl⟩
  have _ : Json.WritesStates := ⟨fun _ => rfl⟩
  refine (recordsDirectory_iff commitIdentity_seven (by decide) (controls_valid (by decide))
    none).mpr fun snapshot hsnapshot => ?_
  rw [chosenEnvironment, parsePolicy_seven] at hsnapshot
  cases hsnapshot

/-- Names that every policy allows, with the lengths of their values. -/
def wideLengths : List (String × Nat) :=
  [("LC_A", 8192), ("LC_B", 8192), ("LC_C", 8192), ("LC_D", 8192), ("LC_E", 8192), ("LC_F", 8192)]

theorem wideLengths_sorted :
    ((wideLengths.map fun entry => (entry.1, letters entry.2)).map Prod.fst).Pairwise (· < ·) := by
  rw [List.map_map]
  change (wideLengths.map Prod.fst).Pairwise (· < ·)
  decide

def wideSnapshot : EnvironmentSnapshot where
  formatVersion := 1
  policyVersion := 1
  policyFingerprint := "0000000000000000"
  envSet := wideLengths.map fun entry => (entry.1, letters entry.2)
  envUnset := []
  captureStatus := .preserved
  envSet_sorted := wideLengths_sorted
  envUnset_sorted := EnvironmentSnapshot.sorted_nil

theorem wideSnapshot_wellFormed : wideSnapshot.WellFormed where
  format := rfl
  policy := rfl
  fingerprint := by decide
  disjoint _ _ := List.not_mem_nil
  set entry hentry := by
    obtain ⟨entry, hmem, rfl⟩ := List.mem_map.mp hentry
    have hall : ∀ entry ∈ wideLengths, validName entry.1 = true ∧
      entry.2 ≤ maxShellEnvironmentValueBytes := by decide
    exact validateEntry_letters (hall entry hmem).1 (hall entry hmem).2
  unset _ h := absurd h List.not_mem_nil
  status h := by cases h

theorem size_wideSnapshot : Json.size (Json.snapshotText wideSnapshot) = 49347 := by
  have hset : wideSnapshot.envSet.map Json.entrySize =
      wideLengths.map fun entry => Json.size (Json.quoted entry.1) + 1 + (2 + entry.2) :=
    entrySize_letters wideLengths
  rw [wideSnapshot_wellFormed.size, hset]
  decide

theorem wideSnapshot_preserved : @EnvironmentSnapshot.preserved Json.serdeJson wideSnapshot =
    .ok wideSnapshot := by
  let _ := Json.serdeJson
  have _ : Json.Writes := ⟨fun _ => rfl⟩
  have hnonempty : wideSnapshot.envSet ≠ [] := by
    intro hempty
    have hlength := congrArg List.length hempty
    rw [wideSnapshot, List.length_map] at hlength
    cases hlength
  have hvalid : wideSnapshot.validateHardLimits = .ok () := EnvironmentSnapshot.validate_eq_ok.mpr
    ⟨wideSnapshot_wellFormed, by decide, by rw [size_wideSnapshot]; decide⟩
  exact bind_eq_ok.mpr ⟨(), rejectIf_eq_ok.mpr fun hempty => hnonempty hempty.1,
    bind_eq_ok.mpr ⟨(), hvalid, rfl⟩⟩

theorem chosen_wide : @chosenEnvironment Json.serdeJson identityEnvironment (some wideSnapshot) =
    some wideSnapshot := by
  unfold chosenEnvironment
  rw [parsePolicy_seven]
  dsimp only
  rw [Option.bind_some, wideSnapshot_preserved, Except.toOption]

/-- The environment on record and the directory are valid, and do not fit into one envelope. -/
theorem controls_not_recorded : ¬ ∀ (environment : ProcessEnvironment)
    (identity : ShellStateIdentity) (sequence : Nat) (cwd : String)
    (previous : Option EnvironmentSnapshot),
    commitIdentity environment = .ok (identity, sequence) → sequence ≠ 0 → ValidCwd cwd →
    @RecordsDirectory Json.serdeJson Json.serdeEnvelopes environment cwd previous := by
  intro hclaim
  let _ := Json.serdeJson
  let _ := Json.serdeEnvelopes
  have _ : Json.Writes := ⟨fun _ => rfl⟩
  have _ : Json.WritesStates := ⟨fun _ => rfl⟩
  have hcwd : ValidCwd (controls 4095) := controls_valid (by decide)
  have hrecords := hclaim identityEnvironment sevenIdentity 2 (controls 4095) (some wideSnapshot)
    commitIdentity_seven (by decide) hcwd
  rw [recordsDirectory_iff_size commitIdentity_seven (by decide) hcwd, chosen_wide, envelopeSize,
    Option.elim_some, size_wideSnapshot, size_quoted_controls] at hrecords
  have hlimit : 95 + _ + _ + (3 + 6 * 4095) + (15 + 49347) ≤ 73728 := hrecords
  omega

end crowded

end PersistShell

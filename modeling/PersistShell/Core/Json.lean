import PersistShell.Core.ShellState

/-! The JSON text of snapshots and of state envelopes, as the library writes them. -/

namespace PersistShell.Json

def escape (c : Char) : String :=
  match c.toNat with
  | 34 => "\\\""
  | 92 => "\\\\"
  | 8 => "\\b"
  | 9 => "\\t"
  | 10 => "\\n"
  | 12 => "\\f"
  | 13 => "\\r"
  | n => if n < 32 then "\\u" ++ String.ofList (hexString 4 n) else String.singleton c

def quoted (s : String) : String := "\"" ++ String.join (s.toList.map escape) ++ "\""

def statusText : EnvironmentCaptureStatus → String
  | .complete => "complete"
  | .preserved => "preserved"
  | .unavailable => "unavailable"

def snapshotText (s : EnvironmentSnapshot) : String :=
  "\x7b\"format_version\":" ++ toString s.formatVersion ++
    ",\"policy_version\":" ++ toString s.policyVersion ++
    ",\"policy_fingerprint\":" ++ quoted s.policyFingerprint ++
    ",\"env_set\":\x7b" ++
    ",".intercalate (s.envSet.map fun entry => quoted entry.1 ++ ":" ++ quoted entry.2) ++
    "\x7d,\"env_unset\":[" ++ ",".intercalate (s.envUnset.map quoted) ++
    "],\"capture_status\":" ++ quoted (statusText s.captureStatus) ++ "\x7d"

/-- The library on snapshots that are written, and on texts that are not JSON. -/
abbrev serdeJson : SerdeJson where
  snapshotToVec s := .ok (utf8 (snapshotText s))
  snapshotFromSlice _ := .error "expected value at line 1 column 1"
  stringMap _ := .error "expected value at line 1 column 1"

def envelopeText (s : ShellStateEnvelope) : String :=
  "\x7b\"version\":" ++ toString s.version ++ ",\"session_id\":" ++ toString s.sessionId ++
    ",\"incarnation\":" ++ quoted s.incarnation ++ ",\"sequence\":" ++ toString s.sequence ++
    ",\"cwd\":" ++ quoted s.cwd ++
    s.environment.elim "" (",\"environment\":" ++ snapshotText ·) ++ "\x7d"

/-- The library on the given envelopes and their texts. -/
abbrev serdeStates (states : List ShellStateEnvelope) : SerdeState where
  envelopeToVec s := if s ∈ states then .ok (utf8 (envelopeText s)) else .error "not supported"
  envelopeFromSlice encoded :=
    match states.find? fun s => utf8 (envelopeText s) = encoded with
    | some s => .ok s
    | none => .error "expected value at line 1 column 1"

/-- Envelopes with different texts are told apart. -/
theorem serdeStates_lawful {states : List ShellStateEnvelope}
    (h : ∀ s ∈ states, states.find? (fun s' => utf8 (envelopeText s') = utf8 (envelopeText s)) =
      some s) : @LawfulSerdeState (serdeStates states) :=
  letI := serdeStates states
  { round_trip := by
      intro state encoded hencoded
      simp only [SerdeState.envelopeToVec] at hencoded
      split at hencoded
      · cases hencoded
        simp only [SerdeState.envelopeFromSlice, h state ‹_›]
      · cases hencoded }

/-- The library on the given snapshots and their texts. -/
abbrev serdeSnapshots (snapshots : List EnvironmentSnapshot) : SerdeJson where
  snapshotToVec s :=
    if s ∈ snapshots then .ok (utf8 (snapshotText s)) else .error "not supported"
  snapshotFromSlice encoded :=
    match snapshots.find? fun s => utf8 (snapshotText s) = encoded with
    | some s => .ok s
    | none => .error "expected value at line 1 column 1"
  stringMap _ := .error "expected value at line 1 column 1"

theorem serdeSnapshots_eq_ok {snapshots : List EnvironmentSnapshot} {s : EnvironmentSnapshot}
    {encoded : Bytes} (h : (serdeSnapshots snapshots).snapshotToVec s = .ok encoded) :
    s ∈ snapshots ∧ encoded = utf8 (snapshotText s) := by
  unfold serdeSnapshots at h
  simp only at h
  split at h
  · cases h
    exact ⟨‹_›, rfl⟩
  · cases h

theorem serdeSnapshots_lawful {snapshots : List EnvironmentSnapshot}
    (h : ∀ s ∈ snapshots, snapshots.find? (fun s' =>
      utf8 (snapshotText s') = utf8 (snapshotText s)) = some s) :
    @LawfulSerdeJson (serdeSnapshots snapshots) :=
  letI := serdeSnapshots snapshots
  { round_trip := by
      intro s encoded hencoded
      obtain ⟨hs, rfl⟩ := serdeSnapshots_eq_ok hencoded
      simp only [SerdeJson.snapshotFromSlice, h s hs]
    is_text := fun hencoded => ⟨_, (serdeSnapshots_eq_ok hencoded).2⟩ }

end PersistShell.Json

import PersistShell.Cli.PolicyVariables
import PersistShell.Core.EnvelopeSize
import PersistShell.Holder.Runtime

/-! What the helper is started with: the identity of the shell in its environment, and the working
directory on its standard input. -/

namespace PersistShell

def hex (byte : UInt8) : Except PersistError UInt8 :=
  if 48 ≤ byte && byte ≤ 57 then .ok (byte - 48)
  else if 97 ≤ byte && byte ≤ 102 then .ok (byte - 97 + 10)
  else .error (.invalidArgument "invalid shell state incarnation")

def hexPairs : Bytes → Except PersistError Bytes
  | high :: low :: rest => do
    let byte := (← hex high) <<< 4 ||| (← hex low)
    return byte :: (← hexPairs rest)
  | _ => .ok []

/-- `is_ascii_hexdigit`. -/
def isHexDigitByte (b : UInt8) : Bool :=
  isAsciiDigit b || (97 ≤ b && b ≤ 102) || (65 ≤ b && b ≤ 70)

def parseIncarnation (encoded : String) : Except PersistError Bytes := do
  rejectIf ((utf8 encoded).length ≠ 32 ∨ !(utf8 encoded).all isHexDigitByte)
    (.invalidArgument "invalid shell state incarnation")
  hexPairs (utf8 encoded)

/-- `parse::<u32>`. -/
def parseU32 (text : String) : Option Nat := (parseUsize text).filter (· < 2 ^ 32)

def requiredControl (environment : ProcessEnvironment) (name : String) :
    Except PersistError String :=
  match control environment name with
  | some value => .ok value
  | none => .error (.invalidArgument ("missing " ++ name))

/-- `identity_from_parts`; the file is found by its name alone. -/
def stateIdentity (sessionId : Nat) (incarnation : Bytes) (stateFile : String) :
    Except PersistError ShellStateIdentity := do
  rejectIf (sessionId = 0) (.invalidArgument "shell state session id must be non-zero")
  rejectIf (incarnation = zeroId) (.invalidArgument "shell state incarnation must be non-zero")
  rejectIf (!isAbsolutePath (utf8 stateFile) ∨ tooLong stateFile maxHolderPath ∨ (utf8 stateFile).contains 0)
    (.invalidArgument "shell state path is invalid")
  let expected := utf8 (toString sessionId ++ "-" ++ encodeIncarnation incarnation ++ ".json")
  rejectIf ((pathComponents stateFile).getLast? ≠ some expected ∨
      (pathComponents stateFile).dropLast.getLast? ≠ some (utf8 "session-state"))
    (.invalidArgument "shell state path does not match identity")
  return { sessionId, incarnation }

def invalidUnless {α : Type} (message : String) : Option α → Except PersistError α
  | some value => .ok value
  | none => .error (.invalidArgument message)

/-- The identity and the sequence of a commit. -/
def commitIdentity (environment : ProcessEnvironment) :
    Except PersistError (ShellStateIdentity × Nat) := do
  let sessionId ← invalidUnless "invalid shell state session id"
    (parseU32 (← requiredControl environment "PERSIST_STATE_SESSION_ID"))
  let incarnation ← parseIncarnation (← requiredControl environment "PERSIST_STATE_INCARNATION")
  let sequence ← invalidUnless "invalid shell state sequence"
    (parseUsize (← requiredControl environment "PERSIST_STATE_SEQUENCE"))
  let identity ← stateIdentity sessionId incarnation
    (← requiredControl environment "PERSIST_STATE_FILE")
  return (identity, sequence)

def readCwd (input : Bytes) : Except PersistError String := do
  let cwd := input.take (maxShellCwdBytes + 1)
  rejectIf (cwd.length > maxShellCwdBytes)
    (.invalidArgument "shell state cwd exceeds size limit")
  invalidUnless "shell state cwd is not UTF-8" (fromUtf8 cwd)

/-- What is written for an environment and an input, with the environment of the state file that
there was before. -/
def commitFromReader [SerdeJson] (environment : ProcessEnvironment) (input : Bytes)
    (previous : Option EnvironmentSnapshot) : Except PersistError ShellStateEnvelope := do
  let (identity, sequence) ← commitIdentity environment
  let cwd ← readCwd input
  let policy := parsePolicy environment
  buildState identity { sequence, cwd, environment, policy, nonce := [] } previous

section identity

theorem hexPairs_length {digits bytes : Bytes} (h : hexPairs digits = .ok bytes) :
    bytes.length = digits.length / 2 := by
  induction digits using hexPairs.induct generalizing bytes with
  | case1 high low rest ih =>
    obtain ⟨_, -, h⟩ := bind_eq_ok.mp h
    obtain ⟨_, -, h⟩ := bind_eq_ok.mp h
    obtain ⟨found, hfound, h⟩ := bind_eq_ok.mp h
    cases h
    rw [List.length_cons, ih hfound, List.length_cons, List.length_cons]
    omega
  | case2 digits hshort =>
    have hlength : digits.length / 2 = 0 := by
      cases digits with
      | nil => rfl
      | cons first rest =>
        cases rest with
        | nil => exact Nat.div_eq_of_lt (by decide : 1 < 2)
        | cons second rest => exact absurd rfl (hshort first second rest)
    rw [hexPairs] at h
    · cases h
      exact hlength.symm
    · exact hshort

theorem invalidUnless_eq_ok {α : Type} {message : String} {found : Option α} {value : α} :
    invalidUnless message found = .ok value ↔ found = some value := by
  cases found with
  | none => exact ⟨fun h => (by cases h), fun h => (by cases h)⟩
  | some v => exact ⟨fun h => (by cases h; rfl), fun h => (by cases h; rfl)⟩

theorem parseUsize_lt {text : String} {n : Nat} (h : parseUsize text = some n) : n < 2 ^ 64 := by
  unfold parseUsize at h
  dsimp only at h
  obtain ⟨hvalid, hvalue⟩ := Option.ite_none_right_eq_some.mp h
  cases hvalue
  exact hvalid.2.2

theorem commitIdentity_valid {environment : ProcessEnvironment} {identity : ShellStateIdentity}
    {sequence : Nat} (h : commitIdentity environment = .ok (identity, sequence)) :
    identity.Valid ∧ sequence < 2 ^ 64 := by
  obtain ⟨sessionText, -, h⟩ := bind_eq_ok.mp h
  obtain ⟨sessionId, hsession, h⟩ := bind_eq_ok.mp h
  obtain ⟨incarnationText, -, h⟩ := bind_eq_ok.mp h
  obtain ⟨incarnation, hincarnation, h⟩ := bind_eq_ok.mp h
  obtain ⟨sequenceText, -, h⟩ := bind_eq_ok.mp h
  obtain ⟨found, hsequence, h⟩ := bind_eq_ok.mp h
  obtain ⟨stateFile, -, h⟩ := bind_eq_ok.mp h
  obtain ⟨made, hmade, h⟩ := bind_eq_ok.mp h
  cases h
  obtain ⟨_, hpositive, hmade⟩ := bind_eq_ok.mp hmade
  obtain ⟨_, hnonzero, hmade⟩ := bind_eq_ok.mp hmade
  obtain ⟨_, -, hmade⟩ := bind_eq_ok.mp hmade
  obtain ⟨_, -, hmade⟩ := bind_eq_ok.mp hmade
  cases hmade
  obtain ⟨hsmall, hparsed⟩ := Option.filter_eq_some_iff.mp (invalidUnless_eq_ok.mp hsession)
  obtain ⟨_, hlength, hpairs⟩ := bind_eq_ok.mp hincarnation
  have hlength := rejectIf_eq_ok.mp hlength
  simp only [not_or, Decidable.not_not] at hlength
  refine ⟨⟨rejectIf_eq_ok.mp hpositive, ?_, ?_, rejectIf_eq_ok.mp hnonzero⟩,
    parseUsize_lt (invalidUnless_eq_ok.mp hsequence)⟩
  · exact of_decide_eq_true hparsed
  · rw [hexPairs_length hpairs, hlength.1]

end identity

end PersistShell

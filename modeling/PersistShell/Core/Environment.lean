import PersistShell.Core.Error

/-! Shell environments: the recovery policy, the snapshot that a shell leaves behind, and the
layers that a new shell is launched with. -/

namespace PersistShell

def shellEnvironmentFormatVersion : Nat := 1
def shellEnvironmentPolicyVersion : Nat := 1
def maxShellEnvironmentVariables : Nat := 128
def maxShellEnvironmentNameBytes : Nat := 128
def maxShellEnvironmentValueBytes : Nat := 8 * 1024
def maxShellEnvironmentBytes : Nat := 64 * 1024

def connectionNames : List String :=
  ["COLORTERM", "DISPLAY", "SSH_AUTH_SOCK", "SSH_CLIENT", "SSH_CONNECTION", "SSH_TTY", "TERM",
    "WAYLAND_DISPLAY"]

def baseNames : List String :=
  ["HOME", "LOGNAME", "OLDPWD", "PATH", "PWD", "SHELL", "SHLVL", "USER", "_"]

def sensitiveMarkers : List String :=
  ["ACCESS_KEY", "API_KEY", "COOKIE", "CREDENTIAL", "PASSWORD", "PASSWD", "PRIVATE_KEY", "SECRET",
    "TOKEN"]

inductive EnvironmentCaptureStatus where
  | complete
  | preserved
  | unavailable
  deriving DecidableEq, Repr

/-- The map and the set are the entries in key order, each key once. -/
structure EnvironmentSnapshot where
  formatVersion : Nat
  policyVersion : Nat
  policyFingerprint : String
  envSet : List (String × String)
  envUnset : List String
  captureStatus : EnvironmentCaptureStatus
  envSet_sorted : (envSet.map Prod.fst).Pairwise (· < ·)
  envUnset_sorted : envUnset.Pairwise (· < ·)
  deriving DecidableEq

theorem EnvironmentSnapshot.sorted_nil : ([] : List String).Pairwise (· < ·) := .nil

/-- The JSON library: encoding and decoding of a snapshot, and decoding of a map from strings
to strings. A failure carries the library's message. -/
class SerdeJson where
  snapshotToVec : EnvironmentSnapshot → Except String Bytes
  snapshotFromSlice : Bytes → Except String EnvironmentSnapshot
  stringMap : Bytes → Except String { entries : List (String × String) //
    (entries.map Prod.fst).Pairwise (· < ·) }

/-- A snapshot that was written is read back, and is written as text. -/
class LawfulSerdeJson [SerdeJson] : Prop where
  round_trip {snapshot : EnvironmentSnapshot} {encoded : Bytes} :
    SerdeJson.snapshotToVec snapshot = .ok encoded →
      SerdeJson.snapshotFromSlice encoded = .ok snapshot
  is_text {snapshot : EnvironmentSnapshot} {encoded : Bytes} :
    SerdeJson.snapshotToVec snapshot = .ok encoded → ∃ text, encoded = utf8 text

def validName (name : String) : Bool :=
  decide ((utf8 name).length ≤ maxShellEnvironmentNameBytes) &&
    ((utf8 name).head?.any fun b => b == 95 || isAsciiAlphabetic b) &&
    (utf8 name).all fun b => b == 95 || isAsciiAlphanumeric b

def hardDenied (name : String) : Bool :=
  let upper := (utf8 name).map toAsciiUppercase
  connectionNames.any (utf8 · == upper) || baseNames.any (utf8 · == upper) ||
    startsWith upper (utf8 "XDG_") || startsWith upper (utf8 "PERSIST_") ||
    sensitiveMarkers.any fun marker => containsBytes upper (utf8 marker)

def validateEntry (name value : String) : Except PersistError Unit :=
  if !validName name || decide ((utf8 value).length > maxShellEnvironmentValueBytes) ||
      (utf8 value).contains 0 then
    .error (.invalidArgument "environment snapshot entry is invalid")
  else .ok ()

def validFingerprint (value : String) : Bool :=
  decide ((utf8 value).length = 16) &&
    (utf8 value).all fun b => isAsciiDigit b || (97 ≤ b && b ≤ 102)

namespace EnvironmentSnapshot
variable [SerdeJson]

def validate (s : EnvironmentSnapshot) (maxVariables maxBytes : Nat) :
    Except PersistError Unit := do
  rejectIf (s.formatVersion ≠ shellEnvironmentFormatVersion ∨
      s.policyVersion ≠ shellEnvironmentPolicyVersion ∨ !validFingerprint s.policyFingerprint)
    (.invalidArgument "environment snapshot version or fingerprint is invalid")
  rejectIf (s.envSet.length + s.envUnset.length > maxVariables)
    (.invalidArgument "environment snapshot has too many variables")
  rejectIf (s.envSet.any fun entry => s.envUnset.contains entry.1)
    (.invalidArgument "environment snapshot set and unset overlap")
  s.envSet.forM fun entry => validateEntry entry.1 entry.2
  s.envUnset.forM fun name => validateEntry name ""
  rejectIf (s.captureStatus = .unavailable ∧ (s.envSet ≠ [] ∨ s.envUnset ≠ []))
    (.invalidArgument "unavailable environment snapshot contains values")
  match SerdeJson.snapshotToVec s with
  | .error error => .error (.invalidArgument ("encode environment snapshot: " ++ error))
  | .ok encoded =>
    rejectIf (encoded.length > maxBytes)
      (.invalidArgument "environment snapshot exceeds size limit")

def validateHardLimits (s : EnvironmentSnapshot) : Except PersistError Unit :=
  s.validate maxShellEnvironmentVariables maxShellEnvironmentBytes

end EnvironmentSnapshot

def encodeEnvironmentSnapshot [SerdeJson] (s : EnvironmentSnapshot) :
    Except PersistError Bytes := do
  s.validateHardLimits
  match SerdeJson.snapshotToVec s with
  | .error error => .error (.invalidArgument ("encode environment snapshot: " ++ error))
  | .ok encoded =>
    rejectIf (encoded.length > maxShellEnvironmentBytes)
      (.invalidArgument "environment snapshot exceeds size limit")
    return encoded

def decodeEnvironmentSnapshot [SerdeJson] (encoded : Bytes) :
    Except PersistError EnvironmentSnapshot := do
  rejectIf (encoded.length > maxShellEnvironmentBytes)
    (.invalidArgument "environment snapshot exceeds size limit")
  match SerdeJson.snapshotFromSlice encoded with
  | .error error => .error (.invalidArgument ("decode environment snapshot: " ++ error))
  | .ok snapshot =>
    snapshot.validateHardLimits
    return snapshot

/-- What the launch layers have in common: the names seen so far and the bytes they take. -/
structure LaunchUse where
  names : List String
  bytes : Nat

namespace LaunchUse

def insertName (use : LaunchUse) (name : String) : Except PersistError LaunchUse :=
  if name ∈ use.names then
    .error (.invalidArgument "launch environment contains duplicate names")
  else .ok { use with names := name :: use.names }

def addBytes (use : LaunchUse) (added : Nat) : Except PersistError LaunchUse :=
  if use.bytes + added > maxShellEnvironmentBytes then
    .error (.invalidArgument "launch environment exceeds byte limit")
  else .ok { use with bytes := use.bytes + added }

end LaunchUse

def validatePair (name value : String) : Except PersistError Unit :=
  if !validName name || decide ((utf8 value).length > maxShellEnvironmentValueBytes) ||
      (utf8 value).contains 0 then
    .error (.invalidArgument "launch environment entry is invalid")
  else .ok ()

structure ShellLaunchEnvironment where
  savedSet : List (String × String)
  savedUnset : List String
  connection : List (String × String)
  private_ : List (String × String)
  deriving DecidableEq, Repr

namespace ShellLaunchEnvironment

def legacySetEnvironment (e : ShellLaunchEnvironment) : List (String × String) :=
  e.savedSet ++ e.connection ++ e.private_

def entryCount (e : ShellLaunchEnvironment) : Nat :=
  e.savedSet.length + e.savedUnset.length + e.connection.length + e.private_.length

def validateSavedSet (use : LaunchUse) (entry : String × String) :
    Except PersistError LaunchUse := do
  validatePair entry.1 entry.2
  rejectIf (hardDenied entry.1)
    (.invalidArgument "saved environment contains a forbidden name")
  (← use.insertName entry.1).addBytes ((utf8 entry.1).length + (utf8 entry.2).length)

def validateSavedUnset (use : LaunchUse) (name : String) : Except PersistError LaunchUse := do
  rejectIf (!validName name || hardDenied name)
    (.invalidArgument "saved unset contains an invalid or forbidden name")
  (← use.insertName name).addBytes (utf8 name).length

def validateConnection (use : LaunchUse) (entry : String × String) :
    Except PersistError LaunchUse := do
  validatePair entry.1 entry.2
  rejectIf (entry.1 ∉ connectionNames)
    (.invalidArgument "connection environment name is not allowed")
  (← use.insertName entry.1).addBytes ((utf8 entry.1).length + (utf8 entry.2).length)

def validatePrivate (use : LaunchUse) (entry : String × String) :
    Except PersistError LaunchUse := do
  validatePair entry.1 entry.2
  (← use.insertName entry.1).addBytes ((utf8 entry.1).length + (utf8 entry.2).length)

def validate (e : ShellLaunchEnvironment) : Except PersistError Unit := do
  rejectIf (e.entryCount > maxShellEnvironmentVariables)
    (.invalidArgument "launch environment has too many entries")
  let use ← e.savedSet.foldlM validateSavedSet ⟨[], 0⟩
  let use ← e.savedUnset.foldlM validateSavedUnset use
  let use ← e.connection.foldlM validateConnection use
  let _ ← e.private_.foldlM validatePrivate use

def new (savedSet : List (String × String)) (savedUnset : List String)
    (connection private_ : List (String × String)) :
    Except PersistError ShellLaunchEnvironment := do
  let environment := ⟨savedSet, savedUnset, connection, private_⟩
  validate environment
  return environment

def legacy (environment : List (String × String)) :
    Except PersistError ShellLaunchEnvironment :=
  new [] [] [] environment

end ShellLaunchEnvironment

end PersistShell

import Mathlib.Data.String.Basic
import PersistShell.Core.Environment

/-! The recovery policy: which variables of a shell are kept, and what is left of a snapshot
that was made under another policy. -/

namespace PersistShell

/-- The rules are in order. -/
structure EnvironmentPolicy where
  include_ : List String
  maxVariables : Nat
  maxBytes : Nat
  fingerprint : String
  deriving DecidableEq

/-- `strip_suffix('*')`. -/
def stripStar (rule : String) : Option Bytes :=
  if (utf8 rule).getLast? = some 42 then some (utf8 rule).dropLast else none

def ruleMatches (rule name : String) : Bool :=
  match stripStar rule with
  | none => rule = name
  | some start => startsWith (utf8 name) start

def validateRule (rule : String) : Except PersistError Unit :=
  let name := ((stripStar rule).bind fromUtf8).getD rule
  rejectIf (utf8 name = [] ∨
      (utf8 rule).count 42 > (if (stripStar rule).isSome then 1 else 0) ∨
      !validName name ∨ hardDenied name)
    (.invalidArgument "environment include rule is invalid or forbidden")

/-- FNV-1a over the version, the limits and the rules. -/
def fingerprint (include_ : List String) (maxVariables maxBytes : Nat) : String :=
  let bytes := toBeBytes 4 shellEnvironmentPolicyVersion ++ toBeBytes 8 maxVariables ++
    toBeBytes 8 maxBytes ++ include_.flatMap fun rule => utf8 rule ++ [0]
  let hash := bytes.foldl (fun (hash : UInt64) b => (hash ^^^ b.toUInt64) * 0x100000001b3)
    0xcbf29ce484222325
  String.ofList (hexString 16 hash.toNat)

namespace EnvironmentPolicy

def exactNames (include_ : List String) : List String :=
  "LANG" :: include_.filter fun rule => (stripStar rule).isNone

def new (include_ : List String) (maxVariables maxBytes : Nat) :
    Except PersistError EnvironmentPolicy := do
  rejectIf (maxVariables = 0 ∨ maxVariables > maxShellEnvironmentVariables)
    (.invalidArgument "environment variable limit is invalid")
  rejectIf (maxBytes = 0 ∨ maxBytes > maxShellEnvironmentBytes)
    (.invalidArgument "environment byte limit is invalid")
  let normalized := include_.mergeSort (fun a b => a ≤ b)
  rejectIf (¬ normalized.Nodup)
    (.invalidArgument "environment include rules contain duplicates")
  normalized.forM validateRule
  rejectIf ((exactNames normalized).dedup.length > maxVariables)
    (.invalidArgument "environment variable limit is below exact include count")
  return { include_ := normalized, maxVariables, maxBytes,
           fingerprint := PersistShell.fingerprint normalized maxVariables maxBytes }

def allows (policy : EnvironmentPolicy) (name : String) : Bool :=
  validName name && !hardDenied name && (name = "LANG" || startsWith (utf8 name) (utf8 "LC_") ||
    policy.include_.any (ruleMatches · name))

/-- The part of a snapshot that the policy allows. -/
def filtered (policy : EnvironmentPolicy) (s : EnvironmentSnapshot) : EnvironmentSnapshot :=
  let envSet := s.envSet.filter fun entry => policy.allows entry.1
  let envUnset := s.envUnset.filter fun name => policy.allows name
  { formatVersion := shellEnvironmentFormatVersion
    policyVersion := shellEnvironmentPolicyVersion
    policyFingerprint := policy.fingerprint
    envSet
    envUnset
    captureStatus :=
      if s.policyFingerprint ≠ policy.fingerprint ∨ envSet ≠ s.envSet ∨ envUnset ≠ s.envUnset then
        .preserved
      else s.captureStatus
    envSet_sorted := s.envSet_sorted.sublist (List.filter_sublist.map _)
    envUnset_sorted := s.envUnset_sorted.sublist List.filter_sublist }

def filterSnapshot [SerdeJson] (policy : EnvironmentPolicy) (s : EnvironmentSnapshot) :
    Except PersistError EnvironmentSnapshot := do
  s.validateHardLimits
  (policy.filtered s).validate policy.maxVariables policy.maxBytes
  return policy.filtered s

end EnvironmentPolicy

/-- The limits of a policy are within the hard ones. -/
theorem EnvironmentPolicy.new_limits {include_ : List String} {maxVariables maxBytes : Nat}
    {policy : EnvironmentPolicy} (h : EnvironmentPolicy.new include_ maxVariables maxBytes = .ok policy) :
    policy.maxVariables ≤ maxShellEnvironmentVariables ∧
      policy.maxBytes ≤ maxShellEnvironmentBytes := by
  obtain ⟨_, hvariables, h⟩ := bind_eq_ok.mp h
  obtain ⟨_, hbytes, h⟩ := bind_eq_ok.mp h
  obtain ⟨_, -, h⟩ := bind_eq_ok.mp h
  obtain ⟨_, -, h⟩ := bind_eq_ok.mp h
  obtain ⟨_, -, h⟩ := bind_eq_ok.mp h
  cases h
  have hvariables := rejectIf_eq_ok.mp hvariables
  have hbytes := rejectIf_eq_ok.mp hbytes
  dsimp only
  omega

/-- Nothing is left to filter in what has been filtered. -/
theorem EnvironmentPolicy.filtered_filtered (policy : EnvironmentPolicy) (s : EnvironmentSnapshot) :
    policy.filtered (policy.filtered s) = policy.filtered s := by
  simp [EnvironmentPolicy.filtered, List.filter_filter]

/-- The entries of a map with string keys are in the order of the keys. -/
theorem sorted_toList {β : Type} (m : Std.ExtTreeMap String β) :
    (m.toList.map Prod.fst).Pairwise (· < ·) := by
  rw [Std.ExtTreeMap.map_fst_toList_eq_keys]
  exact m.ordered_keys.imp compare_lt_iff_lt.mp

/-- The allowed variables that a shell has, and those it is known to have had or to be asked
for and does not have. -/
def EnvironmentSnapshot.capture [SerdeJson] (policy : EnvironmentPolicy)
    (previous : Option EnvironmentSnapshot) (current : List (String × String)) :
    Except PersistError EnvironmentSnapshot := do
  let envSet : Std.ExtTreeMap String String :=
    .ofList (current.filter fun entry => policy.allows entry.1)
  let tracked := EnvironmentPolicy.exactNames policy.include_ ++
    previous.elim [] fun p => p.envSet.map Prod.fst ++ p.envUnset
  let envUnset : Std.ExtTreeMap String Unit :=
    .ofList ((tracked.filter fun name => policy.allows name && !envSet.contains name).map (·, ()))
  let snapshot : EnvironmentSnapshot :=
    { formatVersion := shellEnvironmentFormatVersion
      policyVersion := shellEnvironmentPolicyVersion
      policyFingerprint := policy.fingerprint
      envSet := envSet.toList
      envUnset := envUnset.toList.map Prod.fst
      captureStatus := .complete
      envSet_sorted := sorted_toList envSet
      envUnset_sorted := sorted_toList envUnset }
  snapshot.validate policy.maxVariables policy.maxBytes
  return snapshot

/-- What is kept of an earlier snapshot when the shell cannot be captured. -/
def EnvironmentSnapshot.fallback [SerdeJson] (policy : EnvironmentPolicy)
    (previous : Option EnvironmentSnapshot) : Except PersistError EnvironmentSnapshot :=
  let unavailable : EnvironmentSnapshot :=
    { formatVersion := shellEnvironmentFormatVersion
      policyVersion := shellEnvironmentPolicyVersion
      policyFingerprint := policy.fingerprint
      envSet := []
      envUnset := []
      captureStatus := .unavailable
      envSet_sorted := .nil
      envUnset_sorted := EnvironmentSnapshot.sorted_nil }
  let preserved := (previous.filter fun p =>
    p.policyFingerprint = policy.fingerprint ∧ (p.envSet ≠ [] ∨ p.envUnset ≠ [])).map
      ({ · with captureStatus := .preserved })
  match preserved.filter fun p => (p.validate policy.maxVariables policy.maxBytes).isOk with
  | some p => .ok p
  | none => do
    unavailable.validate policy.maxVariables policy.maxBytes
    return unavailable

def EnvironmentSnapshot.preserved [SerdeJson] (s : EnvironmentSnapshot) :
    Except PersistError EnvironmentSnapshot := do
  rejectIf (s.envSet = [] ∧ s.envUnset = [])
    (.invalidArgument "empty environment snapshot cannot be preserved")
  let preserved := { s with captureStatus := .preserved }
  preserved.validateHardLimits
  return preserved

end PersistShell

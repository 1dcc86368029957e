import PersistShell.Cli.ShellState
import PersistShell.Core.Config
import PersistShell.Ipc.Context

/-! The recovery policy on its way from the daemon to the helper that its shells run: four
variables of the environment of the shell. -/

namespace PersistShell

structure PolicyHint where
  include_ : String
  maxVariables : String
  maxBytes : String
  fingerprint : String

/-- `join(",")`. -/
def joinRules (rules : List String) : String :=
  String.ofList ([','].intercalate (rules.map String.toList))

/-- `split(',')`. -/
def splitRules (text : String) : List String := (text.toList.splitOn ',').map String.ofList

def PolicyHint.new (config : RecoveryEnvironmentConfig) : Except PersistError PolicyHint := do
  let policy ← EnvironmentPolicy.new config.include_ config.maxVariables config.maxBytes
  return {
    include_ := joinRules config.include_
    maxVariables := toString config.maxVariables
    maxBytes := toString config.maxBytes
    fingerprint := policy.fingerprint }

def stateEnvInclude : String := "PERSIST_STATE_ENV_INCLUDE"
def stateEnvMaxVariables : String := "PERSIST_STATE_ENV_MAX_VARIABLES"
def stateEnvMaxBytes : String := "PERSIST_STATE_ENV_MAX_BYTES"
def stateEnvPolicyFingerprint : String := "PERSIST_STATE_ENV_POLICY_FINGERPRINT"

/-- `path` is that of the state file. -/
def commonEnvironment (sessionId : Nat) (helper : String) (identity : ShellStateIdentity)
    (path : String) (policyHint : PolicyHint) : List (String × String) :=
  [("PERSIST_HISTORY_HELPER", helper),
    ("PERSIST_SESSION_ID", toString sessionId),
    ("PERSIST_STATE_FILE", path),
    ("PERSIST_STATE_SESSION_ID", toString identity.sessionId),
    ("PERSIST_STATE_INCARNATION", encodeIncarnation identity.incarnation),
    ("PERSIST_STATE_HELPER", helper),
    (stateEnvInclude, policyHint.include_),
    (stateEnvMaxVariables, policyHint.maxVariables),
    (stateEnvMaxBytes, policyHint.maxBytes),
    (stateEnvPolicyFingerprint, policyHint.fingerprint)]

/-- `parse::<usize>`. -/
def parseUsize (text : String) : Option Nat :=
  let digits := if text.toList.head? = some '+' then text.toList.tail else text.toList
  let value := Nat.ofDigitChars 10 digits 0
  if digits ≠ [] ∧ digits.all Char.isDigit ∧ value < 2 ^ 64 then some value else none

def control (environment : ProcessEnvironment) (name : String) : Option String :=
  (environment.find? fun entry => entry.1 = utf8 name).bind fun entry => fromUtf8 entry.2

def parsePolicy (environment : ProcessEnvironment) : Option EnvironmentPolicy := do
  let text ← control environment stateEnvInclude
  let maxVariables ← parseUsize (← control environment stateEnvMaxVariables)
  let maxBytes ← parseUsize (← control environment stateEnvMaxBytes)
  let expectedFingerprint ← control environment stateEnvPolicyFingerprint
  let rules := if text = "" then [] else splitRules text
  let policy ← (EnvironmentPolicy.new rules maxVariables maxBytes).toOption
  if policy.fingerprint = expectedFingerprint then some policy else none

section text

theorem parseUsize_toString {n : Nat} (h : n < 2 ^ 64) : parseUsize (toString n) = some n := by
  have hlist : (toString n).toList = Nat.toDigits 10 n := by
    rw [Nat.toString_eq_ofList_toDigits, String.toList_ofList]
  have hdigit : ∀ c ∈ Nat.toDigits 10 n, c.isDigit = true := fun c hc =>
    Nat.isDigit_of_mem_toDigits (by decide) (by decide) hc
  have hplus : (Nat.toDigits 10 n).head? ≠ some '+' := by
    intro hhead
    have := hdigit _ (List.mem_of_head? hhead)
    exact absurd this (by decide)
  unfold parseUsize
  rw [hlist]
  dsimp only
  rw [if_neg hplus, Nat.ofDigitChars_ten_toDigits, if_pos]
  exact ⟨Nat.toDigits_ne_nil, List.all_eq_true.mpr hdigit, h⟩

/-- Rules without commas are found again. -/
theorem splitRules_joinRules {rules : List String} (hcomma : ∀ rule ∈ rules, ',' ∉ rule.toList)
    (hrules : rules ≠ []) : splitRules (joinRules rules) = rules := by
  have hlists : ∀ l ∈ rules.map String.toList, ',' ∉ l := by
    intro l hl
    obtain ⟨rule, hrule, rfl⟩ := List.mem_map.mp hl
    exact hcomma rule hrule
  rw [splitRules, joinRules, String.toList_ofList, List.splitOn_intercalate _ hlists, List.map_map]
  · exact List.map_id'' (fun rule => String.ofList_toList) _
  · exact fun h => hrules (List.map_eq_nil_iff.mp h)

theorem mem_utf8_comma {s : String} (h : ',' ∈ s.toList) : (44 : UInt8) ∈ utf8 s := by
  rw [utf8_eq_flatMap]
  exact List.mem_flatMap.mpr ⟨',', h, by decide⟩

end text

/-- A rule is made of the characters of names and of a star at the end. -/
theorem validateRule_chars {rule : String} (h : validateRule rule = .ok ()) :
    utf8 rule ≠ [] ∧ (44 : UInt8) ∉ utf8 rule := by
  have hrule := rejectIf_eq_ok.mp h
  simp only [not_or, Bool.not_eq_true', Bool.not_eq_false] at hrule
  obtain ⟨hempty, -, hname, -⟩ := hrule
  simp only [validName, Bool.and_eq_true, List.all_eq_true] at hname
  have hchars := hname.2
  have hcomma : ¬ ((44 : UInt8) == 95 || isAsciiAlphanumeric 44) = true := by decide
  -- the name is the rule, or the rule up to the star
  cases hstar : stripStar rule with
  | none =>
    rw [hstar, Option.bind_none, Option.getD_none] at hempty hchars
    exact ⟨hempty, fun hmem => hcomma (hchars 44 hmem)⟩
  | some start =>
    unfold stripStar at hstar
    split at hstar
    · rename_i hlast
      cases hstar
      have hsplit := List.dropLast_append_getLast? 42 hlast
      refine ⟨fun hnil => ?_, fun hmem => ?_⟩
      · rw [hnil] at hlast
        cases hlast
      · rw [← hsplit, List.mem_append, List.mem_singleton] at hmem
        rcases hmem with hmem | hmem
        · rw [stripStar, if_pos hlast, Option.bind_some] at hchars
          cases hname : fromUtf8 (utf8 rule).dropLast with
          | none =>
            rw [hname] at hchars
            exact hcomma (hchars 44 (List.dropLast_subset _ hmem))
          | some name =>
            rw [hname] at hchars
            exact hcomma (hchars 44 (utf8_of_fromUtf8 hname ▸ hmem))
        · exact absurd hmem (by decide)
    · cases hstar

/-- The policy of a configuration has been made of its rules, whatever their order. -/
theorem EnvironmentPolicy.new_rules {rules : List String} {maxVariables maxBytes : Nat}
    {policy : EnvironmentPolicy}
    (h : EnvironmentPolicy.new rules maxVariables maxBytes = .ok policy) :
    ∀ rule ∈ rules, validateRule rule = .ok () := by
  obtain ⟨_, -, h⟩ := bind_eq_ok.mp h
  obtain ⟨_, -, h⟩ := bind_eq_ok.mp h
  obtain ⟨_, -, h⟩ := bind_eq_ok.mp h
  obtain ⟨_, hrules, -⟩ := bind_eq_ok.mp h
  intro rule hrule
  exact forM_eq_ok.mp hrules rule (List.mem_mergeSort.mpr hrule)

theorem EnvironmentPolicy.new_bounds {rules : List String} {maxVariables maxBytes : Nat}
    {policy : EnvironmentPolicy}
    (h : EnvironmentPolicy.new rules maxVariables maxBytes = .ok policy) :
    maxVariables ≤ maxShellEnvironmentVariables ∧ maxBytes ≤ maxShellEnvironmentBytes := by
  obtain ⟨_, hcount, h⟩ := bind_eq_ok.mp h
  obtain ⟨_, hbytes, -⟩ := bind_eq_ok.mp h
  have hcount := rejectIf_eq_ok.mp hcount
  have hbytes := rejectIf_eq_ok.mp hbytes
  omega

/-- A configuration that passes its checks has a policy. -/
theorem Config.policy_of_validate {config : Config} (h : config.validate = .ok ()) :
    ∃ policy, config.recoveryEnvironment.policy = .ok policy := by
  cases hpolicy : config.recoveryEnvironment.policy with
  | ok policy => exact ⟨policy, rfl⟩
  | error e =>
    unfold Config.validate at h
    rw [hpolicy] at h
    dsimp only at h
    iterate 12 obtain ⟨_, -, h⟩ := bind_eq_ok.mp h
    split at h
    · iterate 8 obtain ⟨_, -, h⟩ := bind_eq_ok.mp h
      cases h
    · iterate 7 obtain ⟨_, -, h⟩ := bind_eq_ok.mp h
      cases h

/-- The rules that the helper reads are those that the daemon wrote. -/
theorem splitRules_hint {rules : List String} {maxVariables maxBytes : Nat}
    {policy : EnvironmentPolicy}
    (h : EnvironmentPolicy.new rules maxVariables maxBytes = .ok policy) :
    (if joinRules rules = "" then [] else splitRules (joinRules rules)) = rules := by
  cases rules with
  | nil => rfl
  | cons first later =>
    have hvalid := EnvironmentPolicy.new_rules h
    have hcomma : ∀ rule ∈ first :: later, ',' ∉ rule.toList := fun rule hrule hmem =>
      (validateRule_chars (hvalid rule hrule)).2 (mem_utf8_comma hmem)
    have hsplit := splitRules_joinRules hcomma (List.cons_ne_nil _ _)
    rw [if_neg, hsplit]
    -- no rules but an empty one would be written as an empty text
    intro hempty
    rw [hempty] at hsplit
    have hfirst : first = "" := (List.cons.inj hsplit).1.symm
    refine (validateRule_chars (hvalid first List.mem_cons_self)).1 ?_
    rw [hfirst]
    rfl

/-- The include list, the limits and the fingerprint in the variables belong together. -/
def BelongTogether (text maxVariables maxBytes fingerprint : String) (policy : EnvironmentPolicy) :
    Prop :=
  ∃ count bytes, parseUsize maxVariables = some count ∧ parseUsize maxBytes = some bytes ∧
    EnvironmentPolicy.new (if text = "" then [] else splitRules text) count bytes = .ok policy ∧
    policy.fingerprint = fingerprint

theorem parsePolicy_eq_some {environment : ProcessEnvironment} {policy : EnvironmentPolicy} :
    parsePolicy environment = some policy ↔ ∃ text maxVariables maxBytes fingerprint,
      control environment stateEnvInclude = some text ∧
      control environment stateEnvMaxVariables = some maxVariables ∧
      control environment stateEnvMaxBytes = some maxBytes ∧
      control environment stateEnvPolicyFingerprint = some fingerprint ∧
      BelongTogether text maxVariables maxBytes fingerprint policy := by
  simp only [parsePolicy, Option.bind_eq_bind, Option.bind_eq_some_iff]
  constructor
  · rintro ⟨text, htext, maxVariables, hcount, count, hparsed, maxBytes, hbytes, bytes, hparsed',
      fingerprint, hfingerprint, made, hmade, h⟩
    split at h
    · rename_i hsame
      cases h
      refine ⟨text, maxVariables, maxBytes, fingerprint, htext, hcount, hbytes, hfingerprint,
        count, bytes, hparsed, hparsed', ?_, hsame⟩
      cases hnew : EnvironmentPolicy.new (if text = "" then [] else splitRules text) count bytes with
      | error e =>
        rw [hnew] at hmade
        cases hmade
      | ok policy =>
        rw [hnew] at hmade
        cases hmade
        rfl
    · cases h
  · rintro ⟨text, maxVariables, maxBytes, fingerprint, htext, hcount, hbytes, hfingerprint,
      count, bytes, hparsed, hparsed', hnew, hsame⟩
    refine ⟨text, htext, maxVariables, hcount, count, hparsed, maxBytes, hbytes, bytes, hparsed',
      fingerprint, hfingerprint, policy, ?_, if_pos hsame⟩
    rw [hnew]
    rfl

/-- The variables as the environment of a process. -/
def encoded (entries : List (String × String)) : ProcessEnvironment :=
  entries.map fun entry => (utf8 entry.1, utf8 entry.2)

section common

variable (sessionId : Nat) (helper : String) (identity : ShellStateIdentity) (path : String)
  (hint : PolicyHint)

theorem control_encoded (entries : List (String × String)) (name : String) :
    control (encoded entries) name = (entries.find? fun entry => entry.1 = name).map Prod.snd := by
  induction entries with
  | nil => rfl
  | cons entry entries ih =>
    unfold control encoded at ih ⊢
    rw [List.map_cons, List.find?_cons, List.find?_cons]
    simp only [utf8_inj]
    cases hname : decide (entry.1 = name) with
    | false => exact ih
    | true => exact fromUtf8_utf8 entry.2

theorem control_common :
    let environment := encoded (commonEnvironment sessionId helper identity path hint)
    control environment stateEnvInclude = some hint.include_ ∧
      control environment stateEnvMaxVariables = some hint.maxVariables ∧
      control environment stateEnvMaxBytes = some hint.maxBytes ∧
      control environment stateEnvPolicyFingerprint = some hint.fingerprint := by
  simp [control_encoded, commonEnvironment, stateEnvInclude, stateEnvMaxVariables,
    stateEnvMaxBytes, stateEnvPolicyFingerprint]

end common

/-- The helper has the policy that the daemon has, and none when the variables do not fit. -/
theorem policy_travels :
    (∀ (config : Config) sessionId helper identity path, config.validate = .ok () →
      ∃ hint policy, PolicyHint.new config.recoveryEnvironment = .ok hint ∧
        config.recoveryEnvironment.policy = .ok policy ∧
        parsePolicy (encoded (commonEnvironment sessionId helper identity path hint)) =
          some policy) ∧
    ∀ environment text maxVariables maxBytes fingerprint,
      control environment stateEnvInclude = some text →
      control environment stateEnvMaxVariables = some maxVariables →
      control environment stateEnvMaxBytes = some maxBytes →
      control environment stateEnvPolicyFingerprint = some fingerprint →
      (¬ ∃ policy, BelongTogether text maxVariables maxBytes fingerprint policy) →
      parsePolicy environment = none := by
  constructor
  · intro config sessionId helper identity path hvalid
    obtain ⟨policy, hpolicy⟩ := Config.policy_of_validate hvalid
    have hnew : EnvironmentPolicy.new config.recoveryEnvironment.include_
        config.recoveryEnvironment.maxVariables config.recoveryEnvironment.maxBytes = .ok policy :=
      hpolicy
    have hhint : PolicyHint.new config.recoveryEnvironment = .ok
        ⟨joinRules config.recoveryEnvironment.include_,
          toString config.recoveryEnvironment.maxVariables,
          toString config.recoveryEnvironment.maxBytes, policy.fingerprint⟩ :=
      bind_eq_ok.mpr ⟨policy, hnew, rfl⟩
    refine ⟨_, policy, hhint, hpolicy, parsePolicy_eq_some.mpr ?_⟩
    obtain ⟨htext, hcount, hbytes, hfingerprint⟩ :=
      control_common sessionId helper identity path _
    refine ⟨_, _, _, _, htext, hcount, hbytes, hfingerprint, _, _, parseUsize_toString ?_,
      parseUsize_toString ?_, ?_, rfl⟩
    · exact Nat.lt_of_le_of_lt (EnvironmentPolicy.new_bounds hnew).1 (by decide)
    · exact Nat.lt_of_le_of_lt (EnvironmentPolicy.new_bounds hnew).2 (by decide)
    · rw [splitRules_hint hnew]
      exact hnew
  · intro environment text maxVariables maxBytes fingerprint htext hcount hbytes hfingerprint hnone
    cases hparse : parsePolicy environment with
    | none => rfl
    | some policy =>
      obtain ⟨_, _, _, _, htext', hcount', hbytes', hfingerprint', htogether⟩ :=
        parsePolicy_eq_some.mp hparse
      cases htext.symm.trans htext'
      cases hcount.symm.trans hcount'
      cases hbytes.symm.trans hbytes'
      cases hfingerprint.symm.trans hfingerprint'
      exact absurd ⟨policy, htogether⟩ hnone

/-- One rule, for a group of names. -/
def editorConfig : Config :=
  { socketDir := "/run/persist", internalLog := { daemonLog := "/log/d", clientLog := "/log/c" }
    recoveryEnvironment := { include_ := ["MY_*"] } }

theorem editor_policy_travels : ∃ hint policy,
    PolicyHint.new editorConfig.recoveryEnvironment = .ok hint ∧
      editorConfig.recoveryEnvironment.policy = .ok policy ∧
      parsePolicy (encoded (commonEnvironment 7 "/bin/persist" ⟨7, []⟩ "/run/s" hint)) =
        some policy :=
  policy_travels.1 editorConfig 7 "/bin/persist" ⟨7, []⟩ "/run/s" (by decide +kernel)

end PersistShell

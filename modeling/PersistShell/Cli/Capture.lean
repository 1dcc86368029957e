import PersistShell.Cli.ShellState
import PersistShell.Core.Json
import PersistShell.Metadata.Environment

/-! No variable that the policy forbids gets into a snapshot, by whichever way the snapshot is
made, and none has an influence on the one that is captured. -/

namespace PersistShell

section admissible

theorem EnvironmentPolicy.allows_not_denied {policy : EnvironmentPolicy} {name : String}
    (h : policy.allows name) : policy.allows name ∧ hardDenied name = false := by
  refine ⟨h, ?_⟩
  simp only [EnvironmentPolicy.allows, Bool.and_eq_true, Bool.not_eq_true'] at h
  exact h.1.2

/-- A map that is made from entries has their keys. -/
theorem key_of_toList {β : Type} {entries : List (String × β)} {entry : String × β}
    (h : entry ∈ (Std.ExtTreeMap.ofList entries).toList) : entry.1 ∈ entries.map Prod.fst := by
  have hkey : entry.1 ∈ (Std.ExtTreeMap.ofList entries).keys := by
    rw [← Std.ExtTreeMap.map_fst_toList_eq_keys]
    exact List.mem_map_of_mem h
  rw [Std.ExtTreeMap.mem_keys, Std.ExtTreeMap.mem_ofList] at hkey
  exact List.contains_iff_mem.mp hkey

variable [SerdeJson]

/-- A snapshot names only what the policy allows, and is within its limits. -/
structure EnvironmentSnapshot.Admissible (policy : EnvironmentPolicy) (s : EnvironmentSnapshot) :
    Prop where
  set_allowed : ∀ entry ∈ s.envSet, policy.allows entry.1 ∧ hardDenied entry.1 = false
  unset_allowed : ∀ name ∈ s.envUnset, policy.allows name ∧ hardDenied name = false
  disjoint : ∀ entry ∈ s.envSet, entry.1 ∉ s.envUnset
  count : s.envSet.length + s.envUnset.length ≤ policy.maxVariables
  size : ∃ encoded, SerdeJson.snapshotToVec s = .ok encoded ∧ encoded.length ≤ policy.maxBytes

theorem validate_snapshotToVec {s : EnvironmentSnapshot} {maxVariables maxBytes : Nat}
    (h : s.validate maxVariables maxBytes = .ok ()) :
    ∃ encoded, SerdeJson.snapshotToVec s = .ok encoded ∧ encoded.length ≤ maxBytes := by
  obtain ⟨_, -, h⟩ := bind_eq_ok.mp h
  obtain ⟨_, -, h⟩ := bind_eq_ok.mp h
  obtain ⟨_, -, h⟩ := bind_eq_ok.mp h
  obtain ⟨_, -, h⟩ := bind_eq_ok.mp h
  obtain ⟨_, -, h⟩ := bind_eq_ok.mp h
  obtain ⟨_, -, h⟩ := bind_eq_ok.mp h
  cases hencoded : SerdeJson.snapshotToVec s with
  | error e =>
    rw [hencoded] at h
    cases h
  | ok encoded =>
    rw [hencoded] at h
    exact ⟨encoded, rfl, Nat.le_of_not_lt (rejectIf_eq_ok.mp h)⟩

/-- A valid snapshot of allowed names is admissible. -/
theorem EnvironmentSnapshot.admissible_of_validate {policy : EnvironmentPolicy}
    {s : EnvironmentSnapshot} (h : s.validate policy.maxVariables policy.maxBytes = .ok ())
    (hset : ∀ entry ∈ s.envSet, policy.allows entry.1)
    (hunset : ∀ name ∈ s.envUnset, policy.allows name) : s.Admissible policy := by
  have hsize := validate_snapshotToVec h
  obtain ⟨_, -, h⟩ := bind_eq_ok.mp h
  obtain ⟨_, hcount, h⟩ := bind_eq_ok.mp h
  obtain ⟨_, hoverlap, h⟩ := bind_eq_ok.mp h
  have hdisjoint := rejectIf_eq_ok.mp hoverlap
  exact {
    set_allowed := fun entry he => EnvironmentPolicy.allows_not_denied (hset entry he)
    unset_allowed := fun name hn => EnvironmentPolicy.allows_not_denied (hunset name hn)
    disjoint := fun entry he hmem =>
      hdisjoint (List.any_eq_true.mpr ⟨entry, he, List.contains_iff_mem.mpr hmem⟩)
    count := Nat.le_of_not_lt (rejectIf_eq_ok.mp hcount)
    size := hsize }

variable {policy : EnvironmentPolicy}

theorem filtered_admissible {s : EnvironmentSnapshot}
    (h : (policy.filtered s).validate policy.maxVariables policy.maxBytes = .ok ()) :
    (policy.filtered s).Admissible policy :=
  EnvironmentSnapshot.admissible_of_validate h (fun _ he => (List.mem_filter.mp he).2)
    fun _ hn => (List.mem_filter.mp hn).2

theorem filterSnapshot_admissible {s t : EnvironmentSnapshot}
    (h : policy.filterSnapshot s = .ok t) : t.Admissible policy := by
  obtain ⟨-, hlimits, rfl⟩ := filterSnapshot_eq_ok.mp h
  exact filtered_admissible hlimits

theorem decodeEnvironment_admissible {stored : Option String} {snapshot : EnvironmentSnapshot}
    (h : decodeEnvironment stored policy = .ok (some snapshot)) : snapshot.Admissible policy := by
  obtain ⟨⟨s, rfl⟩, hlimits⟩ := decodeEnvironment_yields h
  exact filtered_admissible hlimits

theorem filterSnapshot_idempotent
    (hvariables : policy.maxVariables ≤ maxShellEnvironmentVariables)
    (hbytes : policy.maxBytes ≤ maxShellEnvironmentBytes) (s : EnvironmentSnapshot) :
    (policy.filterSnapshot s >>= policy.filterSnapshot) = policy.filterSnapshot s := by
  cases h : policy.filterSnapshot s with
  | error e => rfl
  | ok t => exact filterSnapshot_again hvariables hbytes h

/-- Captured names pass the filter on their way in; the tracked ones that are not set do too. -/
theorem capture_admissible {previous : Option EnvironmentSnapshot}
    {current : List (String × String)} {snapshot : EnvironmentSnapshot}
    (h : EnvironmentSnapshot.capture policy previous current = .ok snapshot) :
    snapshot.Admissible policy := by
  obtain ⟨_, hvalidate, h⟩ := bind_eq_ok.mp h
  cases h
  refine EnvironmentSnapshot.admissible_of_validate hvalidate ?_ ?_
  · intro entry hentry
    obtain ⟨entry', hmem, heq⟩ := List.mem_map.mp (key_of_toList hentry)
    rw [← heq]
    exact (List.mem_filter.mp hmem).2
  · intro name hname
    obtain ⟨entry, hentry, rfl⟩ := List.mem_map.mp hname
    obtain ⟨entry', hmem, heq⟩ := List.mem_map.mp (key_of_toList hentry)
    obtain ⟨name', htracked, rfl⟩ := List.mem_map.mp hmem
    rw [← heq]
    exact (Bool.and_eq_true_iff.mp (List.mem_filter.mp htracked).2).1

variable [LawfulSerdeJson]

/-- What is stored is the text of what the filter leaves. -/
theorem encodeEnvironment_eq (hvariables : policy.maxVariables ≤ maxShellEnvironmentVariables)
    (hbytes : policy.maxBytes ≤ maxShellEnvironmentBytes) {s t : EnvironmentSnapshot}
    (h : policy.filterSnapshot s = .ok t) :
    ∃ text, encodeEnvironment s policy = .ok text ∧
      SerdeJson.snapshotToVec t = .ok (utf8 text) ∧ t.validateHardLimits = .ok () ∧
      (utf8 text).length ≤ maxShellEnvironmentBytes := by
  obtain ⟨-, hlimits, rfl⟩ := filterSnapshot_eq_ok.mp h
  have hhard := EnvironmentSnapshot.validate_mono hlimits hvariables hbytes
  obtain ⟨encoded, hencoded, hsize⟩ := validate_snapshotToVec hhard
  obtain ⟨text, rfl⟩ := LawfulSerdeJson.is_text hencoded
  refine ⟨text, ?_, hencoded, hhard, hsize⟩
  have hencode : encodeEnvironmentSnapshot (policy.filtered s) = .ok (utf8 text) := by
    refine bind_eq_ok.mpr ⟨(), hhard, ?_⟩
    rw [hencoded]
    exact bind_eq_ok.mpr ⟨(), rejectIf_eq_ok.mpr (Nat.not_lt.mpr hsize), rfl⟩
  refine bind_eq_ok.mpr ⟨_, h, bind_eq_ok.mpr ⟨_, hencode, ?_⟩⟩
  rw [fromUtf8_utf8]
  rfl

/-- A stored environment is read back as what the filter left of it. -/
theorem decode_encodeEnvironment
    (hvariables : policy.maxVariables ≤ maxShellEnvironmentVariables)
    (hbytes : policy.maxBytes ≤ maxShellEnvironmentBytes) (s : EnvironmentSnapshot) :
    (encodeEnvironment s policy >>= fun text => decodeEnvironment (some text) policy) =
      (policy.filterSnapshot s).map some := by
  cases h : policy.filterSnapshot s with
  | error e =>
    have hencode : encodeEnvironment s policy = .error e := by
      unfold encodeEnvironment
      rw [h]
      rfl
    rw [hencode]
    rfl
  | ok t =>
    obtain ⟨text, hencode, hvec, hhard, hsize⟩ := encodeEnvironment_eq hvariables hbytes h
    have hstored : storedSnapshot text policy = .ok t := by
      have hdecode : decodeEnvironmentSnapshot (utf8 text) = .ok t := by
        refine bind_eq_ok.mpr ⟨(), rejectIf_eq_ok.mpr (Nat.not_lt.mpr hsize), ?_⟩
        rw [LawfulSerdeJson.round_trip hvec]
        exact bind_eq_ok.mpr ⟨(), hhard, rfl⟩
      unfold storedSnapshot
      rw [hdecode]
    have hagain := filterSnapshot_again hvariables hbytes h
    exact bind_eq_ok.mpr ⟨text, hencode, bind_eq_ok.mpr
      ⟨(), rejectIf_eq_ok.mpr (Nat.not_lt.mpr hsize),
        bind_eq_ok.mpr ⟨t, hstored, bind_eq_ok.mpr ⟨t, hagain, rfl⟩⟩⟩⟩

/-- A text that is stored stands for an admissible snapshot. -/
theorem encodeEnvironment_admissible
    (hvariables : policy.maxVariables ≤ maxShellEnvironmentVariables)
    (hbytes : policy.maxBytes ≤ maxShellEnvironmentBytes) {s : EnvironmentSnapshot} {text : String}
    (h : encodeEnvironment s policy = .ok text) :
    ∃ t, SerdeJson.snapshotFromSlice (utf8 text) = .ok t ∧ t.Admissible policy := by
  obtain ⟨t, hfilter, -⟩ := bind_eq_ok.mp h
  obtain ⟨text', hencode, hvec, -⟩ := encodeEnvironment_eq hvariables hbytes hfilter
  obtain rfl : text' = text := Except.ok.inj (hencode.symm.trans h)
  exact ⟨t, LawfulSerdeJson.round_trip hvec, filterSnapshot_admissible hfilter⟩

end admissible

section collect

/-- The values of a variable in the environment of a process, in order. -/
def ProcessEnvironment.values (environment : ProcessEnvironment) (name : String) : List Bytes :=
  (environment.filter fun entry => entry.1 = utf8 name).map Prod.snd

/-- Two processes have the same values of every variable that the policy allows. -/
def AgreeOnAllowed (policy : EnvironmentPolicy) (e e' : ProcessEnvironment) : Prop :=
  ∀ name, policy.allows name → e.values name = e'.values name

/-- Whether an entry is one of an allowed variable. -/
def entryAllowed (policy : EnvironmentPolicy) (entry : Bytes × Bytes) : Bool :=
  (fromUtf8 entry.1).any policy.allows

variable {policy : EnvironmentPolicy}

theorem collectEntry_skips {m : Std.ExtTreeMap String String} {entry : Bytes × Bytes}
    (h : entryAllowed policy entry = false) : collectEntry policy m entry = .ok m := by
  unfold collectEntry
  cases hname : fromUtf8 entry.1 with
  | none => rfl
  | some name =>
    have hdenied : policy.allows name = false := by simpa [entryAllowed, hname] using h
    simp [hdenied]

/-- Entries of other variables are as good as absent. -/
theorem collectEnvironment_filter (environment : ProcessEnvironment) :
    collectEnvironment environment policy =
      collectEnvironment (environment.filter (entryAllowed policy)) policy := by
  have hfrom : ∀ m, environment.foldlM (collectEntry policy) m =
      (environment.filter (entryAllowed policy)).foldlM (collectEntry policy) m := by
    induction environment with
    | nil => exact fun _ => rfl
    | cons entry rest ih =>
      intro m
      rw [List.foldlM_cons]
      cases hentry : entryAllowed policy entry with
      | false =>
        rw [collectEntry_skips hentry, List.filter_cons_of_neg (by simp [hentry])]
        exact ih m
      | true =>
        rw [List.filter_cons_of_pos hentry, List.foldlM_cons]
        exact congrArg (collectEntry policy m entry >>= ·) (funext ih)
  exact hfrom {}

/-- The map has each allowed variable with its one value, which is text, and no other. -/
def CollectedFrom (policy : EnvironmentPolicy) (e : ProcessEnvironment)
    (m : Std.ExtTreeMap String String) : Prop :=
  ∀ name, (policy.allows name = false → m[name]? = none) ∧
    (policy.allows name → (e.values name = [] ∧ m[name]? = none) ∨
      ∃ value, e.values name = [utf8 value] ∧ m[name]? = some value)

theorem collected_unique {e : ProcessEnvironment} {m m' : Std.ExtTreeMap String String}
    (h : CollectedFrom policy e m) (h' : CollectedFrom policy e m') : m = m' := by
  refine Std.ExtTreeMap.ext_getElem? fun name => ?_
  cases hallows : policy.allows name with
  | false => rw [(h name).1 hallows, (h' name).1 hallows]
  | true =>
    rcases (h name).2 hallows with ⟨hnil, hm⟩ | ⟨value, hvalue, hm⟩ <;>
      rcases (h' name).2 hallows with ⟨hnil', hm'⟩ | ⟨value', hvalue', hm'⟩
    · rw [hm, hm']
    · rw [hnil] at hvalue'
      cases hvalue'
    · rw [hnil'] at hvalue
      cases hvalue
    · have hsame : utf8 value = utf8 value' := List.singleton_inj.mp (hvalue.symm.trans hvalue')
      rw [hm, hm', utf8_inj.mp hsame]

theorem values_concat (e : ProcessEnvironment) (entry : Bytes × Bytes) (name : String) :
    ProcessEnvironment.values (e ++ [entry]) name =
      e.values name ++ if entry.1 = utf8 name then [entry.2] else [] := by
  simp only [ProcessEnvironment.values, List.filter_append, List.map_append]
  by_cases h : entry.1 = utf8 name
  · simp [h]
  · simp [h]

/-- An entry of another variable changes nothing. -/
theorem collected_skip {e : ProcessEnvironment} {entry : Bytes × Bytes}
    {m : Std.ExtTreeMap String String} (h : entryAllowed policy entry = false) :
    CollectedFrom policy (e ++ [entry]) m ↔ CollectedFrom policy e m := by
  refine forall_congr' fun name => and_congr_right fun _ => imp_congr_right fun hallows => ?_
  have hother : entry.1 ≠ utf8 name := fun heq => by
    simp [entryAllowed, heq, hallows] at h
  rw [values_concat, if_neg hother, List.append_nil]

/-- An entry of an allowed variable: the variable is new and its value is text. -/
theorem collected_add {e : ProcessEnvironment} {name : String} {value : Bytes}
    {m' : Std.ExtTreeMap String String} (hallows : policy.allows name) :
    CollectedFrom policy (e ++ [(utf8 name, value)]) m' ↔
      ∃ m text, CollectedFrom policy e m ∧ value = utf8 text ∧ m[name]? = none ∧
        m' = m.insert name text := by
  have hothers : ∀ name', name' ≠ name →
      ProcessEnvironment.values (e ++ [(utf8 name, value)]) name' = e.values name' := by
    intro name' hne
    have hother : utf8 name ≠ utf8 name' := fun heq => hne (utf8_inj.mp heq).symm
    rw [values_concat, if_neg hother, List.append_nil]
  have hself : ProcessEnvironment.values (e ++ [(utf8 name, value)]) name =
      e.values name ++ [value] := by
    rw [values_concat, if_pos rfl]
  constructor
  · intro h
    rcases (h name).2 hallows with ⟨hnil, -⟩ | ⟨text, htext, hm⟩
    · rw [hself] at hnil
      simp at hnil
    · rw [hself] at htext
      obtain ⟨hempty, hvalue⟩ := List.append_eq_singleton_iff.mp htext |>.resolve_right (by simp)
      refine ⟨m'.erase name, text, fun name' => ?_, List.singleton_inj.mp hvalue, ?_, ?_⟩
      · by_cases hne : name' = name
        · subst hne
          exact ⟨fun _ => Std.ExtTreeMap.getElem?_erase_self, fun _ =>
            Or.inl ⟨hempty, Std.ExtTreeMap.getElem?_erase_self⟩⟩
        · have hget : (m'.erase name)[name']? = m'[name']? := by
            simp [Std.ExtTreeMap.getElem?_erase, Ne.symm hne]
          rw [hget, ← hothers name' hne]
          exact h name'
      · exact Std.ExtTreeMap.getElem?_erase_self
      · refine Std.ExtTreeMap.ext_getElem? fun name' => ?_
        by_cases hne : name' = name
        · subst hne
          simp [hm]
        · simp [Std.ExtTreeMap.getElem?_insert, Std.ExtTreeMap.getElem?_erase, Ne.symm hne]
  · rintro ⟨m, text, h, rfl, hnone, rfl⟩ name'
    by_cases hne : name' = name
    · subst hne
      refine ⟨fun hdenied => absurd hallows (by simp [hdenied]), fun _ => Or.inr ⟨text, ?_, ?_⟩⟩
      · rcases (h name').2 hallows with ⟨hempty, -⟩ | ⟨_, -, hsome⟩
        · rw [hself, hempty, List.nil_append]
        · rw [hnone] at hsome
          cases hsome
      · simp
    · have hget : (m.insert name text)[name']? = m[name']? := by
        simp [Std.ExtTreeMap.getElem?_insert, Ne.symm hne]
      rw [hget, hothers name' hne]
      exact h name'

theorem collectEntry_eq_ok {m m' : Std.ExtTreeMap String String} {name : String} {value : Bytes}
    (hallows : policy.allows name) :
    collectEntry policy m (utf8 name, value) = .ok m' ↔
      ∃ text, value = utf8 text ∧ m[name]? = none ∧ m' = m.insert name text := by
  simp only [collectEntry, fromUtf8_utf8, hallows, if_true]
  cases hvalue : fromUtf8 value with
  | none =>
    refine ⟨fun h => (by cases h), ?_⟩
    rintro ⟨text, rfl, -⟩
    rw [fromUtf8_utf8] at hvalue
    cases hvalue
  | some text =>
    have hbytes := fromUtf8_eq_some.mp hvalue
    by_cases hmem : m.contains name
    · simp only [hmem, if_true]
      refine ⟨fun h => (by cases h), ?_⟩
      rintro ⟨_, -, hnone, -⟩
      rw [Std.ExtTreeMap.contains_eq_isSome_getElem?, hnone] at hmem
      cases hmem
    · have hnone : m[name]? = none := by
        rw [Std.ExtTreeMap.contains_eq_isSome_getElem?] at hmem
        exact Option.not_isSome_iff_eq_none.mp hmem
      simp only [hmem, Bool.false_eq_true, if_false]
      constructor
      · intro h
        cases h
        exact ⟨text, hbytes, hnone, rfl⟩
      · rintro ⟨text', htext', -, rfl⟩
        rw [utf8_inj.mp (hbytes.symm.trans htext')]

/-- One entry more: the map is that of the entries so far, and the entry could be added. -/
theorem collected_concat {e : ProcessEnvironment} {entry : Bytes × Bytes}
    {m' : Std.ExtTreeMap String String} :
    CollectedFrom policy (e ++ [entry]) m' ↔
      ∃ m, CollectedFrom policy e m ∧ collectEntry policy m entry = .ok m' := by
  cases hentry : entryAllowed policy entry with
  | false =>
    rw [collected_skip hentry]
    constructor
    · exact fun h => ⟨m', h, collectEntry_skips hentry⟩
    · rintro ⟨m, h, hskip⟩
      rw [collectEntry_skips hentry] at hskip
      cases hskip
      exact h
  | true =>
    obtain ⟨bytes, value⟩ := entry
    obtain ⟨name, hname, hallows⟩ : ∃ name, fromUtf8 bytes = some name ∧ policy.allows name := by
      simpa [entryAllowed, Option.any_eq_true] using hentry
    obtain rfl := fromUtf8_eq_some.mp hname
    rw [collected_add hallows]
    refine exists_congr fun m => ?_
    rw [collectEntry_eq_ok hallows]
    constructor
    · rintro ⟨text, h, hrest⟩
      exact ⟨h, text, hrest⟩
    · rintro ⟨h, text, hrest⟩
      exact ⟨text, h, hrest⟩

theorem collectEnvironment_eq_ok {e : ProcessEnvironment} {m : Std.ExtTreeMap String String} :
    collectEnvironment e policy = .ok m ↔ CollectedFrom policy e m := by
  induction e using List.reverseRecOn generalizing m with
  | nil =>
    constructor
    · intro h
      cases h
      exact fun name => ⟨fun _ => Std.ExtTreeMap.getElem?_empty, fun _ =>
        Or.inl ⟨rfl, Std.ExtTreeMap.getElem?_empty⟩⟩
    · intro h
      have hempty : CollectedFrom policy [] {} := fun name =>
        ⟨fun _ => Std.ExtTreeMap.getElem?_empty, fun _ =>
          Or.inl ⟨rfl, Std.ExtTreeMap.getElem?_empty⟩⟩
      rw [collected_unique h hempty]
      rfl
  | append_singleton e entry ih =>
    rw [collected_concat, collectEnvironment, List.foldlM_append, bind_eq_ok]
    refine exists_congr fun m' => and_congr ih ?_
    rw [List.foldlM_cons, bind_eq_ok]
    exact ⟨fun ⟨_, h, hpure⟩ => by cases hpure; exact h, fun h => ⟨m, h, rfl⟩⟩

theorem collected_agree {e e' : ProcessEnvironment} {m : Std.ExtTreeMap String String}
    (h : AgreeOnAllowed policy e e') : CollectedFrom policy e m ↔ CollectedFrom policy e' m := by
  refine forall_congr' fun name => and_congr_right fun _ => imp_congr_right fun hallows => ?_
  rw [h name hallows]

theorem toOption_eq_of_ok_iff {ε α : Type} {x y : Except ε α}
    (h : ∀ a, x = .ok a ↔ y = .ok a) : x.toOption = y.toOption := by
  cases x with
  | ok a => rw [(h a).mp rfl]
  | error e =>
    cases y with
    | ok b => cases (h b).mpr rfl
    | error e' => rfl

variable [SerdeJson]

/-- Processes that agree on the allowed variables leave the same snapshot, or both none. -/
theorem captureEnvironment_agree {e e' : ProcessEnvironment} (h : AgreeOnAllowed policy e e')
    (previous : Option EnvironmentSnapshot) :
    (captureEnvironment policy e previous).toOption =
      (captureEnvironment policy e' previous).toOption := by
  refine toOption_eq_of_ok_iff fun snapshot => ?_
  unfold captureEnvironment
  rw [bind_eq_ok, bind_eq_ok]
  refine exists_congr fun m => and_congr_left fun _ => ?_
  rw [collectEnvironment_eq_ok, collectEnvironment_eq_ok, collected_agree h]

/-- Processes whose entries of allowed variables are the same, in the same order, get the same
error too. -/
theorem captureEnvironment_filter {e e' : ProcessEnvironment}
    (h : e.filter (entryAllowed policy) = e'.filter (entryAllowed policy))
    (previous : Option EnvironmentSnapshot) :
    captureEnvironment policy e previous = captureEnvironment policy e' previous := by
  unfold captureEnvironment
  rw [collectEnvironment_filter e, collectEnvironment_filter e', h]

end collect

/-- For every policy: what is captured, filtered, stored or read back names only what the policy
allows and is within its limits; filtering again changes nothing; what is stored is read back as
the filter left it; and processes that agree on the allowed variables leave the same snapshot. -/
theorem environment_confined [SerdeJson] [LawfulSerdeJson] {include_ : List String}
    {maxVariables maxBytes : Nat} {policy : EnvironmentPolicy}
    (hpolicy : EnvironmentPolicy.new include_ maxVariables maxBytes = .ok policy) :
    (∀ previous current snapshot,
      EnvironmentSnapshot.capture policy previous current = .ok snapshot →
        snapshot.Admissible policy) ∧
    (∀ s t, policy.filterSnapshot s = .ok t → t.Admissible policy) ∧
    (∀ s text, encodeEnvironment s policy = .ok text →
      ∃ t, SerdeJson.snapshotFromSlice (utf8 text) = .ok t ∧ t.Admissible policy) ∧
    (∀ stored snapshot, decodeEnvironment stored policy = .ok (some snapshot) →
      snapshot.Admissible policy) ∧
    (∀ s, (policy.filterSnapshot s >>= policy.filterSnapshot) = policy.filterSnapshot s) ∧
    (∀ s, (encodeEnvironment s policy >>= fun text => decodeEnvironment (some text) policy) =
      (policy.filterSnapshot s).map some) ∧
    (∀ e e' previous, AgreeOnAllowed policy e e' →
      (captureEnvironment policy e previous).toOption =
        (captureEnvironment policy e' previous).toOption) ∧
    ∀ e e' previous, e.filter (entryAllowed policy) = e'.filter (entryAllowed policy) →
      captureEnvironment policy e previous = captureEnvironment policy e' previous := by
  obtain ⟨hvariables, hbytes⟩ := EnvironmentPolicy.new_limits hpolicy
  refine ⟨fun _ _ _ => capture_admissible, fun _ _ => filterSnapshot_admissible,
    fun _ _ => encodeEnvironment_admissible hvariables hbytes,
    fun _ _ => decodeEnvironment_admissible, filterSnapshot_idempotent hvariables hbytes,
    decode_encodeEnvironment hvariables hbytes, ?_, ?_⟩
  · exact fun _ _ previous h => captureEnvironment_agree h previous
  · exact fun _ _ previous h => captureEnvironment_filter h previous

section sample

theorem sampleLang_sorted : ([("LANG", "C")].map Prod.fst).Pairwise (· < ·) :=
  List.pairwise_singleton _ _

def samplePolicy : EnvironmentPolicy where
  include_ := []
  maxVariables := 16
  maxBytes := 4096
  fingerprint := fingerprint [] 16 4096

def sampleSnapshot : EnvironmentSnapshot where
  formatVersion := 1
  policyVersion := 1
  policyFingerprint := samplePolicy.fingerprint
  envSet := [("LANG", "C")]
  envUnset := []
  captureStatus := .complete
  envSet_sorted := sampleLang_sorted
  envUnset_sorted := EnvironmentSnapshot.sorted_nil

theorem samplePolicy_new : EnvironmentPolicy.new [] 16 4096 = .ok samplePolicy := by
  have hnodup : (([] : List String).mergeSort fun a b => a ≤ b) = [] := List.mergeSort_nil
  unfold EnvironmentPolicy.new
  rw [hnodup]
  rfl

theorem sampleSnapshot_lawful :
    @LawfulSerdeJson (Json.serdeSnapshots [sampleSnapshot]) :=
  Json.serdeSnapshots_lawful fun s hs => by
    obtain rfl := List.mem_singleton.mp hs
    simp

theorem environment_confined_sample :
    letI := Json.serdeSnapshots [sampleSnapshot]
    (encodeEnvironment sampleSnapshot samplePolicy >>= fun text =>
        decodeEnvironment (some text) samplePolicy) =
      (samplePolicy.filterSnapshot sampleSnapshot).map some ∧
    (captureEnvironment samplePolicy [(utf8 "LANG", utf8 "C"), (utf8 "HOME", [255])] none).toOption =
      (captureEnvironment samplePolicy [(utf8 "LANG", utf8 "C")] none).toOption := by
  let _ := Json.serdeSnapshots [sampleSnapshot]
  have _ := sampleSnapshot_lawful
  obtain ⟨-, -, -, -, -, hstored, -, hsame⟩ :=
    environment_confined samplePolicy_new
  refine ⟨hstored sampleSnapshot, congrArg Except.toOption (hsame _ _ none ?_)⟩
  decide +kernel

end sample

end PersistShell

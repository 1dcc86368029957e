import PersistShell.Core.Json
import PersistShell.Core.Policy

/-! What a captured snapshot holds, name by name, and what it makes of the environment that it is
applied to. -/

namespace PersistShell

abbrev Variables := Std.ExtTreeMap String String

section maps

variable {β : Type} {name : String}

/-- A part of a map, made again from the entries that are in it. -/
theorem getElem_ofList_filter (m : Std.ExtTreeMap String β) (p : String → Bool) (name : String) :
    (Std.ExtTreeMap.ofList (m.toList.filter fun entry => p entry.1))[name]? =
      if p name then m[name]? else none := by
  have hdistinct := (m.distinct_keys_toList).filter fun entry => p entry.1
  have habsent : (∀ value, m[name]? = some value → p name = false) →
      (Std.ExtTreeMap.ofList (m.toList.filter fun entry => p entry.1))[name]? = none := by
    intro hnone
    refine Std.ExtTreeMap.getElem?_ofList_of_contains_eq_false ?_
    rw [← Bool.not_eq_true, List.contains_iff_mem]
    intro hmem
    obtain ⟨⟨_, value⟩, hentry, rfl⟩ := List.mem_map.mp hmem
    obtain ⟨hthere, hkept⟩ := List.mem_filter.mp hentry
    have hfalse := hnone value (Std.ExtTreeMap.mem_toList_iff_getElem?_eq_some.mp hthere)
    exact absurd hkept (by rw [hfalse]; exact Bool.false_ne_true)
  split
  · rename_i hkept
    cases hm : m[name]? with
    | none => exact habsent fun value hvalue => by cases hm.symm.trans hvalue
    | some value =>
      refine Std.ExtTreeMap.getElem?_ofList_of_mem Std.compare_self hdistinct ?_
      exact List.mem_filter.mpr ⟨Std.ExtTreeMap.mem_toList_iff_getElem?_eq_some.mpr hm, hkept⟩
  · rename_i hkept
    exact habsent fun _ _ => Bool.eq_false_iff.mpr hkept

theorem mem_keys_ofList_unit {names : List String} :
    name ∈ (Std.ExtTreeMap.ofList (names.map (·, ()))).toList.map Prod.fst ↔ name ∈ names := by
  rw [Std.ExtTreeMap.map_fst_toList_eq_keys, Std.ExtTreeMap.mem_keys, Std.ExtTreeMap.mem_ofList,
    List.contains_iff_mem, List.map_map]
  exact ⟨fun h => by simpa using h, fun h => by simpa using h⟩

theorem getElem_insert (m : Variables) (k v : String) :
    (m.insert k v)[name]? = if k = name then some v else m[name]? := by
  rw [Std.ExtTreeMap.getElem?_insert]
  simp only [compare_eq_iff_eq]

theorem getElem_erase (m : Variables) (k : String) :
    (m.erase k)[name]? = if k = name then none else m[name]? := by
  rw [Std.ExtTreeMap.getElem?_erase]
  simp only [compare_eq_iff_eq]

end maps

/-- The set variables, and then the unset ones, are put into an environment. -/
def EnvironmentSnapshot.applyTo (s : EnvironmentSnapshot) (base : Variables) : Variables :=
  s.envUnset.foldl (·.erase ·) (s.envSet.foldl (fun m entry => m.insert entry.1 entry.2) base)

section apply

variable {name : String}

theorem getElem_foldl_erase (names : List String) (m : Variables) :
    (names.foldl (·.erase ·) m)[name]? = if name ∈ names then none else m[name]? := by
  induction names generalizing m with
  | nil => rfl
  | cons first names ih =>
    rw [List.foldl_cons, ih, getElem_erase]
    by_cases hlater : name ∈ names
    · rw [if_pos hlater, if_pos (List.mem_cons_of_mem _ hlater)]
    · rw [if_neg hlater]
      by_cases hfirst : first = name
      · rw [if_pos hfirst, if_pos (List.mem_cons.mpr (.inl hfirst.symm))]
      · rw [if_neg hfirst, if_neg]
        exact fun hmem => (List.mem_cons.mp hmem).elim (fun h => hfirst h.symm) hlater

theorem getElem_foldl_insert {entries : List (String × String)}
    (hsorted : (entries.map Prod.fst).Pairwise (· < ·)) (m : Variables) :
    (∀ value, (name, value) ∈ entries →
      (entries.foldl (fun m entry => m.insert entry.1 entry.2) m)[name]? = some value) ∧
    (name ∉ entries.map Prod.fst →
      (entries.foldl (fun m entry => m.insert entry.1 entry.2) m)[name]? = m[name]?) := by
  induction entries generalizing m with
  | nil => exact ⟨fun _ h => (by cases h), fun _ => rfl⟩
  | cons first entries ih =>
    rw [List.map_cons, List.pairwise_cons] at hsorted
    obtain ⟨hthere, hother⟩ := ih hsorted.2 (m.insert first.1 first.2)
    rw [List.foldl_cons]
    constructor
    · intro value hmem
      rcases List.mem_cons.mp hmem with rfl | hmem
      · rw [hother fun hlater => absurd (hsorted.1 _ hlater) (lt_irrefl _), getElem_insert,
          if_pos rfl]
      · exact hthere value hmem
    · intro hnot
      rw [List.map_cons, List.mem_cons, not_or] at hnot
      rw [hother hnot.2, getElem_insert, if_neg (Ne.symm hnot.1)]

end apply

section capture

variable [SerdeJson] {policy : EnvironmentPolicy} {previous : Option EnvironmentSnapshot}
  {current : Variables} {s : EnvironmentSnapshot}

/-- The names that a snapshot is known by. -/
def EnvironmentSnapshot.names (s : EnvironmentSnapshot) : List String :=
  s.envSet.map Prod.fst ++ s.envUnset

/-- The names that a capture looks for, apart from those that are there. -/
def trackedNames (policy : EnvironmentPolicy) (previous : Option EnvironmentSnapshot) :
    List String :=
  EnvironmentPolicy.exactNames policy.include_ ++ previous.elim [] EnvironmentSnapshot.names

/-- The snapshot that a capture checks against the limits. -/
def capturedSnapshot (policy : EnvironmentPolicy) (previous : Option EnvironmentSnapshot)
    (current : Variables) : EnvironmentSnapshot :=
  let envSet : Variables := .ofList (current.toList.filter fun entry => policy.allows entry.1)
  let unset := (trackedNames policy previous).filter fun name =>
    policy.allows name && !envSet.contains name
  let envUnset : Std.ExtTreeMap String Unit := .ofList (unset.map (·, ()))
  { formatVersion := shellEnvironmentFormatVersion
    policyVersion := shellEnvironmentPolicyVersion
    policyFingerprint := policy.fingerprint
    envSet := envSet.toList
    envUnset := envUnset.toList.map Prod.fst
    captureStatus := .complete
    envSet_sorted := sorted_toList envSet
    envUnset_sorted := sorted_toList envUnset }

theorem capture_eq_ok :
    EnvironmentSnapshot.capture policy previous current.toList = .ok s ↔
      (capturedSnapshot policy previous current).validate policy.maxVariables policy.maxBytes =
        .ok () ∧ s = capturedSnapshot policy previous current := by
  constructor
  · intro h
    obtain ⟨_, hvalid, h⟩ := bind_eq_ok.mp h
    cases h
    exact ⟨hvalid, rfl⟩
  · rintro ⟨hvalid, rfl⟩
    exact bind_eq_ok.mpr ⟨(), hvalid, rfl⟩

omit [SerdeJson] in
theorem mem_captured_set {name value : String} :
    (name, value) ∈ (capturedSnapshot policy previous current).envSet ↔
      policy.allows name ∧ current[name]? = some value := by
  change (name, value) ∈ (Std.ExtTreeMap.ofList _).toList ↔ _
  rw [Std.ExtTreeMap.mem_toList_iff_getElem?_eq_some, getElem_ofList_filter]
  split
  · rename_i hallows
    exact ⟨fun h => ⟨hallows, h⟩, fun h => h.2⟩
  · rename_i hallows
    exact ⟨fun h => (by cases h), fun h => absurd h.1 hallows⟩

omit [SerdeJson] in
theorem mem_captured_unset {name : String} :
    name ∈ (capturedSnapshot policy previous current).envUnset ↔
      policy.allows name ∧ name ∈ trackedNames policy previous ∧ current[name]? = none := by
  unfold capturedSnapshot
  dsimp only
  rw [mem_keys_ofList_unit, List.mem_filter, Bool.and_eq_true, Bool.not_eq_true',
    Std.ExtTreeMap.contains_eq_isSome_getElem?, getElem_ofList_filter]
  constructor
  · rintro ⟨htracked, hallows, hnot⟩
    rw [if_pos hallows, Option.isSome_eq_false_iff, Option.isNone_iff_eq_none] at hnot
    exact ⟨hallows, htracked, hnot⟩
  · rintro ⟨hallows, htracked, hnot⟩
    refine ⟨htracked, hallows, ?_⟩
    rw [if_pos hallows, hnot]
    rfl

/-- Set and unset reproduce the environment, as far as the policy goes. -/
theorem capture_reproduces
    (h : EnvironmentSnapshot.capture policy previous current.toList = .ok s) (base : Variables)
    (name : String) :
    (s.applyTo base)[name]? =
      if policy.allows name ∧ (name ∈ current ∨ name ∈ trackedNames policy previous) then
        current[name]?
      else base[name]? := by
  obtain ⟨-, rfl⟩ := capture_eq_ok.mp h
  obtain ⟨hset, hother⟩ : _ ∧ (name ∉ _ → _) :=
    getElem_foldl_insert (capturedSnapshot policy previous current).envSet_sorted base
  rw [EnvironmentSnapshot.applyTo, getElem_foldl_erase]
  by_cases hunset : name ∈ (capturedSnapshot policy previous current).envUnset
  · obtain ⟨hallows, htracked, hnone⟩ := mem_captured_unset.mp hunset
    rw [if_pos hunset, if_pos ⟨hallows, .inr htracked⟩, hnone]
  rw [if_neg hunset]
  cases hcurrent : current[name]? with
  | some value =>
    have hmem : name ∈ current := by
      rw [Std.ExtTreeMap.mem_iff_isSome_getElem?, hcurrent]
      rfl
    by_cases hallows : policy.allows name = true
    · rw [if_pos ⟨hallows, .inl hmem⟩]
      exact hset value (mem_captured_set.mpr ⟨hallows, hcurrent⟩)
    · rw [if_neg fun hc => hallows hc.1]
      refine hother fun hkey => ?_
      obtain ⟨⟨_, value'⟩, hentry, rfl⟩ := List.mem_map.mp hkey
      exact hallows (mem_captured_set.mp hentry).1
  | none =>
    have habsent : name ∉ (capturedSnapshot policy previous current).envSet.map Prod.fst := by
      intro hkey
      obtain ⟨⟨_, value'⟩, hentry, rfl⟩ := List.mem_map.mp hkey
      cases hcurrent.symm.trans (mem_captured_set.mp hentry).2
    rw [hother habsent, if_neg]
    rintro ⟨hallows, hmem | htracked⟩
    · rw [Std.ExtTreeMap.mem_iff_isSome_getElem?, hcurrent] at hmem
      cases hmem
    · exact hunset (mem_captured_unset.mpr ⟨hallows, htracked, hcurrent⟩)

end capture

section example_

def langPolicy : EnvironmentPolicy where
  include_ := []
  maxVariables := 16
  maxBytes := 4096
  fingerprint := fingerprint [] 16 4096

def langEnvironment : Variables := {("LANG", "C"), ("SECRET", "s")}

theorem lang_captured : (@EnvironmentSnapshot.capture Json.serdeJson langPolicy none
    langEnvironment.toList).isOk = true := by
  decide +kernel

theorem lang_reproduced : ∃ s, @EnvironmentSnapshot.capture Json.serdeJson langPolicy none
      langEnvironment.toList = .ok s ∧
    (s.applyTo {("LANG", "en"), ("SECRET", "t")})["LANG"]? = some "C" := by
  cases hs : @EnvironmentSnapshot.capture Json.serdeJson langPolicy none langEnvironment.toList with
  | error e =>
    have hok := lang_captured
    rw [hs] at hok
    cases hok
  | ok s =>
    refine ⟨s, rfl, ?_⟩
    let := Json.serdeJson
    rw [capture_reproduces hs]
    decide +kernel

end example_

end PersistShell

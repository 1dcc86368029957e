import Mathlib.Algebra.BigOperators.Group.List.Basic
import Mathlib.Data.List.Dedup
import PersistShell.Core.Snapshot
import PersistShell.Core.Validity

/-! The captures of a shell one after the other. Each takes over the names of the one before, so
that the names that a shell has had stay in its snapshots. -/

namespace PersistShell

section chain

variable [SerdeJson]

/-- The captures of the environments, each with the snapshot of the one before. -/
def captureChain (policy : EnvironmentPolicy) (environments : List Variables) :
    Except PersistError (Option EnvironmentSnapshot) :=
  environments.foldlM
    (fun previous current => some <$> EnvironmentSnapshot.capture policy previous current.toList)
    none

end chain

/-- The allowed variables of an environment. -/
def allowedVariables (policy : EnvironmentPolicy) (current : Variables) : List (String × String) :=
  current.toList.filter fun entry => policy.allows entry.1

/-- The names that the rules or earlier environments know and the current one does not have. -/
def missingNames (policy : EnvironmentPolicy) (earlier : List Variables) (current : Variables) :
    List String :=
  ((EnvironmentPolicy.exactNames policy.include_ ++ earlier.flatMap Std.ExtTreeMap.keys).filter
    fun name => policy.allows name && !current.contains name).dedup

/-- There is room for the variables of an environment and for all the names that went missing. -/
def Room (policy : EnvironmentPolicy) (earlier : List Variables) (current : Variables) : Prop :=
  (allowedVariables policy current).length + (missingNames policy earlier current).length ≤
      policy.maxVariables ∧
    125 + Json.listSize ((allowedVariables policy current).map Json.entrySize) +
      Json.listSize ((missingNames policy earlier current).map Json.nameSize) +
      Json.statusSize .complete ≤ policy.maxBytes

theorem listSize_perm {a b : List Nat} (h : a.Perm b) : Json.listSize a = Json.listSize b := by
  rw [Json.listSize, Json.listSize, h.sum_eq, h.length_eq]

section captured

variable {policy : EnvironmentPolicy} {previous : Option EnvironmentSnapshot}
  {earlier : List Variables} {current : Variables}

/-- The last snapshot has the allowed names of all the environments so far. -/
def Remembers (policy : EnvironmentPolicy) (previous : Option EnvironmentSnapshot)
    (earlier : List Variables) : Prop :=
  ∀ name, policy.allows name → (name ∈ trackedNames policy previous ↔
    name ∈ EnvironmentPolicy.exactNames policy.include_ ∨ ∃ e ∈ earlier, name ∈ e)

theorem remembers_none : Remembers policy none [] := by
  intro name _
  rw [trackedNames, Option.elim_none, List.append_nil]
  exact ⟨.inl, fun h => h.elim id fun ⟨_, he, _⟩ => absurd he List.not_mem_nil⟩

theorem mem_captured_names (policy : EnvironmentPolicy) (previous : Option EnvironmentSnapshot)
    (current : Variables) {name : String} (hallows : policy.allows name) :
    name ∈ (capturedSnapshot policy previous current).names ↔
      name ∈ current ∨ name ∈ trackedNames policy previous := by
  rw [EnvironmentSnapshot.names, List.mem_append]
  have hcurrent : name ∈ current ↔ ∃ value, current[name]? = some value := by
    rw [Std.ExtTreeMap.mem_iff_isSome_getElem?, Option.isSome_iff_exists]
  constructor
  · rintro (hset | hunset)
    · obtain ⟨⟨_, value⟩, hentry, rfl⟩ := List.mem_map.mp hset
      exact .inl (hcurrent.mpr ⟨value, (mem_captured_set.mp hentry).2⟩)
    · exact .inr (mem_captured_unset.mp hunset).2.1
  · intro h
    cases hvalue : current[name]? with
    | some value => exact .inl (List.mem_map_of_mem (mem_captured_set.mpr ⟨hallows, hvalue⟩))
    | none =>
      refine .inr (mem_captured_unset.mpr ⟨hallows, h.resolve_left fun hmem => ?_, hvalue⟩)
      obtain ⟨value, hsome⟩ := hcurrent.mp hmem
      cases hvalue.symm.trans hsome

theorem Remembers.capture (h : Remembers policy previous earlier) (current : Variables) :
    Remembers policy (some (capturedSnapshot policy previous current)) (earlier ++ [current]) := by
  intro name hallows
  have hnames := mem_captured_names policy previous current hallows
  rw [trackedNames, Option.elim_some, List.mem_append, hnames, h name hallows]
  simp only [List.mem_append, List.mem_singleton]
  constructor
  · rintro (hexact | hmem | hexact | ⟨e, he, hmem⟩)
    · exact .inl hexact
    · exact .inr ⟨current, .inr rfl, hmem⟩
    · exact .inl hexact
    · exact .inr ⟨e, .inl he, hmem⟩
  · rintro (hexact | ⟨e, he | rfl, hmem⟩)
    · exact .inl hexact
    · exact .inr (.inr (.inr ⟨e, he, hmem⟩))
    · exact .inr (.inl hmem)

theorem captured_set_perm (policy : EnvironmentPolicy) (previous : Option EnvironmentSnapshot)
    (current : Variables) :
    (capturedSnapshot policy previous current).envSet.Perm (allowedVariables policy current) := by
  have hnodup : (capturedSnapshot policy previous current).envSet.Nodup :=
    List.Nodup.of_map _ ((capturedSnapshot policy previous current).envSet_sorted.imp
      fun h => ne_of_lt h)
  have hnodup' : (allowedVariables policy current).Nodup := by
    refine List.Nodup.filter _ (List.Nodup.of_map Prod.fst ?_)
    exact (sorted_toList current).imp fun h => ne_of_lt h
  refine (List.perm_ext_iff_of_nodup hnodup hnodup').mpr fun ⟨name, value⟩ => ?_
  rw [mem_captured_set, allowedVariables, List.mem_filter,
    Std.ExtTreeMap.mem_toList_iff_getElem?_eq_some]
  exact and_comm

theorem captured_unset_perm (h : Remembers policy previous earlier) (current : Variables) :
    (capturedSnapshot policy previous current).envUnset.Perm
      (missingNames policy earlier current) := by
  have hnodup : (capturedSnapshot policy previous current).envUnset.Nodup :=
    (capturedSnapshot policy previous current).envUnset_sorted.imp fun h => ne_of_lt h
  refine (List.perm_ext_iff_of_nodup hnodup (List.nodup_dedup _)).mpr fun name => ?_
  rw [mem_captured_unset, List.mem_dedup, List.mem_filter, Bool.and_eq_true, Bool.not_eq_true',
    Std.ExtTreeMap.contains_eq_isSome_getElem?, Option.isSome_eq_false_iff,
    Option.isNone_iff_eq_none, List.mem_append, List.mem_flatMap]
  simp only [Std.ExtTreeMap.mem_keys]
  constructor
  · rintro ⟨hallows, htracked, hnone⟩
    exact ⟨(h name hallows).mp htracked, hallows, hnone⟩
  · rintro ⟨htracked, hallows, hnone⟩
    exact ⟨hallows, (h name hallows).mpr htracked, hnone⟩

end captured

section room

variable [SerdeJson] [Json.Writes] {policy : EnvironmentPolicy}
  {previous : Option EnvironmentSnapshot} {earlier : List Variables} {current : Variables}

/-- What a capture asks for apart from room is the same with and without a snapshot before. -/
theorem captured_wellFormed (previous : Option EnvironmentSnapshot) {s : EnvironmentSnapshot}
    (halone : EnvironmentSnapshot.capture policy none current.toList = .ok s) :
    (capturedSnapshot policy previous current).WellFormed := by
  obtain ⟨hvalid, -⟩ := capture_eq_ok.mp halone
  obtain ⟨hform, -, -⟩ := EnvironmentSnapshot.validate_eq_ok.mp hvalid
  refine ⟨rfl, rfl, hform.fingerprint, ?_, ?_, ?_, fun h => by cases h⟩
  · rintro ⟨name, value⟩ hentry hmem
    cases (mem_captured_set.mp hentry).2.symm.trans (mem_captured_unset.mp hmem).2.2
  · rintro ⟨name, value⟩ hentry
    exact hform.set _ (mem_captured_set.mpr (mem_captured_set.mp hentry))
  · intro name hname
    have hallows := (mem_captured_unset.mp hname).1
    simp only [EnvironmentPolicy.allows, Bool.and_eq_true] at hallows
    unfold validateEntry
    rw [hallows.1.1]
    rfl

theorem capture_iff_room (h : Remembers policy previous earlier) {s : EnvironmentSnapshot}
    (halone : EnvironmentSnapshot.capture policy none current.toList = .ok s) :
    EnvironmentSnapshot.capture policy previous current.toList =
        .ok (capturedSnapshot policy previous current) ↔ Room policy earlier current := by
  have hform := captured_wellFormed previous halone
  have hset := captured_set_perm policy previous current
  have hunset := captured_unset_perm h current
  rw [capture_eq_ok, EnvironmentSnapshot.validate_eq_ok, hform.size, hset.length_eq,
    hunset.length_eq, listSize_perm (hset.map Json.entrySize),
    listSize_perm (hunset.map Json.nameSize)]
  exact ⟨fun h => h.1.2, fun h => ⟨⟨hform, h⟩, rfl⟩⟩

/-- The captures go on as long as there is room, from any snapshot on. -/
theorem foldlM_capture_iff {environments : List Variables} (h : Remembers policy previous earlier)
    (halone : ∀ current ∈ environments,
      ∃ s, EnvironmentSnapshot.capture policy none current.toList = .ok s) :
    (∃ last, environments.foldlM (fun previous current =>
        some <$> EnvironmentSnapshot.capture policy previous current.toList) previous = .ok last) ↔
      ∀ before current later, environments = before ++ current :: later →
        Room policy (earlier ++ before) current := by
  induction environments generalizing previous earlier with
  | nil =>
    refine ⟨fun _ before current later heq => ?_, fun _ => ⟨previous, rfl⟩⟩
    cases before <;> cases heq
  | cons first environments ih =>
    obtain ⟨s, hs⟩ := halone first List.mem_cons_self
    have hroom := capture_iff_room h hs
    have hlater := ih (h.capture first) fun e he => halone e (List.mem_cons_of_mem _ he)
    rw [List.foldlM_cons]
    constructor
    · rintro ⟨last, hlast⟩
      obtain ⟨found, hfound, hlast⟩ := bind_eq_ok.mp hlast
      obtain ⟨t, ht, hfound⟩ : ∃ t, EnvironmentSnapshot.capture policy previous first.toList =
          .ok t ∧ found = some t := by
        revert hfound
        cases EnvironmentSnapshot.capture policy previous first.toList with
        | error e => exact fun hfound => by cases hfound
        | ok t => exact fun hfound => by cases hfound; exact ⟨t, rfl, rfl⟩
      subst hfound
      obtain ⟨-, rfl⟩ := capture_eq_ok.mp ht
      intro before current later heq
      cases before with
      | nil =>
        cases heq
        rw [List.append_nil]
        exact hroom.mp ht
      | cons e before =>
        cases heq
        have := hlater.mp ⟨last, hlast⟩ before current later rfl
        rw [List.append_assoc, List.singleton_append] at this
        exact this
    · intro hall
      have hfirst := hall [] first environments rfl
      rw [List.append_nil] at hfirst
      obtain ⟨last, hlast⟩ := hlater.mpr fun before current later heq => by
        have := hall (first :: before) current later (by rw [heq, List.cons_append])
        rw [List.append_assoc, List.singleton_append]
        exact this
      refine ⟨last, bind_eq_ok.mpr ⟨some (capturedSnapshot policy previous first), ?_, hlast⟩⟩
      rw [hroom.mpr hfirst]
      rfl

/-- The captures of a shell succeed as long as there is room for all the names it has had. -/
theorem captureChain_iff (policy : EnvironmentPolicy) (environments : List Variables)
    (halone : ∀ current ∈ environments,
      ∃ s, EnvironmentSnapshot.capture policy none current.toList = .ok s) :
    (∃ last, captureChain policy environments = .ok last) ↔
      ∀ earlier current later, environments = earlier ++ current :: later →
        Room policy earlier current := by
  rw [captureChain, foldlM_capture_iff remembers_none halone]
  simp only [List.nil_append]

end room

section worn

/-- Two variables are the limit, and `LANG` is one of those that are looked for. -/
def twoVariables : EnvironmentPolicy where
  include_ := []
  maxVariables := 2
  maxBytes := 4096
  fingerprint := fingerprint [] 2 4096

def changing : List Variables := [{("LC_A", "C")}, {("LC_B", "C")}]

theorem changing_alone : ∀ current ∈ changing, ∃ s,
    @EnvironmentSnapshot.capture Json.serdeJson twoVariables none current.toList = .ok s := by
  intro current hcurrent
  have hok : (changing.all fun current => (@EnvironmentSnapshot.capture Json.serdeJson twoVariables
      none current.toList).isOk) = true := by
    decide +kernel
  have := List.all_eq_true.mp hok current hcurrent
  cases hs : @EnvironmentSnapshot.capture Json.serdeJson twoVariables none current.toList with
  | error e =>
    rw [hs] at this
    cases this
  | ok s => exact ⟨s, rfl⟩

theorem twoVariables_new : EnvironmentPolicy.new [] 2 4096 = .ok twoVariables := by
  have hnodup : (([] : List String).mergeSort fun a b => a ≤ b) = [] := List.mergeSort_nil
  unfold EnvironmentPolicy.new
  rw [hnodup]
  rfl

/-- The second environment alone can be captured, but not after the first. -/
theorem capture_wears_out : ¬ ∀ (policy : EnvironmentPolicy) (environments : List Variables),
    EnvironmentPolicy.new [] 2 4096 = .ok policy →
    (∀ current ∈ environments, ∃ s,
      @EnvironmentSnapshot.capture Json.serdeJson policy none current.toList = .ok s) →
    ∃ last, @captureChain Json.serdeJson policy environments = .ok last := by
  intro hclaim
  obtain ⟨last, hlast⟩ := hclaim twoVariables changing twoVariables_new changing_alone
  have hfails : (@captureChain Json.serdeJson twoVariables changing).isOk = false := by
    decide +kernel
  rw [hlast] at hfails
  cases hfails

/-- The first of the environments leaves room for itself. -/
theorem changing_room : Room twoVariables [] {("LC_A", "C")} := by
  let _ := Json.serdeJson
  have _ : Json.Writes := ⟨fun _ => rfl⟩
  have hchain : (captureChain twoVariables [{("LC_A", "C")}]).isOk = true := by decide +kernel
  have halone : ∀ current ∈ ([{("LC_A", "C")}] : List Variables), ∃ s,
      EnvironmentSnapshot.capture twoVariables none current.toList = .ok s := fun current hcurrent =>
    changing_alone current (List.mem_cons.mpr (.inl (List.mem_singleton.mp hcurrent)))
  cases hs : captureChain twoVariables [{("LC_A", "C")}] with
  | error e =>
    rw [hs] at hchain
    cases hchain
  | ok last => exact (captureChain_iff twoVariables _ halone).mp ⟨last, hs⟩ [] _ [] rfl

end worn

end PersistShell

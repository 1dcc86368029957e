import PersistShell.Dashboard.Procfs

/-! What a collection of the processes finds, without the order in which they come: a process
belongs to the session whose root is the nearest one above it, and the counters of a session are
the sums over its processes. -/

namespace PersistShell
namespace Dashboard

section specification

variable (table : UInt32 → Option ProcessRecord) (roots : List SessionRoot)

/-- The parent of a process that can be read; 0 is the pid of no process. -/
def parentOf (pid : UInt32) : Option UInt32 :=
  if pid = 0 then none else (table pid).map (·.process.ppid)

/-- The session that a process is the root of: the first one that names it. -/
def rootOf (pid : UInt32) : Option Nat :=
  if pid = 0 then none else roots.findIdx? (·.rootPid = pid)

/-- The process can be read, and the nearest root, of itself or above it, is that of a session. -/
def Belongs (pid : UInt32) (index : Nat) : Prop :=
  (table pid).isSome ∧ Chains.Nearest (parentOf table) (rootOf roots) pid index

open Classical in
noncomputable def processesOf (pids : Finset UInt32) (index : Nat) : Finset UInt32 :=
  pids.filter (Belongs table roots · index)

def counterOf (field : RawCounters → UInt64) (pid : UInt32) : Nat :=
  ((table pid).map fun record => (field record.process.counters).toNat).getD 0

/-- A sum, which stops at the largest `u64`. -/
noncomputable def sumOf (processes : Finset UInt32) (field : RawCounters → UInt64) : UInt64 :=
  UInt64.ofNat (min (∑ pid ∈ processes, counterOf table field pid) (2 ^ 64 - 1))

noncomputable def totalCounters (processes : Finset UInt32) : RawCounters where
  userTicks := sumOf table processes (·.userTicks)
  systemTicks := sumOf table processes (·.systemTicks)
  rssKib := sumOf table processes (·.rssKib)
  readBytes := sumOf table processes (·.readBytes)
  writeBytes := sumOf table processes (·.writeBytes)
  processCount := UInt32.ofNat (min processes.card (2 ^ 32 - 1))

def sessionStatus (globalPartial : Bool) (processes : Finset UInt32)
    (root : SessionRoot) (index : Nat) : CollectionStatus :=
  if rootOf roots root.rootPid ≠ some index ∨ table root.rootPid = none then .unavailable
  else if globalPartial ∨ ∃ pid ∈ processes, (table pid).any (!·.ioComplete) then .partial_
  else .complete

variable {table roots} in
theorem mem_processesOf {pids : Finset UInt32} {index : Nat} {pid : UInt32} :
    pid ∈ processesOf table roots pids index ↔ pid ∈ pids ∧ Belongs table roots pid index := by
  classical
  unfold processesOf
  exact Finset.mem_filter

end specification

section attributed

variable (source : ProcSource) (pageSize : UInt64) (pids : Finset UInt32)

/-- The processes that are listed and can be read. -/
def processTable (pid : UInt32) : Option ProcessRecord :=
  if pid ∈ pids then readProcess source pageSize pid else none

/-- What is found of the processes in a set. -/
noncomputable def attributed (daemonPid : UInt32) (roots : List SessionRoot) (truncated : Bool) :
    ProcSnapshot :=
  let table := processTable source pageSize pids
  let globalPartial := decide (∃ pid ∈ pids, readProcess source pageSize pid = none) || truncated
  procSnapshot (table daemonPid) globalPartial truncated (roots.zipIdx.map fun (root, index) =>
    let processes := processesOf table roots pids index
    rootSample root (totalCounters table processes)
      (sessionStatus table roots globalPartial processes root index))

end attributed

section records

variable {source : ProcSource} {pageSize : UInt64} {pid : UInt32} {record : ProcessRecord}

theorem pid_of_readProcess (h : readProcess source pageSize pid = some record) :
    record.process.pid = pid := by
  obtain ⟨stat, -, h⟩ := Option.bind_eq_some_iff.mp h
  obtain ⟨process, hprocess, h⟩ := Option.bind_eq_some_iff.mp h
  have hpid : process.pid = pid := of_decide_eq_true (Option.filter_eq_some_iff.mp hprocess).2
  rw [← Option.some.inj h, ← hpid]
  split <;> rfl

theorem readRecords_append (pids : List UInt32) (pid : UInt32) :
    readRecords source pageSize (pids ++ [pid]) =
      match readProcess source pageSize pid with
      | none => ((readRecords source pageSize pids).1, true)
      | some record => ((readRecords source pageSize pids).1.insert pid record,
          (readRecords source pageSize pids).2) := by
  rw [readRecords, List.foldl_append]
  rfl

theorem lookup_readRecords (pids : List UInt32) (pid : UInt32) :
    (readRecords source pageSize pids).1.lookup pid =
      processTable source pageSize pids.toFinset pid := by
  induction pids using List.reverseRecOn with
  | nil => rfl
  | append_singleton pids last ih =>
    have hsame : pid ≠ last → processTable source pageSize (pids ++ [last]).toFinset pid =
        processTable source pageSize pids.toFinset pid := by
      intro hne
      simp only [processTable, List.mem_toFinset, List.mem_append, List.mem_singleton, hne, or_false]
    have hlast : processTable source pageSize (pids ++ [last]).toFinset last =
        readProcess source pageSize last :=
      if_pos (List.mem_toFinset.mpr (List.mem_append_right _ (List.mem_singleton_self _)))
    rw [readRecords_append]
    by_cases hne : pid = last
    · subst hne
      rw [hlast]
      cases hread : readProcess source pageSize pid with
      | none =>
        rw [ih, processTable, hread, ite_self]
      | some record => exact AList.lookup_insert _
    · rw [hsame hne, ← ih]
      cases readProcess source pageSize last with
      | none => rfl
      | some record => exact AList.lookup_insert_ne hne

theorem statIncomplete_readRecords (pids : List UInt32) :
    (readRecords source pageSize pids).2 = true ↔
      ∃ pid ∈ pids, readProcess source pageSize pid = none := by
  induction pids using List.reverseRecOn with
  | nil => simp [readRecords]
  | append_singleton pids last ih =>
    rw [readRecords_append]
    cases hread : readProcess source pageSize last with
    | none =>
      exact ⟨fun _ => ⟨last, List.mem_append_right _ (List.mem_singleton_self _), hread⟩,
        fun _ => rfl⟩
    | some record =>
      refine ih.trans ⟨fun ⟨pid, hpid, hnone⟩ => ⟨pid, List.mem_append_left _ hpid, hnone⟩, ?_⟩
      rintro ⟨pid, hpid, hnone⟩
      rcases List.mem_append.mp hpid with hpid | hpid
      · exact ⟨pid, hpid, hnone⟩
      · rw [List.mem_singleton.mp hpid, hread] at hnone
        cases hnone

end records

section owners

variable {records : Records} {owners : Owners} {table : UInt32 → Option ProcessRecord}
  {roots : List SessionRoot} {pid : UInt32} {index : Nat}

theorem rootOwners_append (roots : List SessionRoot) (root : SessionRoot) :
    rootOwners (roots ++ [root]) =
      if root.rootPid = 0 ∨ root.rootPid ∈ (rootOwners roots).1 then
        ((rootOwners roots).1, roots.length :: (rootOwners roots).2)
      else ((rootOwners roots).1.insert root.rootPid roots.length, (rootOwners roots).2) := by
  rw [rootOwners, List.zipIdx_append, List.foldl_append, Nat.zero_add]
  rfl

/-- A pid that is named keeps its session, and one that is named first gets it. -/
theorem rootOf_append (roots : List SessionRoot) (root : SessionRoot) (pid : UInt32) :
    rootOf (roots ++ [root]) pid =
      if rootOf roots pid = none ∧ pid ≠ 0 ∧ root.rootPid = pid then some roots.length
      else rootOf roots pid := by
  unfold rootOf
  by_cases hzero : pid = 0
  · simp only [hzero, if_true, ne_eq, not_true_eq_false, false_and, and_false, if_false]
  · simp only [hzero, if_false, ne_eq, not_false_eq_true, true_and, List.findIdx?_append,
      List.findIdx?_singleton]
    cases roots.findIdx? fun root => root.rootPid = pid with
    | some i => simp
    | none =>
      by_cases hpid : root.rootPid = pid
      · simp [hpid]
      · simp [hpid]

theorem lookup_rootOwners (roots : List SessionRoot) (pid : UInt32) :
    (rootOwners roots).1.lookup pid = rootOf roots pid := by
  induction roots using List.reverseRecOn with
  | nil =>
    unfold rootOf
    split <;> rfl
  | append_singleton roots root ih =>
    have hmem : pid ∈ (rootOwners roots).1 ↔ rootOf roots pid ≠ none := by
      rw [← AList.lookup_isSome, ih, Option.isSome_iff_ne_none]
    rw [rootOwners_append, rootOf_append]
    by_cases hpid : root.rootPid = pid
    · subst hpid
      by_cases hzero : root.rootPid = 0
      · rw [if_pos (Or.inl hzero), if_neg fun h => h.2.1 hzero]
        exact ih
      by_cases hnamed : rootOf roots root.rootPid = none
      · have hnew : ¬ (root.rootPid = 0 ∨ root.rootPid ∈ (rootOwners roots).1) :=
          not_or.mpr ⟨hzero, fun h => hmem.mp h hnamed⟩
        rw [if_neg hnew, if_pos ⟨hnamed, hzero, rfl⟩]
        exact AList.lookup_insert _
      · rw [if_pos (Or.inr (hmem.mpr hnamed)), if_neg fun h => hnamed h.1]
        exact ih
    · have hkept : ¬ (rootOf roots pid = none ∧ pid ≠ 0 ∧ root.rootPid = pid) :=
        fun h => hpid h.2.2
      rw [if_neg hkept]
      split
      · exact ih
      · exact (AList.lookup_insert_ne (Ne.symm hpid)).trans ih

theorem rootOf_lt {index : Nat} (h : rootOf roots pid = some index) : index < roots.length := by
  unfold rootOf at h
  split at h
  · cases h
  · exact (List.findIdx?_eq_some_iff_findIdx_eq.mp h).1

/-- A root is a duplicate where its pid is another session's, or no process's. -/
theorem mem_duplicateRoots : index ∈ (rootOwners roots).2 ↔
    ∃ root, roots[index]? = some root ∧ rootOf roots root.rootPid ≠ some index := by
  induction roots using List.reverseRecOn with
  | nil =>
    refine ⟨fun h => (by cases h), ?_⟩
    rintro ⟨root, hroot, -⟩
    cases hroot
  | append_singleton roots root ih =>
    have hmem : root.rootPid ∈ (rootOwners roots).1 ↔ rootOf roots root.rootPid ≠ none := by
      rw [← AList.lookup_isSome, lookup_rootOwners, Option.isSome_iff_ne_none]
    have hlast : rootOf (roots ++ [root]) root.rootPid = some roots.length ↔
        rootOf roots root.rootPid = none ∧ root.rootPid ≠ 0 := by
      rw [rootOf_append]
      split
      · rename_i h
        exact ⟨fun _ => ⟨h.1, h.2.1⟩, fun _ => rfl⟩
      · rename_i h
        refine ⟨fun hsome => absurd (rootOf_lt hsome) (Nat.lt_irrefl _), fun hnone => ?_⟩
        exact absurd ⟨hnone.1, hnone.2, rfl⟩ h
    have hold : ∀ i other, roots[i]? = some other →
        (rootOf (roots ++ [root]) other.rootPid ≠ some i ↔ rootOf roots other.rootPid ≠ some i) := by
      intro i other hother
      have hlt : i < roots.length := (List.getElem?_eq_some_iff.mp hother).1
      rw [rootOf_append]
      split
      · rename_i h
        rw [h.1]
        refine ⟨fun _ hsome => (by cases hsome), fun _ hsome => ?_⟩
        exact absurd (Option.some.inj hsome) (Nat.ne_of_gt hlt)
      · exact Iff.rfl
    have hget : ∀ other, (roots ++ [root])[index]? = some other ↔
        roots[index]? = some other ∨ index = roots.length ∧ other = root := by
      intro other
      rw [List.getElem?_append]
      split
      · rename_i hlt
        exact ⟨Or.inl, fun h => h.resolve_right fun h => absurd h.1 (Nat.ne_of_lt hlt)⟩
      · rename_i hge
        rw [List.getElem?_singleton, List.getElem?_eq_none (Nat.le_of_not_lt hge)]
        split
        · rename_i hzero
          refine ⟨fun h => Or.inr ⟨by omega, (Option.some.inj h).symm⟩, ?_⟩
          rintro (h | ⟨-, rfl⟩)
          · cases h
          · rfl
        · rename_i hzero
          refine ⟨fun h => (by cases h), ?_⟩
          rintro (h | ⟨h, -⟩)
          · cases h
          · omega
    have hgoal : (∃ other, (roots ++ [root])[index]? = some other ∧
        rootOf (roots ++ [root]) other.rootPid ≠ some index) ↔ index ∈ (rootOwners roots).2 ∨
          index = roots.length ∧ (root.rootPid = 0 ∨ root.rootPid ∈ (rootOwners roots).1) := by
      rw [ih]
      constructor
      · rintro ⟨other, hother, hne⟩
        rcases (hget other).mp hother with h | ⟨rfl, rfl⟩
        · exact Or.inl ⟨other, h, (hold index other h).mp hne⟩
        · rw [hmem]
          rw [Ne, hlast, not_and_or] at hne
          refine Or.inr ⟨rfl, hne.symm.imp_left not_not.mp⟩
      · rintro (⟨other, hother, hne⟩ | ⟨rfl, hnamed⟩)
        · exact ⟨other, (hget other).mpr (Or.inl hother), (hold index other hother).mpr hne⟩
        · refine ⟨root, (hget root).mpr (Or.inr ⟨rfl, rfl⟩), fun hsome => ?_⟩
          obtain ⟨hnone, hzero⟩ := hlast.mp hsome
          exact hnamed.elim hzero fun h => hmem.mp h hnone
    rw [hgoal, rootOwners_append]
    split
    · rename_i hnamed
      rw [List.mem_cons, or_comm]
      simp only [hnamed, and_true]
    · rename_i hnew
      simp only [hnew, and_false, or_false]

/-- The search finds the nearest root. -/
theorem findOwner_eq_some (hrecords : ∀ pid, records.lookup pid = table pid)
    (howners : ∀ pid, owners.lookup pid = rootOf roots pid) {visited : List UInt32}
    (htrail : Chains.Trail (parentOf table) (rootOf roots) visited pid) :
    findOwner records owners visited pid = some index ↔
      Chains.Nearest (parentOf table) (rootOf roots) pid index := by
  fun_induction findOwner records owners visited pid with
  | case1 visited pid hstop =>
    refine ⟨fun h => (by cases h), fun h => ?_⟩
    rcases hstop with rfl | hseen
    · rcases Chains.nearest_cases h with h | ⟨-, c, h, -⟩ <;> cases h
    · exact absurd h (htrail.circle hseen)
  | case2 visited pid hgo owner howner =>
    rw [howners] at howner
    have hhere : Chains.Nearest (parentOf table) (rootOf roots) pid owner :=
      Chains.nearest_here howner
    exact ⟨fun h => Option.some.inj h ▸ hhere, fun h => congrArg some (Chains.nearest_unique hhere h)⟩
  | case3 visited pid hgo hnone hmissing =>
    rw [howners] at hnone
    rw [hrecords] at hmissing
    refine ⟨fun h => (by cases h), fun h => ?_⟩
    rcases Chains.nearest_cases h with h | ⟨-, c, h, -⟩
    · rw [hnone] at h
      cases h
    · unfold parentOf at h
      rw [hmissing, Option.map_none, ite_self] at h
      cases h
  | case4 visited record hgo hnone hrecord =>
    rw [howners] at hnone
    rw [hrecords] at hrecord
    have hself : parentOf table record.process.ppid = some record.process.ppid := by
      rw [parentOf, if_neg fun h => hgo (Or.inl h), hrecord, Option.map_some]
    -- a process that is its own parent is a circle of one
    have hstep := htrail.step hnone hself
    exact ⟨fun h => (by cases h), fun h => absurd h (hstep.circle List.mem_cons_self)⟩
  | case5 visited pid hgo hnone record hrecord hother ih =>
    rw [howners] at hnone
    rw [hrecords] at hrecord
    have hparent : parentOf table pid = some record.process.ppid := by
      rw [parentOf, if_neg fun h => hgo (Or.inl h), hrecord, Option.map_some]
    rw [ih (htrail.step hnone hparent)]
    refine ⟨Chains.nearest_next hnone hparent, fun h => ?_⟩
    rcases Chains.nearest_cases h with h | ⟨-, c, h, hrest⟩
    · rw [hnone] at h
      cases h
    · rw [← Option.some.inj (hparent.symm.trans h)] at hrest
      exact hrest

end owners

section totals

/-- What the counters that were added come to. -/
structure Totals (values : List RawCounters) (total : RawCounters) : Prop where
  userTicks : total.userTicks.toNat = min (values.map (·.userTicks.toNat)).sum (2 ^ 64 - 1)
  systemTicks : total.systemTicks.toNat = min (values.map (·.systemTicks.toNat)).sum (2 ^ 64 - 1)
  rssKib : total.rssKib.toNat = min (values.map (·.rssKib.toNat)).sum (2 ^ 64 - 1)
  readBytes : total.readBytes.toNat = min (values.map (·.readBytes.toNat)).sum (2 ^ 64 - 1)
  writeBytes : total.writeBytes.toNat = min (values.map (·.writeBytes.toNat)).sum (2 ^ 64 - 1)
  processCount : total.processCount.toNat = min values.length (2 ^ 32 - 1)

variable {values : List RawCounters} {total : RawCounters}

theorem toNat_saturatingAdd (a b : UInt64) :
    (saturatingAdd64 a b).toNat = min (a.toNat + b.toNat) (2 ^ 64 - 1) :=
  UInt64.toNat_ofNat_of_lt' (Nat.lt_of_le_of_lt (Nat.min_le_right _ _) (by decide))

theorem Totals.nil : Totals [] {} := ⟨rfl, rfl, rfl, rfl, rfl, rfl⟩

theorem Totals.add (h : Totals values total) (value : RawCounters) :
    Totals (values ++ [value]) (addCounters total value) where
  userTicks := (toNat_saturatingAdd _ _).trans (Summary.saturating_append h.userTicks)
  systemTicks := (toNat_saturatingAdd _ _).trans (Summary.saturating_append h.systemTicks)
  rssKib := (toNat_saturatingAdd _ _).trans (Summary.saturating_append h.rssKib)
  readBytes := (toNat_saturatingAdd _ _).trans (Summary.saturating_append h.readBytes)
  writeBytes := (toNat_saturatingAdd _ _).trans (Summary.saturating_append h.writeBytes)
  processCount := by
    have hless : min (total.processCount.toNat + 1) (2 ^ 32 - 1) < 2 ^ 32 :=
      Nat.lt_of_le_of_lt (Nat.min_le_right _ _) (by decide)
    have hcount := h.processCount
    rw [addCounters, UInt32.toNat_ofNat_of_lt' hless, List.length_append, List.length_singleton]
    omega

theorem totals_foldl (values : List RawCounters) : Totals values (values.foldl addCounters {}) := by
  induction values using List.reverseRecOn with
  | nil => exact .nil
  | append_singleton values value ih =>
    rw [List.foldl_append]
    exact ih.add value

variable {table : UInt32 → Option ProcessRecord} {processes : Finset UInt32}
  {found : List ProcessRecord}

/-- The records of some processes, each of them once. -/
structure Lists (table : UInt32 → Option ProcessRecord) (processes : Finset UInt32)
    (found : List ProcessRecord) : Prop where
  once : (found.map (·.process.pid)).Nodup
  all : ∀ pid, pid ∈ found.map (·.process.pid) ↔ pid ∈ processes
  read : ∀ record ∈ found, table record.process.pid = some record

theorem Lists.toFinset (h : Lists table processes found) :
    (found.map (·.process.pid)).toFinset = processes :=
  Finset.ext fun pid => List.mem_toFinset.trans (h.all pid)

theorem Lists.sumOf (h : Lists table processes found) (field : RawCounters → UInt64) :
    (sumOf table processes field).toNat =
      min (((found.map (·.process.counters)).map (field · |>.toNat)).sum) (2 ^ 64 - 1) := by
  have hsum : ∑ pid ∈ processes, counterOf table field pid =
      ((found.map (·.process.counters)).map (field · |>.toNat)).sum := by
    rw [← h.toFinset, List.sum_toFinset _ h.once, List.map_map, List.map_map]
    refine congrArg List.sum (List.map_congr_left fun record hrecord => ?_)
    rw [Function.comp_apply, counterOf, h.read record hrecord]
    rfl
  rw [Dashboard.sumOf, hsum]
  exact UInt64.toNat_ofNat_of_lt' (Nat.lt_of_le_of_lt (Nat.min_le_right _ _) (by decide))

/-- In whatever order the records come, the counters come to the same. -/
theorem Lists.foldl_addCounters (h : Lists table processes found) :
    (found.map (·.process.counters)).foldl addCounters {} = totalCounters table processes := by
  have htotal := totals_foldl (found.map (·.process.counters))
  have hcount : ((found.map (·.process.counters)).foldl addCounters {}).processCount =
      UInt32.ofNat (min processes.card (2 ^ 32 - 1)) := by
    have hcard : processes.card = (found.map (·.process.counters)).length := by
      rw [← h.toFinset, List.toFinset_card_of_nodup h.once, List.length_map, List.length_map]
    have hless : min processes.card (2 ^ 32 - 1) < 2 ^ 32 :=
      Nat.lt_of_le_of_lt (Nat.min_le_right _ _) (by decide)
    rw [← UInt32.toNat_inj, htotal.processCount, UInt32.toNat_ofNat_of_lt' hless, hcard]
  have hfield : ∀ field : RawCounters → UInt64, ∀ value : UInt64, value.toNat =
      min (((found.map (·.process.counters)).map (field · |>.toNat)).sum) (2 ^ 64 - 1) →
        value = Dashboard.sumOf table processes field := fun field value hvalue =>
    UInt64.toNat_inj.mp (hvalue.trans (h.sumOf field).symm)
  rw [totalCounters, ← hfield _ _ htotal.userTicks, ← hfield _ _ htotal.systemTicks,
    ← hfield _ _ htotal.rssKib, ← hfield _ _ htotal.readBytes, ← hfield _ _ htotal.writeBytes,
    ← hcount]

end totals

section loop

variable {records : Records} {owners : Owners} {aggregates : List RawCounters}
  {statuses : List CollectionStatus}

/-- The records that are found to be a session's. -/
def recordsOf (records : Records) (owners : Owners) (found : List ProcessRecord) (index : Nat) :
    List ProcessRecord :=
  found.filter fun record => findOwner records owners [] record.process.pid = some index

theorem recordsOf_append (found : List ProcessRecord) (record : ProcessRecord) (index : Nat) :
    recordsOf records owners (found ++ [record]) index =
      recordsOf records owners found index ++
        if findOwner records owners [] record.process.pid = some index then [record] else [] := by
  rw [recordsOf, List.filter_append, List.filter_singleton, ← recordsOf]
  by_cases h : findOwner records owners [] record.process.pid = some index
  · rw [if_pos h, decide_eq_true h]
    rfl
  · rw [if_neg h, decide_eq_false h]
    rfl

/-- Each session has what its records add to it, and is partial where one of them is. -/
theorem foldl_attributeRecord (found : List ProcessRecord)
    (hopen : ∀ record ∈ found, ∀ index, findOwner records owners [] record.process.pid =
      some index → statuses[index]? ≠ some .unavailable) (i : Nat) :
    (found.foldl (attributeRecord records owners) (aggregates, statuses)).1[i]? =
        aggregates[i]?.map (fun total =>
          ((recordsOf records owners found i).map (·.process.counters)).foldl addCounters total) ∧
      (found.foldl (attributeRecord records owners) (aggregates, statuses)).2[i]? =
        statuses[i]?.map fun status =>
          if (recordsOf records owners found i).any (!·.ioComplete) then .partial_ else status := by
  induction found using List.reverseRecOn generalizing i with
  | nil => exact ⟨(Option.map_id_apply ..).symm, (Option.map_id_apply ..).symm⟩
  | append_singleton found record ih =>
    have ih := ih fun r hr => hopen r (List.mem_append_left _ hr)
    rw [List.foldl_append, List.foldl_cons, List.foldl_nil]
    generalize hstate : found.foldl (attributeRecord records owners) (aggregates, statuses) = state
      at ih ⊢
    cases howner : findOwner records owners [] record.process.pid with
    | none =>
      have hsame : recordsOf records owners (found ++ [record]) i =
          recordsOf records owners found i := by
        rw [recordsOf_append, howner, if_neg (by simp), List.append_nil]
      rw [attributeRecord, howner, hsame]
      exact ih i
    | some owner =>
      have hopened : state.2[owner]? ≠ some .unavailable := by
        rw [(ih owner).2]
        intro hsome
        obtain ⟨status, hstatus, hif⟩ := Option.map_eq_some_iff.mp hsome
        split at hif
        · cases hif
        · rw [hif] at hstatus
          exact hopen record (List.mem_append_right _ (List.mem_singleton_self _)) owner howner hstatus
      rw [attributeRecord, howner]
      dsimp only
      rw [if_neg hopened, recordsOf_append, howner]
      by_cases hi : owner = i
      · subst hi
        rw [if_pos rfl, List.map_append, List.any_append]
        refine ⟨?_, ?_⟩
        · rw [List.getElem?_modify_eq, (ih owner).1, Option.map_eq_map, Option.map_map]
          refine congrArg (aggregates[owner]?.map ·) (funext fun total => ?_)
          rw [List.foldl_append]
          rfl
        · cases hio : record.ioComplete with
          | true =>
            rw [if_pos rfl, (ih owner).2]
            simp [hio]
          | false =>
            rw [if_neg Bool.false_ne_true, List.getElem?_set_self', (ih owner).2]
            simp [hio]
            rfl
      · rw [if_neg fun h => hi (Option.some.inj h), List.append_nil]
        refine ⟨?_, ?_⟩
        · rw [List.getElem?_modify_ne _ _ hi]
          exact (ih i).1
        · split
          · exact (ih i).2
          · rw [List.getElem?_set_ne hi]
            exact (ih i).2

end loop

section collect

variable {source : ProcSource} {pageSize : UInt64} {roots : List SessionRoot}

theorem getElem?_openStatuses (duplicates : List Nat) (n i : Nat) :
    (duplicates.foldl (·.set · .unavailable) (List.replicate n CollectionStatus.complete))[i]? =
      if i < n then some (if i ∈ duplicates then .unavailable else .complete) else none := by
  have hkeep : ∀ statuses : List CollectionStatus, (duplicates.foldl (·.set · .unavailable)
      statuses)[i]? = statuses[i]?.map fun status =>
        if i ∈ duplicates then .unavailable else status := by
    induction duplicates with
    | nil => exact fun statuses => (Option.map_id_apply ..).symm
    | cons d duplicates ih =>
      intro statuses
      rw [List.foldl_cons, ih]
      by_cases hd : d = i
      · rw [hd, List.getElem?_set_self']
        cases statuses[i]? with
        | none => rfl
        | some status => simp
      · rw [List.getElem?_set_ne hd]
        simp only [List.mem_cons, Ne.symm hd, false_or]
  rw [hkeep, List.getElem?_replicate]
  by_cases hi : i < n
  · rw [if_pos hi, if_pos hi, Option.map_some]
  · rw [if_neg hi, if_neg hi, Option.map_none]

theorem pid_of_mem_entries {pids : List UInt32} {entry : Sigma fun _ : UInt32 => ProcessRecord}
    (h : entry ∈ (readRecords source pageSize pids).1.entries) :
    processTable source pageSize pids.toFinset entry.1 = some entry.2 ∧
      entry.2.process.pid = entry.1 := by
  have hlookup := AList.mem_lookup_iff.mpr h
  rw [Option.mem_def, lookup_readRecords] at hlookup
  refine ⟨hlookup, ?_⟩
  unfold processTable at hlookup
  split at hlookup
  · exact pid_of_readProcess hlookup
  · cases hlookup

/-- The records that are found to be a session's are those of its processes. -/
theorem lists_recordsOf (order : HashOrder) (pids : List UInt32) (index : Nat) :
    Lists (processTable source pageSize pids.toFinset)
      (processesOf (processTable source pageSize pids.toFinset) roots pids.toFinset index)
      (recordsOf (readRecords source pageSize pids).1 (rootOwners roots).1
        (order.run ((readRecords source pageSize pids).1.entries.map Sigma.snd)) index) := by
  generalize hrecords : (readRecords source pageSize pids).1 = records
  generalize htable : processTable source pageSize pids.toFinset = table
  have hentry : ∀ entry ∈ records.entries, table entry.1 = some entry.2 ∧
      entry.2.process.pid = entry.1 := by
    intro entry h
    rw [← hrecords] at h
    rw [← htable]
    exact pid_of_mem_entries h
  have hlookup : ∀ pid, records.lookup pid = table pid := by
    intro pid
    rw [← hrecords, ← htable]
    exact lookup_readRecords pids pid
  have hperm := order.perm (records.entries.map Sigma.snd)
  have hread : ∀ record ∈ order.run (records.entries.map Sigma.snd),
      table record.process.pid = some record := by
    intro record hrecord
    obtain ⟨entry, h, rfl⟩ := List.mem_map.mp (hperm.subset hrecord)
    rw [(hentry entry h).2]
    exact (hentry entry h).1
  refine ⟨?_, fun pid => ?_, fun record hrecord => hread record (List.mem_filter.mp hrecord).1⟩
  · have hkeys : (records.entries.map Sigma.snd).map (·.process.pid) = records.keys := by
      rw [List.map_map, AList.keys, List.keys]
      exact List.map_congr_left fun entry h => (hentry entry h).2
    have hnodup : ((order.run (records.entries.map Sigma.snd)).map (·.process.pid)).Nodup := by
      rw [(hperm.map _).nodup_iff, hkeys]
      exact records.nodupKeys
    exact hnodup.sublist (List.filter_sublist.map _)
  · have hbelongs : ∀ record : ProcessRecord, findOwner records (rootOwners roots).1 [] record.process.pid =
        some index ↔ Chains.Nearest (parentOf table) (rootOf roots) record.process.pid index :=
      fun record => findOwner_eq_some hlookup (lookup_rootOwners roots) (.nil _)
    rw [mem_processesOf, List.mem_toFinset, Belongs]
    constructor
    · intro h
      obtain ⟨record, hrecord, rfl⟩ := List.mem_map.mp h
      obtain ⟨hmem, howner⟩ := List.mem_filter.mp hrecord
      have htab := hread record hmem
      refine ⟨?_, by rw [htab]; rfl, (hbelongs record).mp (of_decide_eq_true howner)⟩
      rw [← htable, processTable] at htab
      by_contra hout
      rw [if_neg fun h => hout (List.mem_toFinset.mp h)] at htab
      cases htab
    · rintro ⟨-, hsome, hnearest⟩
      obtain ⟨record, htab⟩ := Option.isSome_iff_exists.mp hsome
      have hentries : (⟨pid, record⟩ : Sigma fun _ : UInt32 => ProcessRecord) ∈ records.entries :=
        AList.mem_lookup_iff.mp ((hlookup pid).trans htab)
      have hpid : record.process.pid = pid := (hentry _ hentries).2
      refine List.mem_map.mpr ⟨record, List.mem_filter.mpr ⟨?_, decide_eq_true ?_⟩, hpid⟩
      · exact hperm.symm.subset (List.mem_map.mpr ⟨_, hentries, rfl⟩)
      · rw [hbelongs, hpid]
        exact hnearest

theorem rootPid_of_rootOf {pid : UInt32} {index : Nat} {root : SessionRoot}
    (h : rootOf roots pid = some index) (hroot : roots[index]? = some root) :
    root.rootPid = pid := by
  unfold rootOf at h
  split at h
  · cases h
  · obtain ⟨hlt, hpid, -⟩ := List.findIdx?_eq_some_iff_getElem.mp h
    rw [List.getElem?_eq_getElem hlt] at hroot
    rw [← Option.some.inj hroot]
    exact of_decide_eq_true hpid

/-- A session whose root is a duplicate has no process. -/
theorem rootOf_of_nearest {table : UInt32 → Option ProcessRecord} {pid : UInt32} {index : Nat}
    {root : SessionRoot} (h : Chains.Nearest (parentOf table) (rootOf roots) pid index)
    (hroot : roots[index]? = some root) : rootOf roots root.rootPid = some index := by
  obtain ⟨n, top, -, htop, -⟩ := h
  rw [rootPid_of_rootOf htop hroot]
  exact htop

theorem settle_eq {records : Records} {table : UInt32 → Option ProcessRecord}
    {processes : Finset UInt32} {found : List ProcessRecord} {globalPartial : Bool}
    {root : SessionRoot} {index : Nat} (hlists : Lists table processes found)
    (hlookup : records.lookup root.rootPid = table root.rootPid)
    (hnone : rootOf roots root.rootPid ≠ some index → found = []) :
    settle records globalPartial root (if found.any (!·.ioComplete) then .partial_
      else if rootOf roots root.rootPid ≠ some index then .unavailable else .complete) =
      sessionStatus table roots globalPartial processes root index := by
  have hany : found.any (!·.ioComplete) = true ↔
      ∃ pid ∈ processes, (table pid).any (!·.ioComplete) := by
    rw [List.any_eq_true]
    constructor
    · rintro ⟨record, hrecord, hio⟩
      refine ⟨record.process.pid, (hlists.all _).mp (List.mem_map_of_mem hrecord), ?_⟩
      rw [hlists.read record hrecord]
      exact hio
    · rintro ⟨pid, hpid, hio⟩
      obtain ⟨record, hrecord, rfl⟩ := List.mem_map.mp ((hlists.all pid).mpr hpid)
      rw [hlists.read record hrecord] at hio
      exact ⟨record, hrecord, hio⟩
  unfold settle sessionStatus
  simp only [← hany]
  rw [hlookup]
  by_cases hroot : table root.rootPid = none
  · rw [hroot, if_pos Option.isNone_none, if_pos (Or.inr rfl)]
  have hread : ¬ (table root.rootPid).isNone = true := fun h => hroot (Option.isNone_iff_eq_none.mp h)
  rw [if_neg hread]
  by_cases hfirst : rootOf roots root.rootPid = some index
  · rw [if_neg (not_not.mpr hfirst), if_neg (not_or.mpr ⟨not_not.mpr hfirst, hroot⟩)]
    cases globalPartial <;> cases found.any (!·.ioComplete) <;> simp
  · rw [hnone hfirst, if_pos hfirst, if_pos (Or.inl hfirst)]
    simp

variable {order : HashOrder} {daemonPid : UInt32} {maxEntries : Nat} {pids : List UInt32}
  {truncated : Bool}

/-- A collection finds what the set of the processes says. -/
theorem collectProcfs_eq (hlist : source.listPids maxEntries = some (pids, truncated)) :
    collectProcfs order source daemonPid roots pageSize maxEntries =
      attributed source pageSize pids.toFinset daemonPid roots truncated := by
  have hlookup := @lookup_readRecords source pageSize pids
  have hglobal : (readRecords source pageSize pids).2 =
      decide (∃ pid ∈ pids.toFinset, readProcess source pageSize pid = none) := by
    rw [Bool.eq_iff_iff, statIncomplete_readRecords, decide_eq_true_iff]
    simp only [List.mem_toFinset]
  rw [collectProcfs, hlist]
  dsimp only
  rw [hlookup, hglobal]
  refine congrArg (procSnapshot _ _ _) (List.map_congr_left fun entry hentry => ?_)
  obtain ⟨root, index⟩ := entry
  have hroot : roots[index]? = some root := List.mk_mem_zipIdx_iff_getElem?.mp hentry
  have hlt : index < roots.length := (List.getElem?_eq_some_iff.mp hroot).1
  have hlists := @lists_recordsOf source pageSize roots order pids index
  generalize (readRecords source pageSize pids).1 = records at hlookup hlists ⊢
  generalize order.run (records.entries.map Sigma.snd) = found at hlists ⊢
  have hnearest : ∀ (record : ProcessRecord) i,
      findOwner records (rootOwners roots).1 [] record.process.pid = some i →
        ∀ root, roots[i]? = some root → rootOf roots root.rootPid = some i := by
    intro record i howner root hroot
    have hnear := (findOwner_eq_some hlookup (lookup_rootOwners roots) (.nil _)).mp howner
    exact rootOf_of_nearest hnear hroot
  have hloop := @foldl_attributeRecord records (rootOwners roots).1
    (List.replicate roots.length {}) ((rootOwners roots).2.foldl (·.set · .unavailable)
      (List.replicate roots.length .complete)) found (fun record _ i howner => by
        rw [getElem?_openStatuses]
        intro hsome
        split at hsome
        · rename_i hi
          split at hsome
          · rename_i hmem
            obtain ⟨root, hroot, hne⟩ := mem_duplicateRoots.mp hmem
            exact hne (hnearest record i howner root hroot)
          · cases hsome
        · cases hsome) index
  have hnone : rootOf roots root.rootPid ≠ some index →
      recordsOf records (rootOwners roots).1 found index = [] := by
    intro hne
    refine List.filter_eq_nil_iff.mpr fun record _ howner => hne ?_
    exact hnearest record index (of_decide_eq_true howner) root hroot
  have hdup : index ∈ (rootOwners roots).2 ↔ rootOf roots root.rootPid ≠ some index := by
    rw [mem_duplicateRoots]
    refine ⟨fun ⟨other, hother, hne⟩ => ?_, fun hne => ⟨root, hroot, hne⟩⟩
    rw [hroot] at hother
    rw [Option.some.inj hother]
    exact hne
  obtain ⟨haggregates, hstatuses⟩ := hloop
  rw [List.getElem?_replicate, if_pos hlt, Option.map_some] at haggregates
  rw [getElem?_openStatuses, if_pos hlt, Option.map_some] at hstatuses
  simp only [hdup] at hstatuses
  dsimp only
  rw [List.getD_eq_getElem?_getD, List.getD_eq_getElem?_getD, haggregates, List.getElem?_zipWith,
    hroot, hstatuses, Option.getD_some, Option.getD_some, hlists.foldl_addCounters,
    settle_eq hlists (hlookup _) hnone]

/-- A session's root is the first one with its pid. -/
theorem rootOf_eq_some {pid : UInt32} {index : Nat} : rootOf roots pid = some index ↔
    pid ≠ 0 ∧ (∃ root, roots[index]? = some root ∧ root.rootPid = pid) ∧
      ∀ j < index, ∀ other, roots[j]? = some other → other.rootPid ≠ pid := by
  unfold rootOf
  by_cases hzero : pid = 0
  · rw [if_pos hzero]
    exact ⟨fun h => (by cases h), fun h => absurd hzero h.1⟩
  rw [if_neg hzero, List.findIdx?_eq_some_iff_getElem]
  constructor
  · rintro ⟨hlt, hpid, hfirst⟩
    refine ⟨hzero, ⟨_, List.getElem?_eq_getElem hlt, of_decide_eq_true hpid⟩, ?_⟩
    intro j hj other hother hsame
    have hother' := List.getElem?_eq_getElem (hj.trans hlt)
    rw [hother] at hother'
    refine hfirst j hj (decide_eq_true ?_)
    rw [← Option.some.inj hother']
    exact hsame
  · rintro ⟨-, ⟨root, hroot, hpid⟩, hfirst⟩
    obtain ⟨hlt, heq⟩ := List.getElem?_eq_some_iff.mp hroot
    refine ⟨hlt, decide_eq_true (by rw [heq]; exact hpid), fun j hj hsame => ?_⟩
    exact hfirst j hj _ (List.getElem?_eq_getElem (hj.trans hlt)) (of_decide_eq_true hsame)

theorem processesOf_duplicate {table : UInt32 → Option ProcessRecord} {index : Nat}
    {root : SessionRoot} {processes : Finset UInt32} (hroot : roots[index]? = some root)
    (hdup : rootOf roots root.rootPid ≠ some index) :
    processesOf table roots processes index = ∅ := by
  refine Finset.eq_empty_of_forall_notMem fun pid hpid => hdup ?_
  exact rootOf_of_nearest (mem_processesOf.mp hpid).2.2 hroot

theorem getElem?_attributed {table : UInt32 → Option ProcessRecord} {index : Nat}
    {root : SessionRoot} {processes : Finset UInt32} (hroot : roots[index]? = some root)
    (htable : processTable source pageSize processes = table) :
    ∃ globalPartial,
      (attributed source pageSize processes daemonPid roots truncated).sessions[index]? =
        some (rootSample root (totalCounters table (processesOf table roots processes index))
          (sessionStatus table roots globalPartial (processesOf table roots processes index)
            root index)) := by
  refine ⟨decide (∃ pid ∈ processes, readProcess source pageSize pid = none) || truncated, ?_⟩
  subst htable
  unfold attributed procSnapshot
  dsimp only
  rw [List.getElem?_map, List.getElem?_zipIdx, hroot]
  simp only [Option.map_some, Nat.zero_add]

/-- Each process that can be read is counted for the session of its nearest root, and for no other
one, in whatever order the processes are listed and the records come. A root of no process, or of
a process that another session names before, has none. -/
theorem collectProcfs_attributes (hlist : source.listPids maxEntries = some (pids, truncated)) :
    let table := processTable source pageSize pids.toFinset
    let snapshot := collectProcfs order source daemonPid roots pageSize maxEntries
    (∀ pid i j, Belongs table roots pid i → Belongs table roots pid j → i = j) ∧
    snapshot = attributed source pageSize pids.toFinset daemonPid roots truncated ∧
    (∀ i root, roots[i]? = some root → ∃ session, snapshot.sessions[i]? = some session ∧
      session.sessionId = root.sessionId ∧
      session.counters = totalCounters table (processesOf table roots pids.toFinset i) ∧
      ((root.rootPid = 0 ∨ ∃ j < i, ∃ other, roots[j]? = some other ∧
          other.rootPid = root.rootPid) →
        session.collectionStatus = .unavailable ∧ session.counters = {} ∧
          ∀ pid, ¬ Belongs table roots pid i)) ∧
    ∀ order' source' pids', source'.listPids maxEntries = some (pids', truncated) →
      pids'.Perm pids → source'.readStat = source.readStat → source'.readIo = source.readIo →
        collectProcfs order' source' daemonPid roots pageSize maxEntries = snapshot := by
  intro table snapshot
  have hsnapshot : snapshot = attributed source pageSize pids.toFinset daemonPid roots truncated :=
    collectProcfs_eq hlist
  refine ⟨fun pid i j hi hj => Chains.nearest_unique hi.2 hj.2, hsnapshot,
    fun i root hroot => ?_, fun order' source' pids' hlist' hperm hstat hio => ?_⟩
  · obtain ⟨globalPartial, hsession⟩ := @getElem?_attributed source pageSize roots daemonPid
      truncated table i root pids.toFinset hroot rfl
    rw [← hsnapshot] at hsession
    refine ⟨_, hsession, rfl, rfl, fun hdup => ?_⟩
    have hother : rootOf roots root.rootPid ≠ some i := by
      intro hfirst
      obtain ⟨hzero, -, hbefore⟩ := rootOf_eq_some.mp hfirst
      rcases hdup with hdup | ⟨j, hj, other, hother, hsame⟩
      · exact hzero hdup
      · exact hbefore j hj other hother hsame
    have hempty : processesOf table roots pids.toFinset i = ∅ := processesOf_duplicate hroot hother
    rw [hempty]
    exact ⟨if_pos (Or.inl hother), rfl,
      fun pid hpid => hother (rootOf_of_nearest hpid.2 hroot)⟩
  · have hread : readProcess source' pageSize = readProcess source pageSize := by
      funext pid
      unfold readProcess
      rw [hstat, hio]
    rw [hsnapshot, collectProcfs_eq hlist', List.toFinset_eq_of_perm _ _ hperm]
    unfold attributed processTable
    rw [hread]

/-- A table with one process. -/
def shellSource : ProcSource where
  listPids := fun _ => some ([10], false)
  readStat := fun pid =>
    if pid = 10 then some "10 (sh) S 1 10 10 0 -1 0 0 0 0 0 5 3 0 0 20 0 1 0 100 4096 3" else none
  readIo := fun _ => none

/-- Two sessions that name the same root. -/
def shellRoots : List SessionRoot := [⟨1, 10, none, false⟩, ⟨2, 10, none, false⟩]

/-- The records come as they were put in. -/
def insertionOrder : HashOrder where
  run := id
  perm := fun records => List.Perm.refl records

theorem shell_attributed :
    ∃ session : RawSessionSample, (collectProcfs insertionOrder shellSource 1 shellRoots 4096
        100).sessions[1]? = some session ∧
      session.collectionStatus = .unavailable ∧ session.counters = {} := by
  have hlist : shellSource.listPids 100 = some ([10], false) := rfl
  obtain ⟨-, -, hsessions, -⟩ := @collectProcfs_attributes shellSource 4096 shellRoots
    insertionOrder 1 100 [10] false hlist
  obtain ⟨session, hsession, -, -, hdup⟩ := hsessions 1 ⟨2, 10, none, false⟩ rfl
  have hbefore : ∃ j < 1, ∃ other, shellRoots[j]? = some other ∧ other.rootPid = 10 :=
    ⟨0, Nat.one_pos, ⟨1, 10, none, false⟩, rfl, rfl⟩
  obtain ⟨hstatus, hcounters, -⟩ := hdup (Or.inr hbefore)
  exact ⟨session, hsession, hstatus, hcounters⟩

end collect

end Dashboard
end PersistShell

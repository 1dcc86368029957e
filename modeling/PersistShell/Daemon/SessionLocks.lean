import PersistShell.Daemon.IdleGc

/-! Locked sessions. A lock is in the row of its session, and in the set of the manager that the
idle GC looks at; a request sets the one after the other, and other requests may come between. -/

namespace PersistShell
namespace IdleGc

/-- A request for a lock begins when no other request for the same session is halfway. -/
def OneRequest (s : IdleGc) : GcAction → Prop
  | .setSessionLocked id _ => id ∉ s.locking.map Prod.fst
  | _ => True

/-- The manager and the rows agree, but for the sessions with a request halfway. -/
structure LocksAgree (s : IdleGc) : Prop where
  single : (s.locking.map Prod.fst).Nodup
  halfway : ∀ id locked, (id, locked) ∈ s.locking → (s.IsLocked id ↔ locked = true)
  agree : ∀ id, id ∉ s.locking.map Prod.fst → (s.IsLocked id ↔ id ∈ s.lockedSessions)

variable {s s' : IdleGc} {id : Nat} {marks : Marks}

/-- Nothing about locks has changed. -/
theorem LocksAgree.keep (h : s.LocksAgree) (hlocking : s'.locking = s.locking)
    (hlocked : s'.lockedSessions = s.lockedSessions)
    (hrows : ∀ id, s'.IsLocked id ↔ s.IsLocked id) : s'.LocksAgree where
  single := by
    rw [hlocking]
    exact h.single
  halfway id locked hmem := by
    rw [hlocking] at hmem
    exact (hrows id).trans (h.halfway id locked hmem)
  agree id hid := by
    rw [hlocking] at hid
    rw [hlocked]
    exact (hrows id).trans (h.agree id hid)

theorem isLocked_setRow (s : IdleGc) (id id' : Nat) (marks : Marks) (locking : List (Nat × Bool)) :
    IsLocked { s with rows := s.rows.insert id marks, locking } id' ↔
      if id = id' then marks.locked = true else s.IsLocked id' := by
  unfold IsLocked
  dsimp only
  rw [NatMap.get_insert]
  split
  · constructor
    · rintro ⟨marks', hmarks, hlocked⟩
      cases hmarks
      exact hlocked
    · exact fun hlocked => ⟨marks, rfl, hlocked⟩
  · exact Iff.rfl

theorem isLocked_iff (hrow : s.rows[id]? = some marks) : s.IsLocked id ↔ marks.locked = true := by
  constructor
  · rintro ⟨marks', hmarks, hlocked⟩
    cases hrow.symm.trans hmarks
    exact hlocked
  · exact fun hlocked => ⟨marks, hrow, hlocked⟩

/-- The first half of a request. -/
theorem LocksAgree.setSessionLocked (h : s.LocksAgree) (hid : id ∉ s.locking.map Prod.fst)
    (locked : Bool) : LocksAgree { s with
      rows := s.rows.insert id { marks with locked }
      locking := (id, locked) :: s.locking } where
  single := List.nodup_cons.mpr ⟨hid, h.single⟩
  halfway id' locked' hmem := by
    rw [isLocked_setRow]
    rcases List.mem_cons.mp hmem with heq | hmem
    · cases heq
      rw [if_pos rfl]
    · have hne : id ≠ id' := fun heq => hid (heq ▸ List.mem_map_of_mem hmem)
      rw [if_neg hne]
      exact h.halfway id' locked' hmem
  agree id' hid' := by
    have hne : id ≠ id' := fun heq => hid' (heq ▸ List.mem_cons_self)
    rw [isLocked_setRow, if_neg hne]
    exact h.agree id' fun hmem => hid' (List.mem_cons_of_mem _ hmem)

/-- The second half; the session has no other request then. -/
theorem LocksAgree.setLocked (h : s.LocksAgree) {locked : Bool} (hmem : (id, locked) ∈ s.locking) :
    LocksAgree { s with
      lockedSessions := if locked then id :: s.lockedSessions.filter (· ≠ id)
        else s.lockedSessions.filter (· ≠ id)
      locking := s.locking.erase (id, locked) } where
  single := h.single.sublist ((List.erase_sublist).map _)
  halfway id' locked' hmem' := h.halfway id' locked' (List.mem_of_mem_erase hmem')
  agree id' hid' := by
    show s.IsLocked id' ↔ _
    by_cases heq : id' = id
    · subst heq
      rw [h.halfway id' locked hmem]
      cases locked <;> simp
    · have hkept : id' ∉ s.locking.map Prod.fst := by
        rintro hold
        obtain ⟨entry, hentry, hfst⟩ := List.mem_map.mp hold
        have hother : entry ≠ (id, locked) := fun hsame => heq (hfst ▸ congrArg Prod.fst hsame)
        exact hid' (List.mem_map.mpr ⟨entry, (List.mem_erase_of_ne hother).mpr hentry, hfst⟩)
      rw [h.agree id' hkept]
      cases locked <;> simp [heq]

/-- A daemon that starts reads the locks from the rows. -/
theorem mem_lockedRows : id ∈ (s.rows.toList.filter (·.2.locked)).map Prod.fst ↔ s.IsLocked id := by
  constructor
  · intro hid
    obtain ⟨⟨_, marks⟩, hmem, rfl⟩ := List.mem_map.mp hid
    obtain ⟨hrow, hlocked⟩ := List.mem_filter.mp hmem
    exact ⟨marks, Std.ExtTreeMap.mem_toList_iff_getElem?_eq_some.mp hrow, hlocked⟩
  · rintro ⟨marks, hrow, hlocked⟩
    exact List.mem_map.mpr ⟨(id, marks), List.mem_filter.mpr
      ⟨Std.ExtTreeMap.mem_toList_iff_getElem?_eq_some.mpr hrow, hlocked⟩, rfl⟩

theorem locks_depart (s : IdleGc) (fd id : Nat) : (s.depart fd id).locking = s.locking ∧
    (s.depart fd id).lockedSessions = s.lockedSessions ∧ (s.depart fd id).rows = s.rows := by
  unfold depart
  split <;> exact ⟨rfl, rfl, rfl⟩

theorem LocksAgree.depart (h : s.LocksAgree) (fd id : Nat) : (s.depart fd id).LocksAgree := by
  obtain ⟨hlocking, hlocked, hrows⟩ := locks_depart s fd id
  exact h.keep hlocking hlocked fun id' => by rw [IsLocked, hrows]; rfl

theorem locksAgree_step {action : GcAction} (h : s.LocksAgree) (hone : s.OneRequest action)
    (hstep : s.step action = some s') : s'.LocksAgree := by
  cases action with
  | tick elapsed =>
    cases hstep
    exact h.keep rfl rfl fun _ => Iff.rfl
  | inventory ids =>
    cases hstep
    exact h.keep rfl rfl fun _ => Iff.rfl
  | create id =>
    cases hstep
    exact h.keep rfl rfl fun _ => Iff.rfl
  | insertRow id =>
    rw [step] at hstep
    split at hstep
    · cases hstep
    · rename_i hnew
      cases hstep
      have hunlocked : ¬ s.IsLocked id := by
        rintro ⟨marks, hrow, -⟩
        exact hnew ((NatMap.contains_iff _ _).mpr ⟨marks, hrow⟩)
      refine h.keep rfl rfl fun id' => ?_
      rw [isLocked_setRow s id id' {} s.locking]
      split
      · rename_i heq
        subst heq
        exact ⟨fun hlocked => (by cases hlocked), fun hlocked => absurd hlocked hunlocked⟩
      · exact Iff.rfl
  | setSessionPinned id pinned =>
    obtain ⟨marks, hrow, rfl⟩ := Option.map_eq_some_iff.mp hstep
    refine h.keep rfl rfl fun id' => ?_
    rw [isLocked_setRow s id id' { marks with pinned } s.locking]
    split
    · rename_i heq
      subst heq
      exact (isLocked_iff hrow).symm
    · exact Iff.rfl
  | setSessionLocked id locked =>
    obtain ⟨marks, hrow, rfl⟩ := Option.map_eq_some_iff.mp hstep
    exact h.setSessionLocked hone locked
  | setLocked id locked =>
    rw [step] at hstep
    split at hstep
    · rename_i hmem
      cases hstep
      exact h.setLocked hmem
    · cases hstep
  | attach fd id =>
    rw [step] at hstep
    split at hstep
    · cases hstep
    · cases hstep
      exact h.keep rfl rfl fun _ => Iff.rfl
  | enter fd =>
    rw [step] at hstep
    split at hstep
    · cases hstep
      exact h.keep rfl rfl fun _ => Iff.rfl
    · cases hstep
  | leave fd id =>
    cases hstep
    exact h.depart fd id
  | release fd =>
    rw [step] at hstep
    split at hstep
    · rename_i id hthread
      cases hstep
      exact (h.depart fd id).keep rfl rfl fun _ => Iff.rfl
    · cases hstep
  | drop fd =>
    rw [step] at hstep
    split at hstep
    · rename_i id hthread
      cases hstep
      exact (h.depart fd id).keep rfl rfl fun _ => Iff.rfl
    · rename_i id hthread
      cases hstep
      exact (h.depart fd id).keep rfl rfl fun _ => Iff.rfl
    · cases hstep
  | finishClose id =>
    cases hstep
    exact h.keep rfl rfl fun _ => Iff.rfl
  | collect unreadable =>
    rw [step] at hstep
    split at hstep
    · cases hstep
      exact h.keep rfl rfl fun _ => Iff.rfl
    · cases hstep
  | kill =>
    rw [step] at hstep
    split at hstep
    · cases hstep
    · cases hstep
      exact h.keep rfl rfl fun _ => Iff.rfl
  | restart gcIdleTimeout ids =>
    rw [step] at hstep
    split at hstep
    · cases hstep
      exact ⟨List.nodup_nil, fun _ _ hmem => (by cases hmem), fun _ _ => mem_lockedRows.symm⟩
    · cases hstep

/-- No pass collects a session that the manager takes for locked. -/
theorem unlocked_of_candidate {unreadable : List Nat} (hstep : s.step (.collect unreadable) = some s')
    (hid : id ∈ s'.candidates) : id ∉ s.lockedSessions := by
  rw [step] at hstep
  split at hstep
  · cases hstep
    change id ∈ s.gcCandidates _ at hid
    unfold gcCandidates at hid
    split at hid
    · cases hid
    · obtain ⟨-, hchosen⟩ := List.mem_filter.mp hid
      intro hlocked
      rw [List.contains_iff_mem.mpr hlocked] at hchosen
      simp at hchosen
  · cases hstep

end IdleGc

/-- Over restarts, crashes between the halves of a request and any order of requests of which no
two for one session overlap: the manager and the row of a session without a request halfway agree
on its lock, and no pass of the GC collects it while it is locked. -/
theorem locks_agree {gcIdleTimeout : Nat} {s : IdleGc} {id : Nat}
    (h : Run.Along IdleGc.step IdleGc.OneRequest (· = { gcIdleTimeout }) s)
    (hid : id ∉ s.locking.map Prod.fst) : (s.IsLocked id ↔ id ∈ s.lockedSessions) ∧
      ∀ unreadable s', s.step (.collect unreadable) = some s' → id ∈ s'.candidates →
        ¬ s.IsLocked id := by
  have hagree : s.LocksAgree := by
    refine h.invariant ?_ fun s a s' hs hone hstep => IdleGc.locksAgree_step hs hone hstep
    rintro _ rfl
    refine ⟨List.nodup_nil, fun _ _ hmem => (by cases hmem), fun id _ => ⟨?_, fun hmem => by cases hmem⟩⟩
    rintro ⟨marks, hrow, -⟩
    cases hrow
  refine ⟨hagree.agree id hid, fun unreadable s' hstep hcandidate hlocked => ?_⟩
  exact IdleGc.unlocked_of_candidate hstep hcandidate ((hagree.agree id hid).mp hlocked)

/-- A session is locked, nobody is attached to it, and the time of the GC comes. -/
def lockedAndIdle : List GcAction :=
  [.inventory [1], .insertRow 1, .setSessionLocked 1 true, .setLocked 1 true, .tick 20]

theorem locks_agree_sample : ∃ s : IdleGc,
    Run.exec IdleGc.step { gcIdleTimeout := 5 } lockedAndIdle = some s ∧ 1 ∈ s.lockedSessions ∧
      s.IsLocked 1 := by
  have hfacts : (Run.exec IdleGc.step { gcIdleTimeout := 5 } lockedAndIdle).map
      (fun s => (s.locking, s.lockedSessions)) = some ([], [1]) := by
    decide +kernel
  obtain ⟨s, hexec, hs⟩ := Option.map_eq_some_iff.mp hfacts
  obtain ⟨hlocking, hlocked⟩ := Prod.mk.inj hs
  have hmem : 1 ∈ s.lockedSessions := hlocked ▸ List.mem_singleton_self 1
  refine ⟨s, hexec, hmem, ?_⟩
  obtain ⟨s₁, h₁, hrest⟩ := Option.bind_eq_some_iff.mp hexec
  obtain ⟨s₂, h₂, hrest⟩ := Option.bind_eq_some_iff.mp hrest
  obtain ⟨s₃, h₃, hrest⟩ := Option.bind_eq_some_iff.mp hrest
  obtain ⟨s₄, h₄, hrest⟩ := Option.bind_eq_some_iff.mp hrest
  obtain ⟨s₅, h₅, hend⟩ := Option.bind_eq_some_iff.mp hrest
  cases hend
  have hstart : Run.Along IdleGc.step IdleGc.OneRequest (· = { gcIdleTimeout := 5 })
      { gcIdleTimeout := 5 } := .start rfl
  have hone : s₂.OneRequest (.setSessionLocked 1 true) := by
    cases h₁
    cases h₂
    exact List.not_mem_nil
  have hinserted := (hstart.step (by trivial) h₁).step (by trivial) h₂
  have hrun := ((hinserted.step hone h₃).step (by trivial) h₄).step (by trivial) h₅
  exact (locks_agree hrun (by rw [hlocking]; exact List.not_mem_nil)).1.mpr hmem

/-- The halves of two requests that overlap may leave the row locked and the manager without it. -/
example : (Run.exec IdleGc.step { gcIdleTimeout := 5 }
    [.insertRow 1, .setSessionLocked 1 false, .setSessionLocked 1 true, .setLocked 1 true,
      .setLocked 1 false]).map (fun s => (s.rows[1]?.map Marks.locked, s.lockedSessions)) =
    some (some true, []) := by
  decide +kernel

end PersistShell

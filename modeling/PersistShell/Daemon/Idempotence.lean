import PersistShell.Core.Json
import PersistShell.Daemon.Reconcile

/-! Reconciling twice with one inventory. The second run leaves every row as the first one
left it, unless the first one took a live session away from another holder: marking its row
lost also binds it to the current holder, so that the second run sees no conflict. -/

namespace PersistShell
open Program MetadataStore

/-- A record but for the time of its last change. -/
def SessionRecord.untimed (record : SessionRecord) : SessionRecord :=
  { record with updatedAt := "" }

def SameRecords (rows rows' : Rows) : Prop :=
  ∀ id : Nat, rows'[id]?.map SessionRecord.untimed = rows[id]?.map SessionRecord.untimed

namespace Reconciliation

variable (r : Reconciliation)

/-- No listed session has an active row that is bound to another holder. -/
def NoLiveConflict (rows : Rows) : Prop :=
  ∀ entry ∈ r.snapshot.entries, ∀ record, rows[entry.sessionId]? = some record →
    isActive record.status = true → instanceConflicts record r.snapshot.instanceHex = false

theorem instanceConflicts_bound {record : SessionRecord} {current : String}
    (h : record.holderInstance = some current) : instanceConflicts record current = false := by
  rw [instanceConflicts, h]
  simp

/-- A session with no row, or with a row of another holder. -/
def Orphaned (records : Rows) (id : Nat) : Prop :=
  ∀ record, records[id]? = some record → instanceConflicts record r.snapshot.instanceHex = true

theorem mem_orphaned_tally {records : Rows} {id : Nat} {entry : HolderSessionEntry}
    {result : ReconciliationResult} :
    id ∈ (r.tally records result entry).orphanedSessions ↔
      id ∈ result.orphanedSessions ∨ id = entry.sessionId ∧ r.Orphaned records id := by
  unfold tally Orphaned
  cases hget : records[entry.sessionId]? with
  | none =>
    have horphan : ∀ record, records[entry.sessionId]? = some record →
        instanceConflicts record r.snapshot.instanceHex = true := by
      rw [hget]
      intro record h
      cases h
    dsimp only
    rw [Finset.mem_insert, or_comm, and_iff_left_of_imp]
    rintro rfl
    exact horphan
  | some record =>
    dsimp only
    cases hconflict : instanceConflicts record r.snapshot.instanceHex with
    | true =>
      have horphan : ∀ record, records[entry.sessionId]? = some record →
          instanceConflicts record r.snapshot.instanceHex = true := by
        rw [hget]
        rintro _ ⟨⟩
        exact hconflict
      rw [if_pos rfl, Finset.mem_insert, or_comm, and_iff_left_of_imp]
      rintro rfl
      exact horphan
    | false =>
      have hown : ¬ (id = entry.sessionId ∧ ∀ record, records[id]? = some record →
          instanceConflicts record r.snapshot.instanceHex = true) := by
        rintro ⟨rfl, h⟩
        rw [h record hget] at hconflict
        cases hconflict
      rw [if_neg Bool.false_ne_true, or_iff_left hown]
      cases entry.state <;> rfl

/-- The sessions that a run reports as orphans. -/
theorem mem_orphaned {records : Rows} {id : Nat} (entries : List HolderSessionEntry)
    (result : ReconciliationResult) :
    id ∈ (entries.foldl (r.tally records) result).orphanedSessions ↔
      id ∈ result.orphanedSessions ∨
        id ∈ entries.map HolderSessionEntry.sessionId ∧ r.Orphaned records id := by
  induction entries generalizing result with
  | nil => simp
  | cons entry entries ih =>
    rw [List.foldl_cons, ih, List.map_cons, List.mem_cons, mem_orphaned_tally]
    tauto

variable [SerdeJson]

/-- However its statements go, another run from `rows` leaves the records as they are, and
returns the same result unless a statement of its own fails. -/
def Repeats (rows : Rows) (result : ReconciliationResult) : Prop :=
  ∀ values answers outcome db, r.reconcileMetadata values ⟨rows, answers⟩ = (outcome, db) →
    SameRecords rows db.rows ∧ (outcome = .ok result ∨
      (∃ operation message, outcome = .err (.metadata operation message)) ∧
        ∃ a ∈ answers, a.fault ≠ none)

variable {r} {rows rows' : Rows} {entry : HolderSessionEntry}

/-- A record that an entry has settled is settled by the same entry as it is. -/
theorem Settled.again {before after after' : SessionRecord} (h : r.Settled entry before after)
    (hlive : isActive before.status = true →
      instanceConflicts before r.snapshot.instanceHex = false)
    (h' : r.Settled entry after after') : after'.untimed = after.untimed := by
  cases h with
  | lost hconflict hactive =>
    rw [hlive hactive] at hconflict
    cases hconflict
  | foreign hconflict hactive =>
    cases h' with
    | lost _ hactive' =>
      rw [hactive] at hactive'
      cases hactive'
    | foreign => rfl
    | running hconflict' =>
      rw [hconflict] at hconflict'
      cases hconflict'
    | exited hconflict' =>
      rw [hconflict] at hconflict'
      cases hconflict'
  | running hconflict hstate now =>
    have hbound : instanceConflicts (before.setRunning r.snapshot.instanceHex
        r.snapshot.generation now) r.snapshot.instanceHex = false := instanceConflicts_bound rfl
    cases h' with
    | lost hconflict' => cases hbound.symm.trans hconflict'
    | foreign hconflict' => cases hbound.symm.trans hconflict'
    | running => rfl
    | exited _ hstate' => cases hstate.symm.trans hstate'
  | exited hconflict hstate hcolumns now =>
    rename_i columns
    have hbound : instanceConflicts (before.setExited columns.1 columns.2.1 columns.2.2
        r.snapshot.instanceHex r.snapshot.generation now) r.snapshot.instanceHex = false :=
      instanceConflicts_bound rfl
    cases h' with
    | lost hconflict' => cases hbound.symm.trans hconflict'
    | foreign hconflict' => cases hbound.symm.trans hconflict'
    | running _ hstate' => cases hstate.symm.trans hstate'
    | exited _ _ hcolumns' =>
      rw [hcolumns] at hcolumns'
      cases hcolumns'
      obtain ⟨code, cwd, environment⟩ := columns
      cases cwd <;> cases environment <;> cases hclosed : before.closedAt <;>
        simp [SessionRecord.untimed, SessionRecord.setExited, hclosed]

/-- An entry is of a foreign session after it is settled just when it was before. -/
theorem Settled.conflicts {before after : SessionRecord} (h : r.Settled entry before after)
    (hlive : isActive before.status = true →
      instanceConflicts before r.snapshot.instanceHex = false) :
    instanceConflicts after r.snapshot.instanceHex =
      instanceConflicts before r.snapshot.instanceHex := by
  cases h with
  | lost hconflict hactive =>
    rw [hlive hactive] at hconflict
    cases hconflict
  | foreign => rfl
  | running hconflict hstate now =>
    have hbound : (before.setRunning r.snapshot.instanceHex r.snapshot.generation
        now).holderInstance = some r.snapshot.instanceHex := rfl
    rw [hconflict, instanceConflicts_bound hbound]
  | exited hconflict hstate hcolumns now =>
    rename_i columns
    have hbound : (before.setExited columns.1 columns.2.1 columns.2.2 r.snapshot.instanceHex
        r.snapshot.generation now).holderInstance = some r.snapshot.instanceHex := rfl
    rw [hconflict, instanceConflicts_bound hbound]

theorem Accepts.again {before after : SessionRecord} (h : r.Accepts entry before)
    (hsettled : r.Settled entry before after)
    (hlive : isActive before.status = true →
      instanceConflicts before r.snapshot.instanceHex = false) : r.Accepts entry after :=
  ⟨h.1, fun hconflict => h.2 ((hsettled.conflicts hlive).symm.trans hconflict)⟩

/-- After a reconciliation no active row is missing from the inventory. -/
theorem Reconciled.swept (h : r.Reconciled rows rows') {id : Nat} {record : SessionRecord}
    (hid : id ∉ r.snapshot.ids) (hget : rows'[id]? = some record) :
    isActive record.status = false := by
  have hswept := h.unlisted id hid
  rw [hget] at hswept
  generalize rows[id]? = before at hswept
  cases hswept with
  | inactive h => exact h
  | lost => rfl

theorem Reconciled.not_stuck (h : r.Reconciled rows rows') (hlive : r.NoLiveConflict rows) :
    ¬ r.Stuck rows' := by
  rintro (⟨entry, hentry, row, hget, hrefused⟩ | ⟨id, row, hid, hget, hactive, -⟩)
  · have hpassed := h.listed entry hentry
    have hlive := hlive entry hentry
    rw [hget] at hpassed
    generalize rows[entry.sessionId]? = before at hpassed hlive
    cases hpassed with
    | settled haccepts hsettled =>
      exact hrefused (haccepts.again hsettled (hlive _ rfl))
  · rw [h.swept hid hget] at hactive
    cases hactive

/-- What a second run does to the rows that a first run has left. -/
theorem Touched.same (h : r.Reconciled rows rows') (hlive : r.NoLiveConflict rows) {last : Rows}
    (htouched : r.Touched rows' last) : SameRecords rows' last := by
  intro id
  rcases htouched id with hsame | ⟨entry, hentry, rfl, hpassed⟩ | ⟨hid, hswept⟩
  · rw [hsame]
  · have hbefore := h.listed entry hentry
    have hlive := hlive entry hentry
    generalize rows[entry.sessionId]? = before at hbefore hlive
    generalize rows'[entry.sessionId]? = middle at hbefore hpassed ⊢
    generalize last[entry.sessionId]? = after at hpassed ⊢
    cases hpassed with
    | orphan => rfl
    | settled _ hsettled' =>
      cases hbefore with
      | settled _ hsettled =>
        exact congrArg some (hsettled.again (hlive _ rfl) hsettled')
  · have hinactive : ∀ record, rows'[id]? = some record → isActive record.status = false :=
      fun record => h.swept hid
    generalize rows'[id]? = middle at hinactive hswept ⊢
    generalize last[id]? = after at hswept ⊢
    cases hswept with
    | missing => rfl
    | inactive => rfl
    | lost hactive =>
      rw [hinactive _ rfl] at hactive
      cases hactive

theorem Reconciled.touched {last : Rows} (h : r.Reconciled rows' last) : r.Touched rows' last := by
  intro id
  by_cases hlisted : id ∈ r.snapshot.ids
  · obtain ⟨entry, hentry, rfl⟩ := List.mem_map.mp hlisted
    exact .inr (.inl ⟨entry, hentry, rfl, h.listed entry hentry⟩)
  · exact .inr (.inr ⟨hlisted, h.unlisted id hlisted⟩)

/-- Both runs classify the sessions in the same way. -/
theorem Reconciled.tally_eq (h : r.Reconciled rows rows') (hlive : r.NoLiveConflict rows) :
    r.snapshot.entries.foldl (r.tally rows') {} = r.snapshot.entries.foldl (r.tally rows) {} := by
  apply List.foldl_ext
  intro result entry hentry
  have hpassed := h.listed entry hentry
  have hlive := hlive entry hentry
  unfold tally
  generalize rows[entry.sessionId]? = before at hpassed hlive ⊢
  generalize rows'[entry.sessionId]? = after at hpassed ⊢
  cases hpassed with
  | orphan => rfl
  | settled _ hsettled =>
    dsimp only
    rw [hsettled.conflicts (hlive _ rfl)]

/-- A run of the reconciliation, by its specification. -/
theorem run_cases {values : MapOrder} {answers : List Answer}
    {outcome : Outcome PersistError ReconciliationResult} {db : Database}
    (h : r.reconcileMetadata values ⟨rows, answers⟩ = (outcome, db)) :
    (outcome = .ok (r.snapshot.entries.foldl (r.tally rows) {}) ∧ r.Reconciled rows db.rows) ∨
      ∃ e, outcome = .err e ∧ r.Fails (∀ a ∈ answers, a.fault = none) rows e db.rows := by
  have hspec : Triple (At (∀ a ∈ answers, a.fault = none) (· = rows))
      (r.reconcileMetadata values) _ _ := reconcileMetadata_spec values
  have hrun := hspec ⟨rows, answers⟩ ⟨id, rfl⟩
  rw [h] at hrun
  cases outcome with
  | ok result =>
    obtain ⟨-, rfl, hreconciled⟩ := hrun
    exact .inl ⟨rfl, hreconciled⟩
  | err e => exact .inr ⟨e, rfl, hrun.rows⟩
  | panic => exact hrun.elim

/-- Where no statement fails, the second run returns what the first one did. -/
theorem Repeats.outcome {result : ReconciliationResult} (h : r.Repeats rows result)
    (values : MapOrder) : (r.reconcileMetadata values ⟨rows, []⟩).1 = .ok result := by
  rcases hrun : r.reconcileMetadata values ⟨rows, []⟩ with ⟨outcome, db⟩
  obtain ⟨-, hsame | ⟨-, a, ha, -⟩⟩ := h values [] outcome db hrun
  · exact hsame
  · cases ha

/-- Reconciling again repeats what the first run did exactly when the first run found no live
session bound to another holder. -/
theorem reconcile_twice_iff {values : MapOrder} {db db' : Database}
    {result : ReconciliationResult} (h : r.reconcileMetadata values db = (.ok result, db')) :
    r.Repeats db'.rows result ↔ r.NoLiveConflict db.rows := by
  have hfirst : r.reconcileMetadata values ⟨db.rows, db.answers⟩ = (.ok result, db') := h
  obtain ⟨hresult, hreconciled⟩ | ⟨e, he, -⟩ := run_cases hfirst
  swap
  · cases he
  cases hresult
  constructor
  · intro hrepeats entry hentry record hget hactive
    by_contra hconflict
    rw [Bool.not_eq_false] at hconflict
    -- The first run reports the session as an orphan.
    have hfirst : entry.sessionId ∈
        (r.snapshot.entries.foldl (r.tally db.rows) {}).orphanedSessions := by
      rw [mem_orphaned]
      refine .inr ⟨List.mem_map_of_mem hentry, fun record' hget' => ?_⟩
      rw [hget] at hget'
      cases hget'
      exact hconflict
    -- The second run does not: the row is bound to the current holder by now.
    have hsame := hrepeats.outcome values
    rcases hsecond : r.reconcileMetadata values ⟨db'.rows, []⟩ with ⟨outcome, last⟩
    rw [hsecond] at hsame
    cases hsame
    obtain ⟨hagain, -⟩ | ⟨e, he, -⟩ := run_cases hsecond
    swap
    · cases he
    rw [Outcome.ok.inj hagain, mem_orphaned] at hfirst
    obtain h | ⟨-, horphan⟩ := hfirst
    · cases h
    have hpassed := hreconciled.listed entry hentry
    rw [hget] at hpassed
    generalize hafter : db'.rows[entry.sessionId]? = after at hpassed
    cases hpassed with
    | settled _ hsettled =>
      have hforeign := horphan _ hafter
      cases hsettled with
      | lost => rw [instanceConflicts_bound rfl] at hforeign; cases hforeign
      | foreign _ hinactive => rw [hactive] at hinactive; cases hinactive
      | running hown => rw [hconflict] at hown; cases hown
      | exited hown => rw [hconflict] at hown; cases hown
  · intro hlive values' answers outcome last hsecond
    obtain ⟨rfl, hagain⟩ | ⟨e, rfl, htouched, hreason⟩ := run_cases hsecond
    · refine ⟨hagain.touched.same hreconciled hlive, .inl ?_⟩
      rw [hreconciled.tally_eq hlive]
    · refine ⟨htouched.same hreconciled hlive, .inr ?_⟩
      obtain ⟨operation, message, rfl, hloud⟩ | hstuck := hreason
      · refine ⟨⟨operation, message, rfl⟩, ?_⟩
        by_contra hquiet
        exact hloud fun a ha => by_contra fun hfault => hquiet ⟨a, ha, hfault⟩
      · exact absurd hstuck (hreconciled.not_stuck hlive)

end Reconciliation

/-- A live session of holder `bb…` whose row is bound to holder `aa…`. -/
def claimed : Reconciliation where
  snapshot :=
    { instanceId := List.replicate 16 187
      generation := 2
      entries := [{
        sessionId := 8, shellPid := 1, state := .running, exitCode := none, createdAtMs := 1,
        lastActiveAtMs := 2, ringBytes := 0, writerActive := false, logState := .healthy,
        exitContextAvailable := false }]
      instanceId_length := rfl
      entries_sorted := .cons nofun .nil }
  exitContexts := {}
  policy := { include_ := [], maxVariables := 128, maxBytes := 65536, fingerprint := "" }

def claimedRow : SessionRecord :=
  { name := "conflict", status := .running, createdAt := "", updatedAt := "",
    holderInstance := some "aaaaaaaaaaaaaaaaaaaaaaaaaaaaaaaa", holderGeneration := some 1 }

def anyOrder : MapOrder := ⟨id, fun _ => .refl _⟩

section
attribute [local instance] Json.serdeJson

/-- The first run reports the session as an orphan; the second one takes it for its own. -/
theorem conflict_forgotten : ∃ db, claimed.reconcileMetadata anyOrder ⟨{(8, claimedRow)}, []⟩ =
    (.ok { orphanedSessions := {8} }, db) ∧ db.rows[8]?.map (·.status) = some .lost ∧
    (claimed.reconcileMetadata anyOrder ⟨db.rows, []⟩).1 = .ok {} ∧
    (claimed.reconcileMetadata anyOrder ⟨db.rows, []⟩).2.rows[8]?.map (·.status) =
      some .running ∧
    ¬ claimed.Repeats db.rows { orphanedSessions := {8} } := by
  have hfirst : (claimed.reconcileMetadata anyOrder ⟨{(8, claimedRow)}, []⟩).1 =
      .ok { orphanedSessions := {8} } := by decide +kernel
  have hsecond : (claimed.reconcileMetadata anyOrder ⟨(claimed.reconcileMetadata anyOrder
      ⟨{(8, claimedRow)}, []⟩).2.rows, []⟩).1 = .ok {} := by decide +kernel
  refine ⟨_, Prod.ext hfirst rfl, by decide +kernel, hsecond, by decide +kernel, ?_⟩
  intro hrepeats
  have hsame := hsecond.symm.trans (hrepeats.outcome anyOrder)
  exact absurd (Outcome.ok.inj hsame) (by decide)

/-- The same session with a row that the current holder has settled before. -/
theorem reconcile_twice_iff_owned :
    claimed.Repeats (claimed.reconcileMetadata anyOrder ⟨{(8, { claimedRow with
      holderInstance := some claimed.snapshot.instanceHex })}, []⟩).2.rows {} := by
  have hfirst : (claimed.reconcileMetadata anyOrder ⟨{(8, { claimedRow with
      holderInstance := some claimed.snapshot.instanceHex })}, []⟩).1 = .ok {} := by
    decide +kernel
  apply (Reconciliation.reconcile_twice_iff (Prod.ext hfirst rfl)).mpr
  intro entry hentry record hget _
  rw [List.mem_singleton.mp hentry] at hget
  have hrow : ({(8, { claimedRow with holderInstance := some claimed.snapshot.instanceHex })} :
      Rows)[8]? = some { claimedRow with
        holderInstance := some claimed.snapshot.instanceHex } := by decide +kernel
  cases hrow.symm.trans hget
  exact Reconciliation.instanceConflicts_bound rfl

end

end PersistShell

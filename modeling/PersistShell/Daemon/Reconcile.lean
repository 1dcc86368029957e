import Mathlib.Data.Finset.Basic
import PersistShell.Ipc.Session
import PersistShell.Metadata.Environment
import PersistShell.Metadata.Store

/-! Reconciliation of the metadata with the inventory of the holder. Every session that the
holder lists is settled in its row; rows of active sessions that it does not list are marked
lost. -/

namespace PersistShell
open Program MetadataStore

/-- An exit as the daemon learns it from the holder. -/
structure ExitContext where
  sessionId : Nat
  exitCode : Int
  cwd : Option String := none
  environment : Option EnvironmentSnapshot := none
  deriving DecidableEq

/-- The sessions of a holder, in the order of their ids. -/
structure HolderInventorySnapshot where
  instanceId : Bytes
  generation : Nat
  entries : List HolderSessionEntry
  instanceId_length : instanceId.length = 16
  entries_sorted : (entries.map HolderSessionEntry.sessionId).Pairwise (· < ·)

namespace HolderInventorySnapshot

def instanceHex (snapshot : HolderInventorySnapshot) : String :=
  String.ofList (snapshot.instanceId.flatMap fun b => hexString 2 b.toNat)

def ids (snapshot : HolderInventorySnapshot) : List Nat :=
  snapshot.entries.map HolderSessionEntry.sessionId

/-- No two entries are of the same session. -/
theorem unique (snapshot : HolderInventorySnapshot)
    {done rest : List HolderSessionEntry} {entry : HolderSessionEntry}
    (h : snapshot.entries = done ++ entry :: rest) :
    ∀ other ∈ done ++ rest, other.sessionId ≠ entry.sessionId := by
  have hsorted := snapshot.entries_sorted
  rw [h, List.map_append, List.map_cons, List.pairwise_append, List.pairwise_cons] at hsorted
  obtain ⟨-, ⟨hlater, -⟩, hearlier⟩ := hsorted
  intro other hother
  rcases List.mem_append.mp hother with hother | hother
  · exact Nat.ne_of_lt
      (hearlier _ (List.mem_map_of_mem hother) _ List.mem_cons_self)
  · exact Nat.ne_of_gt (hlater _ (List.mem_map_of_mem hother))

end HolderInventorySnapshot

structure ReconciliationResult where
  orphanedSessions : Finset Nat := ∅
  exitedSessions : List Nat := []
  deriving DecidableEq

/-- The order in which a hash map hands out what is in it. -/
structure MapOrder where
  order : List (Nat × SessionRecord) → List (Nat × SessionRecord)
  perm : ∀ l, (order l).Perm l

/-- The parts of a reconciliation that stay the same over the loop. -/
structure Reconciliation where
  snapshot : HolderInventorySnapshot
  exitContexts : Std.ExtTreeMap Nat ExitContext
  policy : EnvironmentPolicy

def instanceConflicts (record : SessionRecord) (current : String) : Bool :=
  record.holderInstance.any (· ≠ current)

namespace Reconciliation
variable [SerdeJson] (r : Reconciliation)

/-- The exit code, directory and environment to write for a session that has exited. -/
def exitColumns (entry : HolderSessionEntry) :
    Except PersistError (Int × Option String × Option String) := do
  let context := r.exitContexts[entry.sessionId]?
  rejectIf (entry.exitContextAvailable ∧ context = none)
    (PersistError.invalidArgument "exited Holder context was not queried")
  match (context.map (·.exitCode)).or entry.exitCode with
  | none => throw (.invalidArgument "exited holder session is missing exit code")
  | some exitCode =>
    let environment := (context.bind (·.environment)).bind fun snapshot =>
      (encodeEnvironment snapshot r.policy).toOption
    return (exitCode, context.bind (·.cwd), environment)

def reconcileEntry (records : Rows) (result : ReconciliationResult) (entry : HolderSessionEntry) :
    Metadata ReconciliationResult := do
  let instance_ := r.snapshot.instanceHex
  match records[entry.sessionId]? with
  | none =>
    return { result with orphanedSessions := insert entry.sessionId result.orphanedSessions }
  | some record =>
    if instanceConflicts record instance_ then
      markLost entry.sessionId instance_ r.snapshot.generation
      return { result with orphanedSessions := insert entry.sessionId result.orphanedSessions }
    else match entry.state with
      | .running =>
        reconcileRunning entry.sessionId instance_ r.snapshot.generation
        return result
      | .exited =>
        let columns ← lift (r.exitColumns entry)
        reconcileExitedWithContext entry.sessionId columns.1 columns.2.1 columns.2.2 instance_
          r.snapshot.generation
        return { result with exitedSessions := result.exitedSessions ++ [entry.sessionId] }

def markMissing (row : Nat × SessionRecord) : Metadata Unit :=
  if isActive row.2.status ∧ row.1 ∉ r.snapshot.ids then
    markLost row.1 r.snapshot.instanceHex r.snapshot.generation
  else pure ()

def reconcileMetadata (values : MapOrder) : Metadata ReconciliationResult := do
  let records ← listSessions
  let result ← r.snapshot.entries.foldlM (r.reconcileEntry records) {}
  forEach (values.order records.toList) r.markMissing
  return result

/-- What an entry of the inventory does to the row of its session. -/
inductive Settled (entry : HolderSessionEntry) : SessionRecord → SessionRecord → Prop
  | lost {record : SessionRecord} (hconflict : instanceConflicts record r.snapshot.instanceHex = true)
      (hactive : isActive record.status = true) (now : String) :
      Settled entry record
        (record.setLost r.snapshot.instanceHex r.snapshot.generation now)
  | foreign {record : SessionRecord}
      (hconflict : instanceConflicts record r.snapshot.instanceHex = true)
      (hactive : isActive record.status = false) : Settled entry record record
  | running {record : SessionRecord}
      (hconflict : instanceConflicts record r.snapshot.instanceHex = false)
      (hstate : entry.state = .running) (now : String) :
      Settled entry record
        (record.setRunning r.snapshot.instanceHex r.snapshot.generation now)
  | exited {record : SessionRecord}
      (hconflict : instanceConflicts record r.snapshot.instanceHex = false)
      (hstate : entry.state = .exited) {columns : Int × Option String × Option String}
      (hcolumns : r.exitColumns entry = .ok columns) (now : String) :
      Settled entry record
        (record.setExited columns.1 columns.2.1 columns.2.2 r.snapshot.instanceHex
          r.snapshot.generation now)

/-- The result after an entry, by what the row of its session says. -/
def tally (records : Rows) (result : ReconciliationResult) (entry : HolderSessionEntry) :
    ReconciliationResult :=
  match records[entry.sessionId]? with
  | none => { result with orphanedSessions := insert entry.sessionId result.orphanedSessions }
  | some record =>
    if instanceConflicts record r.snapshot.instanceHex then
      { result with orphanedSessions := insert entry.sessionId result.orphanedSessions }
    else match entry.state with
      | .running => result
      | .exited => { result with exitedSessions := result.exitedSessions ++ [entry.sessionId] }

/-- An entry that can be settled: the holder's state is well formed and the columns of an exit
are there. -/
def Accepts (entry : HolderSessionEntry) (record : SessionRecord) : Prop :=
  validateHolderState r.snapshot.instanceHex r.snapshot.generation = .ok () ∧
    (instanceConflicts record r.snapshot.instanceHex = false → entry.state = .exited →
      ∃ columns, r.exitColumns entry = .ok columns)

/-- The row of an entry before and after it is settled. -/
inductive Passed (entry : HolderSessionEntry) : Option SessionRecord → Option SessionRecord → Prop
  | orphan : Passed entry none none
  | settled {record record' : SessionRecord} (haccepts : r.Accepts entry record)
      (hsettled : r.Settled entry record record') : Passed entry (some record) (some record')

variable {r} {quiet : Prop} {R records : Rows} {entry : HolderSessionEntry}
  {result : ReconciliationResult}

/-- The rows when one of them has been written over. -/
theorem passed_insert {record record' : SessionRecord}
    (haccepts : r.Accepts entry record) (hsettled : r.Settled entry record record') :
    (∀ id, id ≠ entry.sessionId → (R.insert entry.sessionId record')[id]? = R[id]?) ∧
      r.Passed entry (some record) (R.insert entry.sessionId record')[entry.sessionId]? := by
  constructor
  · intro id hid
    rw [NatMap.get_insert, if_neg (Ne.symm hid)]
  · rw [NatMap.get_insert, if_pos rfl]
    exact .settled haccepts hsettled

/-- One entry settles the row of its session and no other. -/
theorem reconcileEntry_spec (hrecords : records[entry.sessionId]? = R[entry.sessionId]?) :
    Triple (At quiet (· = R)) (r.reconcileEntry records result entry)
      (fun result' => At quiet fun rows => result' = r.tally records result entry ∧
        (∀ id, id ≠ entry.sessionId → rows[id]? = R[id]?) ∧
        r.Passed entry R[entry.sessionId]? rows[entry.sessionId]?)
      (fun e => At quiet fun rows => rows = R ∧
        ((∃ operation message, e = .metadata operation message ∧ ¬ quiet) ∨
          ∃ row, R[entry.sessionId]? = some row ∧ ¬ r.Accepts entry row)) := by
  unfold reconcileEntry tally
  rw [hrecords]
  cases hrow : R[entry.sessionId]? with
  | none =>
    apply Triple.pure
    intro db hdb
    refine hdb.mono fun rows hrows => ?_
    subst hrows
    rw [hrow]
    exact ⟨rfl, fun _ _ => rfl, .orphan⟩
  | some row =>
    -- An error of a statement is a fault, or the row would not have been accepted.
    have herror : ∀ e, Rejected quiet R entry.sessionId r.snapshot.instanceHex
        r.snapshot.generation e →
        (∃ operation message, e = .metadata operation message ∧ ¬ quiet) ∨
          ∃ row', some row = some row' ∧ ¬ r.Accepts entry row' := by
      intro e he
      cases he with
      | invalid h =>
        refine .inr ⟨row, rfl, fun haccepts => ?_⟩
        rw [haccepts.1] at h
        cases h
      | missing h =>
        rw [hrow] at h
        cases h
      | fault h => exact .inl ⟨_, _, rfl, h⟩
    dsimp only
    cases hconflict : instanceConflicts row r.snapshot.instanceHex with
    | true =>
      rw [if_pos rfl]
      apply Triple.bind (markLost_spec.conseq (fun _ => id) (fun _ _ => id)
        fun e db hdb => hdb.mono fun rows hrows => ⟨hrows.1, herror e hrows.2⟩)
      intro _
      apply Triple.pure
      intro db hdb
      refine hdb.mono fun rows hrows => ?_
      obtain ⟨hvalid, hrows⟩ := hrows
      have haccepts : r.Accepts entry row := by
        refine ⟨hvalid, fun hnot => ?_⟩
        rw [hconflict] at hnot
        cases hnot
      refine ⟨rfl, ?_⟩
      rcases hrows with ⟨rfl, hinactive⟩ | ⟨row', now, hrow', hactive, rfl⟩
      · rw [hrow]
        exact ⟨fun _ _ => rfl, .settled haccepts (.foreign hconflict (hinactive row hrow))⟩
      · rw [hrow] at hrow'
        cases hrow'
        exact passed_insert haccepts (.lost hconflict hactive now)
    | false =>
      rw [if_neg Bool.false_ne_true]
      cases hstate : entry.state with
      | running =>
        apply Triple.bind (settle_spec.conseq (fun _ => id) (fun _ _ => id)
          fun e db hdb => hdb.mono fun rows hrows => ⟨hrows.1, herror e hrows.2⟩)
        intro _
        apply Triple.pure
        intro db hdb
        refine hdb.mono fun rows hrows => ?_
        obtain ⟨hvalid, row', now, hrow', rfl⟩ := hrows
        rw [hrow] at hrow'
        cases hrow'
        have haccepts : r.Accepts entry row := ⟨hvalid, fun _ h => by rw [hstate] at h; cases h⟩
        exact ⟨rfl, passed_insert haccepts
          (.running hconflict hstate now)⟩
      | exited =>
        apply Triple.bind (Q := fun columns => At quiet fun rows =>
          rows = R ∧ r.exitColumns entry = .ok columns)
        · apply Triple.lift
          · intro columns hcolumns db hdb
            exact hdb.mono fun rows hrows => ⟨hrows, hcolumns⟩
          · intro e hcolumns db hdb
            refine hdb.mono fun rows hrows => ⟨hrows, .inr ⟨row, rfl, fun haccepts => ?_⟩⟩
            obtain ⟨columns, h⟩ := haccepts.2 hconflict hstate
            rw [hcolumns] at h
            cases h
        intro columns
        by_cases hcolumns : r.exitColumns entry = .ok columns
        · apply Triple.bind (settle_spec.conseq
            (fun db hdb => hdb.mono fun rows hrows => hrows.1) (fun _ _ => id)
            fun e db hdb => hdb.mono fun rows hrows => ⟨hrows.1, herror e hrows.2⟩)
          intro _
          apply Triple.pure
          intro db hdb
          refine hdb.mono fun rows hrows => ?_
          obtain ⟨hvalid, row', now, hrow', rfl⟩ := hrows
          rw [hrow] at hrow'
          cases hrow'
          have haccepts : r.Accepts entry row := ⟨hvalid, fun _ _ => ⟨columns, hcolumns⟩⟩
          exact ⟨rfl, passed_insert haccepts
            (.exited hconflict hstate hcolumns now)⟩
        · exact Triple.of_false fun db hdb => hcolumns hdb.rows.2

variable (r) in
/-- The row of a session that the holder does not list. -/
inductive Swept : Option SessionRecord → Option SessionRecord → Prop
  | missing : Swept none none
  | inactive {record : SessionRecord} (h : isActive record.status = false) :
      Swept (some record) (some record)
  | lost {record : SessionRecord} (h : isActive record.status = true)
      (hvalid : validateHolderState r.snapshot.instanceHex r.snapshot.generation = .ok ())
      (now : String) : Swept (some record)
        (some (record.setLost r.snapshot.instanceHex r.snapshot.generation now))

variable (r) in
/-- Every row is as a reconciliation of the rows `R` leaves it. -/
structure Reconciled (R rows : Rows) : Prop where
  listed : ∀ entry ∈ r.snapshot.entries, r.Passed entry R[entry.sessionId]? rows[entry.sessionId]?
  unlisted : ∀ id, id ∉ r.snapshot.ids → r.Swept R[id]? rows[id]?

variable (r) in
/-- Every row is as it was, or as a reconciliation of the rows `R` leaves it. -/
def Touched (R rows : Rows) : Prop :=
  ∀ id, rows[id]? = R[id]? ∨
    (∃ entry ∈ r.snapshot.entries, entry.sessionId = id ∧ r.Passed entry R[id]? rows[id]?) ∨
    (id ∉ r.snapshot.ids ∧ r.Swept R[id]? rows[id]?)

variable (r) in
/-- Some row cannot be reconciled. -/
def Stuck (R : Rows) : Prop :=
  (∃ entry ∈ r.snapshot.entries, ∃ row, R[entry.sessionId]? = some row ∧ ¬ r.Accepts entry row) ∨
    ∃ id row, id ∉ r.snapshot.ids ∧ R[id]? = some row ∧ isActive row.status = true ∧
      validateHolderState r.snapshot.instanceHex r.snapshot.generation ≠ .ok ()

variable (r) in
/-- How a reconciliation of the rows `R` fails. -/
def Fails (quiet : Prop) (R : Rows) (e : PersistError) (rows : Rows) : Prop :=
  r.Touched R rows ∧ ((∃ operation message, e = .metadata operation message ∧ ¬ quiet) ∨ r.Stuck R)

variable (r) in
/-- The loop over the inventory, with `rest` still to come. -/
structure Underway (R : Rows) (rest : List HolderSessionEntry) (result : ReconciliationResult)
    (rows : Rows) : Prop where
  done : ∃ done, r.snapshot.entries = done ++ rest ∧ result = done.foldl (r.tally R) {} ∧
    ∀ entry ∈ done, r.Passed entry R[entry.sessionId]? rows[entry.sessionId]?
  others : ∀ id, (∀ entry ∈ rest, entry.sessionId ≠ id) → id ∈ r.snapshot.ids ∨ rows[id]? = R[id]?
  ahead : ∀ entry ∈ rest, rows[entry.sessionId]? = R[entry.sessionId]?

theorem Underway.touched {rest : List HolderSessionEntry} {rows : Rows}
    (h : r.Underway R rest result rows) : r.Touched R rows := by
  intro id
  obtain ⟨done, hsplit, -, hdone⟩ := h.done
  by_cases hahead : ∃ entry ∈ rest, entry.sessionId = id
  · obtain ⟨entry, hentry, rfl⟩ := hahead
    exact .inl (h.ahead entry hentry)
  · rcases h.others id fun entry hentry hid => hahead ⟨entry, hentry, hid⟩ with hlisted | hsame
    · obtain ⟨entry, hentry, rfl⟩ := List.mem_map.mp hlisted
      have hmem : entry ∈ done := by
        rw [hsplit] at hentry
        rcases List.mem_append.mp hentry with hentry | hentry
        · exact hentry
        · exact absurd ⟨entry, hentry, rfl⟩ hahead
      exact .inr (.inl ⟨entry, hsplit ▸ List.mem_append_left _ hmem, rfl, hdone entry hmem⟩)
    · exact .inl hsame

theorem reconcileEntry_underway {rest : List HolderSessionEntry} :
    Triple (At quiet (r.Underway R (entry :: rest) result)) (r.reconcileEntry R result entry)
      (fun result' => At quiet (r.Underway R rest result'))
      (fun e => At quiet (r.Fails quiet R e)) := by
  apply Triple.each
  intro db hdb
  have hahead := hdb.rows.ahead entry List.mem_cons_self
  have hentry : Triple (At quiet (· = db.rows)) (r.reconcileEntry R result entry) _ _ :=
    reconcileEntry_spec hahead.symm
  apply hentry.conseq
  · rintro _ rfl
    exact ⟨hdb.answers, rfl⟩
  · intro result' db' hdb'
    refine hdb'.mono fun rows hrows => ?_
    obtain ⟨rfl, hothers, hpassed⟩ := hrows
    obtain ⟨done, hsplit, rfl, hdone⟩ := hdb.rows.done
    have hunique := r.snapshot.unique hsplit
    rw [hahead] at hpassed
    refine ⟨⟨done ++ [entry], ?_, ?_, ?_⟩, ?_, ?_⟩
    · rw [hsplit, List.append_assoc, List.singleton_append]
    · rw [List.foldl_append, List.foldl_cons, List.foldl_nil]
    · intro other hother
      rcases List.mem_append.mp hother with hother | hother
      · rw [hothers _ (hunique other (List.mem_append_left _ hother))]
        exact hdone other hother
      · rw [List.mem_singleton.mp hother]
        exact hpassed
    · intro id hid
      by_cases heq : entry.sessionId = id
      · left
        rw [← heq]
        apply List.mem_map_of_mem
        rw [hsplit]
        exact List.mem_append_right _ List.mem_cons_self
      · rw [hothers id (Ne.symm heq)]
        apply hdb.rows.others id
        intro other hother
        rcases List.mem_cons.mp hother with rfl | hother
        · exact heq
        · exact hid other hother
    · intro other hother
      rw [hothers _ (hunique other (List.mem_append_right _ hother))]
      exact hdb.rows.ahead other (List.mem_cons_of_mem _ hother)
  · intro e db' hdb'
    refine hdb'.mono fun rows hrows => ?_
    obtain ⟨rfl, hreason⟩ := hrows
    refine ⟨hdb.rows.touched, hreason.imp_right fun ⟨row, hrow, hrefused⟩ => ?_⟩
    obtain ⟨done, hsplit, -, -⟩ := hdb.rows.done
    refine .inl ⟨entry, ?_, row, hahead ▸ hrow, hrefused⟩
    rw [hsplit]
    exact List.mem_append_right _ List.mem_cons_self

variable (r) in
/-- The pass over the rows that the holder does not list, with `rest` still to come. -/
structure Sweeping (R : Rows) (rest : List (Nat × SessionRecord)) (rows : Rows) : Prop where
  listed : ∀ entry ∈ r.snapshot.entries, r.Passed entry R[entry.sessionId]? rows[entry.sessionId]?
  unlisted : ∀ id, id ∉ r.snapshot.ids → r.Swept R[id]? rows[id]? ∨
    rows[id]? = R[id]? ∧ ∃ row, R[id]? = some row ∧ isActive row.status = true ∧ (id, row) ∈ rest

theorem Sweeping.touched {rest : List (Nat × SessionRecord)} {rows : Rows}
    (h : r.Sweeping R rest rows) : r.Touched R rows := by
  intro id
  by_cases hlisted : id ∈ r.snapshot.ids
  · obtain ⟨entry, hentry, rfl⟩ := List.mem_map.mp hlisted
    exact .inr (.inl ⟨entry, hentry, rfl, h.listed entry hentry⟩)
  · rcases h.unlisted id hlisted with hswept | ⟨hsame, -⟩
    · exact .inr (.inr ⟨hlisted, hswept⟩)
    · exact .inl hsame

theorem markMissing_spec {row : Nat × SessionRecord} {rest : List (Nat × SessionRecord)}
    (hrow : R[row.1]? = some row.2) :
    Triple (At quiet (r.Sweeping R (row :: rest))) (r.markMissing row)
      (fun _ => At quiet (r.Sweeping R rest)) (fun e => At quiet (r.Fails quiet R e)) := by
  unfold markMissing
  split
  case isTrue hmissing =>
    apply Triple.each
    intro db hdb
    have hlost : Triple (At quiet (· = db.rows))
        (markLost row.1 r.snapshot.instanceHex r.snapshot.generation) _ _ := markLost_spec
    apply hlost.conseq
    · rintro _ rfl
      exact ⟨hdb.answers, rfl⟩
    · intro _ db' hdb'
      refine hdb'.mono fun rows hrows => ?_
      obtain ⟨hvalid, hrows⟩ := hrows
      -- The row is swept now: marked lost by this statement, or not active before it.
      have hswept : r.Swept R[row.1]? rows[row.1]? := by
        rcases hdb.rows.unlisted row.1 hmissing.2 with hswept | ⟨hsame, -⟩
        · rcases hrows with ⟨rfl, -⟩ | ⟨now', record, hget, hactive, -⟩
          · exact hswept
          · rw [hget, hrow] at hswept
            cases hswept with
            | inactive h => rw [h] at hactive; cases hactive
            | lost => cases hactive
        · rcases hrows with ⟨rfl, hinactive⟩ | ⟨record, now, hget, hactive, rfl⟩
          · have := hinactive row.2 (hsame.trans hrow)
            rw [hmissing.1] at this
            cases this
          · rw [hsame, hrow] at hget
            cases hget
            rw [hrow, NatMap.get_insert, if_pos rfl]
            exact .lost hactive hvalid now
      have hothers : ∀ id, id ≠ row.1 → rows[id]? = db.rows[id]? := by
        intro id hid
        rcases hrows with ⟨rfl, -⟩ | ⟨record, now, -, -, rfl⟩
        · rfl
        · rw [NatMap.get_insert, if_neg (Ne.symm hid)]
      constructor
      · intro entry hentry
        have hne : entry.sessionId ≠ row.1 := fun heq =>
          hmissing.2 (heq ▸ List.mem_map_of_mem hentry)
        rw [hothers _ hne]
        exact hdb.rows.listed entry hentry
      · intro id hid
        by_cases heq : id = row.1
        · exact .inl (heq ▸ hswept)
        · rw [hothers id heq]
          refine (hdb.rows.unlisted id hid).imp_right
            fun ⟨hsame, record, hget, hactive, hmem⟩ => ⟨hsame, record, hget, hactive, ?_⟩
          rcases List.mem_cons.mp hmem with h | h
          · exact absurd (congrArg Prod.fst h) heq
          · exact h
    · intro e db' hdb'
      refine hdb'.mono fun rows hrows => ?_
      obtain ⟨rfl, hrejected⟩ := hrows
      refine ⟨hdb.rows.touched, ?_⟩
      cases hrejected with
      | invalid h =>
        refine .inr (.inr ⟨row.1, row.2, hmissing.2, hrow, hmissing.1, fun hvalid => ?_⟩)
        rw [hvalid] at h
        cases h
      | fault h => exact .inl ⟨_, _, rfl, h⟩
      | missing h =>
        rcases hdb.rows.unlisted row.1 hmissing.2 with hswept | ⟨hsame, -⟩
        · rw [h, hrow] at hswept
          cases hswept
        · rw [h, hrow] at hsame
          cases hsame
  case isFalse hlisted =>
    apply Triple.pure
    intro db hdb
    refine hdb.mono fun rows hrows => ⟨hrows.listed, fun id hid => ?_⟩
    refine (hrows.unlisted id hid).imp_right
      fun ⟨hsame, record, hget, hactive, hmem⟩ => ⟨hsame, record, hget, hactive, ?_⟩
    rcases List.mem_cons.mp hmem with rfl | h
    · exact absurd ⟨hactive, hid⟩ hlisted
    · exact h

theorem sweep_spec {rest : List (Nat × SessionRecord)}
    (hrows : ∀ row ∈ rest, R[row.1]? = some row.2) :
    Triple (At quiet (r.Sweeping R rest)) (forEach rest r.markMissing)
      (fun _ => At quiet (r.Sweeping R [])) (fun e => At quiet (r.Fails quiet R e)) := by
  induction rest with
  | nil => exact Triple.pure fun _ => id
  | cons row rest ih =>
    apply Triple.bind (markMissing_spec (hrows row List.mem_cons_self))
    exact fun _ => ih fun other hother => hrows other (List.mem_cons_of_mem _ hother)

/-- After the loop, the active rows that are not listed are still to be swept. -/
theorem Underway.sweeping {rows : Rows} (h : r.Underway R [] result rows)
    {rest : List (Nat × SessionRecord)} (hall : ∀ row, R[row.1]? = some row.2 → row ∈ rest) :
    r.Sweeping R rest rows ∧ result = r.snapshot.entries.foldl (r.tally R) {} := by
  obtain ⟨done, hsplit, hresult, hdone⟩ := h.done
  rw [List.append_nil] at hsplit
  subst hsplit
  refine ⟨⟨hdone, fun id hid => ?_⟩, hresult⟩
  have hsame : rows[id]? = R[id]? := (h.others id nofun).resolve_left hid
  rw [hsame]
  cases hrow : R[id]? with
  | none => exact .inl .missing
  | some row =>
    cases hactive : isActive row.status with
    | false => exact .inl (.inactive hactive)
    | true => exact .inr ⟨rfl, row, rfl, hactive, hall (id, row) hrow⟩

/-- What a reconciliation of the rows `R` returns, and the rows it leaves. -/
theorem reconcileMetadata_spec (values : MapOrder) :
    Triple (At quiet (· = R)) (r.reconcileMetadata values)
      (fun result => At quiet fun rows =>
        result = r.snapshot.entries.foldl (r.tally R) {} ∧ r.Reconciled R rows)
      (fun e => At quiet (r.Fails quiet R e)) := by
  have hvalues : ∀ row, row ∈ values.order R.toList ↔ R[row.1]? = some row.2 := fun row =>
    (values.perm _).mem_iff.trans Std.ExtTreeMap.mem_toList_iff_getElem?_eq_some
  apply Triple.bind (query_spec (Q := fun records rows => records = R ∧ rows = R) ?_ ?_)
  · intro records
    by_cases hrecords : records = R
    swap
    · exact Triple.of_false fun db hdb => hrecords hdb.rows.1
    subst hrecords
    apply Triple.bind (Triple.pre (Triple.foldlM (I := fun rest result =>
      At quiet (r.Underway records rest result)) (fun entry rest result =>
        reconcileEntry_underway) r.snapshot.entries {}) ?_)
    · intro result
      apply Triple.bind (Q := fun _ => At quiet fun rows =>
        r.Sweeping records [] rows ∧ result = r.snapshot.entries.foldl (r.tally records) {})
      · intro db hdb
        obtain ⟨hsweeping, hresult⟩ := hdb.rows.sweeping fun row => (hvalues row).mpr
        exact (sweep_spec fun row => (hvalues row).mp).post
          (fun _ db' hdb' => hdb'.mono fun rows hrows => ⟨hrows, hresult⟩) db
          ⟨hdb.answers, hsweeping⟩
      · intro _
        apply Triple.pure
        intro db hdb
        refine hdb.mono fun rows hrows => ⟨hrows.2, hrows.1.listed, fun id hid => ?_⟩
        refine (hrows.1.unlisted id hid).resolve_right ?_
        rintro ⟨-, row, -, -, hmem⟩
        cases hmem
    · intro db hdb
      refine hdb.mono fun rows hrows => ?_
      obtain ⟨-, rfl⟩ := hrows
      exact ⟨⟨[], rfl, rfl, nofun⟩, fun id _ => .inr rfl, fun _ _ => rfl⟩
  · rintro rows rfl
    exact ⟨rfl, rfl⟩
  · rintro hloud message rows rfl
    exact ⟨fun id => .inl rfl, .inl ⟨_, _, rfl, hloud⟩⟩

end Reconciliation

end PersistShell

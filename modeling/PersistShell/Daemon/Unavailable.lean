import PersistShell.Core.Json
import PersistShell.Daemon.Finalize

/-! What becomes of the stored environment when the last capture of a session failed. The
failed capture comes as an empty snapshot; it goes through the same filter and encoder as any
other, and replaces what was stored whenever they take it. -/

namespace PersistShell
open Program MetadataStore

section failedCapture

variable [SerdeJson]

/-- The environment column afterwards is the one before, or that of the observed fallback. -/
def KeepsTrusted (before : SessionRecord) (fallback : Option String)
    (after : Option SessionRecord) : Prop :=
  ∃ record, after = some record ∧ (record.envSnapshot = before.envSnapshot ∨
    ∃ text, fallback = some text ∧ record.envSnapshot = some text)

/-- The text of the failed capture, where the policy takes it at all, is what is stored or
observed anyhow. -/
def Harmless (failed : EnvironmentSnapshot) (policy : EnvironmentPolicy) (before : SessionRecord)
    (fallback : Option String) : Prop :=
  ∀ text, encodeEnvironment failed policy = .ok text →
    before.envSnapshot = some text ∨ fallback = some text

/-- A column written with the encoded failed capture, or with the fallback where the capture
was refused before. -/
theorem keepsTrusted_iff {failed : EnvironmentSnapshot} {policy : EnvironmentPolicy}
    {before after : SessionRecord} {fallback : Option String}
    (h : (∃ text, encodeEnvironment failed policy = .ok text ∧ after.envSnapshot = some text) ∨
      (∀ text, encodeEnvironment failed policy ≠ .ok text) ∧
        (after.envSnapshot = before.envSnapshot ∨
          ∃ text, fallback = some text ∧ after.envSnapshot = some text)) :
    KeepsTrusted before fallback (some after) ↔ Harmless failed policy before fallback := by
  rcases h with ⟨text, htext, hafter⟩ | ⟨hrefused, hkept⟩
  · constructor
    · rintro ⟨_, ⟨⟩, hkept⟩ text' htext'
      rw [htext] at htext'
      cases htext'
      rw [hafter] at hkept
      rcases hkept with hsame | ⟨text', hfallback, heq⟩
      · exact .inl hsame.symm
      · cases heq
        exact .inr hfallback
    · intro hharmless
      refine ⟨after, rfl, ?_⟩
      rcases hharmless text htext with hsame | hfallback
      · exact .inl (hafter.trans hsame.symm)
      · exact .inr ⟨text, hfallback, hafter⟩
  · exact iff_of_true ⟨after, rfl, hkept⟩ fun text htext => absurd htext (hrefused text)

/-- What the closing statement writes into the environment column. -/
theorem setClosed_column {context : ExitContext} {policy : EnvironmentPolicy}
    {direct : RecoveryContext} {stored : Option RecoveryContext} {failed : EnvironmentSnapshot}
    {config : RecoveryEnvironmentConfig} {before : SessionRecord} {now : String}
    (hpolicy : config.policy = .ok policy) (hfailed : context.environment = some failed) :
    KeepsTrusted before ((direct.mergeWithFallback stored).encoded policy)
        (some (before.setClosed context.exitCode (context.closed policy direct stored).recoveryContext.cwd
          ((context.closed policy direct stored).recoveryContext.encoded policy) now)) ↔
      Harmless failed policy before ((direct.mergeWithFallback stored).encoded policy) := by
  obtain ⟨hvariables, hbytes⟩ := EnvironmentPolicy.new_limits hpolicy
  apply keepsTrusted_iff
  have henvironment : (context.closed policy direct stored).recoveryContext.environment =
      (policy.filterSnapshot failed).toOption.or
        (direct.mergeWithFallback stored).environment := by
    unfold ExitContext.closed
    rw [hfailed]
    rfl
  have hcolumn : (before.setClosed context.exitCode
      (context.closed policy direct stored).recoveryContext.cwd
      ((context.closed policy direct stored).recoveryContext.encoded policy) now).envSnapshot =
      ((context.closed policy direct stored).recoveryContext.encoded policy).or
        before.envSnapshot := by
    cases (context.closed policy direct stored).recoveryContext.encoded policy <;> rfl
  rw [hcolumn, RecoveryContext.encoded, henvironment]
  cases hfilter : policy.filterSnapshot failed with
  | ok snapshot =>
    have htext := encodeEnvironment_filtered hvariables hbytes hfilter
    dsimp only [Except.toOption, Option.or, Option.bind]
    rw [htext]
    cases hencode : encodeEnvironment failed policy with
    | ok text => exact .inl ⟨text, rfl, rfl⟩
    | error e => exact .inr ⟨nofun, .inl rfl⟩
  | error e =>
    have hrefused : ∀ text, encodeEnvironment failed policy ≠ .ok text := by
      intro text h
      obtain ⟨snapshot, hok, -⟩ := bind_eq_ok.mp h
      rw [hfilter] at hok
      cases hok
    refine .inr ⟨hrefused, ?_⟩
    change (((direct.mergeWithFallback stored).encoded policy).or before.envSnapshot =
      before.envSnapshot) ∨ ∃ text, _ ∧
        ((direct.mergeWithFallback stored).encoded policy).or before.envSnapshot = some text
    cases hfallback : (direct.mergeWithFallback stored).encoded policy with
    | none => exact .inl rfl
    | some text => exact .inr ⟨text, rfl, rfl⟩

/-- An exit is finalized from the context `closing`, and a row of the session is there. -/
structure Finalized (s : SessionId) (observedExit : Option ExitContext) (d : Daemon)
    (closing : Daemon.Closing) (before : SessionRecord) (after : Option SessionRecord) : Prop where
  gathered : (Daemon.gather s observedExit d).1 = .ok (some closing)
  returned : (Daemon.finalizeRuntimeExit s observedExit d).1 = .ok ()
  before : d.database.rows[s]? = some before
  after : (Daemon.finalizeRuntimeExit s observedExit d).2.database.rows[s]? = after

/-- An exit is reconciled with `context`, and a row of the session that is not another
holder's is there. -/
structure Exited (r : Reconciliation) (values : MapOrder) (db : Database)
    (entry : HolderSessionEntry) (context : ExitContext) (before : SessionRecord)
    (after : Option SessionRecord) : Prop where
  listed : entry ∈ r.snapshot.entries
  exited : entry.state = .exited
  context : r.exitContexts[entry.sessionId]? = some context
  own : instanceConflicts before r.snapshot.instanceHex = false
  returned : ∃ result, (r.reconcileMetadata values db).1 = .ok result
  before : db.rows[entry.sessionId]? = some before
  after : (r.reconcileMetadata values db).2.rows[entry.sessionId]? = after

theorem Finalized.column {s : SessionId} {observedExit : Option ExitContext} {d : Daemon}
    {closing : Daemon.Closing} {before : SessionRecord} {after : Option SessionRecord}
    (h : Finalized s observedExit d closing before after) :
    d.manager.recoveryEnvironment.policy = .ok closing.policy ∧ ∃ now,
      after = some (before.setClosed closing.context.exitCode
        (closing.context.closed closing.policy closing.direct closing.stored).recoveryContext.cwd
        ((closing.context.closed closing.policy closing.direct
          closing.stored).recoveryContext.encoded closing.policy) now) := by
  have hfinalize : Daemon.finalizeRuntimeExit s observedExit d = (.ok (), _) :=
    Prod.ext h.returned rfl
  obtain ⟨closing', d₁, hgather, hcommit⟩ := Daemon.finalize_returns hfinalize
  have hsame := h.gathered
  rw [hgather] at hsame
  cases hsame
  have hpolicy := Daemon.gather_policy hgather
  have hkept : d₁.database = d.database ∧ d₁.manager = d.manager :=
    (Daemon.leaves_gather (J := fun e => e.database = d.database ∧ e.manager = d.manager)
      (fun _ _ _ _ => id) observedExit).run hgather ⟨rfl, rfl⟩
  refine ⟨hpolicy, ?_⟩
  rw [← hkept.2] at hpolicy
  have hwritten := Daemon.commitClosed_returns hpolicy hcommit
  have hafter := h.after
  rw [hkept.1, h.before] at hwritten
  rcases hwritten with ⟨hnone, -⟩ | ⟨record, now, hrecord, hrows⟩
  · cases hnone
  · cases hrecord
    refine ⟨now, ?_⟩
    rw [← hafter, hrows, NatMap.get_insert, if_pos rfl]
    rfl

theorem Exited.column {r : Reconciliation} {values : MapOrder} {db : Database}
    {entry : HolderSessionEntry} {context : ExitContext} {before : SessionRecord}
    {after : Option SessionRecord} (h : Exited r values db entry context before after) :
    ∃ record, after = some record ∧ record.envSnapshot =
      (context.environment.bind fun snapshot =>
        (encodeEnvironment snapshot r.policy).toOption).or before.envSnapshot := by
  obtain ⟨result, hresult⟩ := h.returned
  have hspec : Triple (At False (· = db.rows)) (r.reconcileMetadata values) _ _ :=
    Reconciliation.reconcileMetadata_spec values
  have hrun := hspec db ⟨False.elim, rfl⟩
  rw [show r.reconcileMetadata values db = (.ok result, _) from Prod.ext hresult rfl] at hrun
  obtain ⟨-, -, hreconciled⟩ := hrun
  have hpassed := hreconciled.listed entry h.listed
  have hafter := h.after
  rw [h.before] at hpassed
  generalize (r.reconcileMetadata values db).2.rows[entry.sessionId]? = written at hpassed hafter
  cases hpassed with
  | settled _ hsettled =>
    refine ⟨_, hafter.symm, ?_⟩
    cases hsettled with
    | lost hconflict => rw [h.own] at hconflict; cases hconflict
    | foreign hconflict => rw [h.own] at hconflict; cases hconflict
    | running _ hstate => rw [h.exited] at hstate; cases hstate
    | exited _ _ hcolumns =>
      obtain ⟨_, -, hcolumns⟩ := bind_eq_ok.mp hcolumns
      rw [h.context] at hcolumns
      cases hcolumns
      dsimp only [SessionRecord.setExited, Option.bind_some]
      cases (context.environment.bind fun snapshot =>
        (encodeEnvironment snapshot r.policy).toOption) <;> rfl

/-- On both ways to the end of a session, a capture that failed leaves the trusted environment
in place exactly when its own text is refused or is there already. -/
theorem unavailable_capture_iff :
    (∀ s observedExit d closing before after failed,
      Finalized s observedExit d closing before after →
      closing.context.environment = some failed → failed.captureStatus = .unavailable →
      (KeepsTrusted before
          ((closing.direct.mergeWithFallback closing.stored).encoded closing.policy) after ↔
        Harmless failed closing.policy before
          ((closing.direct.mergeWithFallback closing.stored).encoded closing.policy))) ∧
    ∀ r values db entry context before after failed fallback,
      Exited r values db entry context before after →
      context.environment = some failed → failed.captureStatus = .unavailable →
      (KeepsTrusted before fallback after ↔ Harmless failed r.policy before fallback) := by
  constructor
  · intro s observedExit d closing before after failed h hfailed _
    obtain ⟨hpolicy, now, rfl⟩ := h.column
    exact setClosed_column hpolicy hfailed
  · intro r values db entry context before after failed fallback h hfailed _
    obtain ⟨record, rfl, hcolumn⟩ := h.column
    rw [hfailed, Option.bind_some] at hcolumn
    apply keepsTrusted_iff
    rw [hcolumn]
    cases encodeEnvironment failed r.policy with
    | ok text => exact .inl ⟨text, rfl, rfl⟩
    | error e => exact .inr ⟨nofun, .inl rfl⟩

end failedCapture

section sample
attribute [local instance] Json.serdeJson

/-- A capture that failed under an earlier policy. -/
def failedCapture : EnvironmentSnapshot where
  formatVersion := 1
  policyVersion := 1
  policyFingerprint := "0123456789abcdef"
  envSet := []
  envUnset := []
  captureStatus := .unavailable
  envSet_sorted := EnvironmentSnapshot.sorted_nil
  envUnset_sorted := EnvironmentSnapshot.sorted_nil

def failedExit : ExitContext :=
  { sessionId := 7, exitCode := 0, cwd := some "/srv", environment := some failedCapture }

def trustedRow : SessionRecord :=
  { name := "work", status := .running, createdAt := "", updatedAt := ""
    envSnapshot := some "\x7b\"LANG\":\"C.UTF-8\"\x7d" }

def exitedEntry : HolderSessionEntry :=
  { sessionId := 7, shellPid := 1, state := .exited, exitCode := some 0, createdAtMs := 1,
    lastActiveAtMs := 2, ringBytes := 0, writerActive := false, logState := .healthy,
    exitContextAvailable := true }

def exitedInventory : HolderInventorySnapshot where
  instanceId := List.replicate 16 1
  generation := 2
  entries := [exitedEntry]
  instanceId_length := rfl
  entries_sorted := .cons nofun .nil

def exitedSession : Session where
  pty := none
  shellPid := 1
  ring := (RingBuffer.new 1).get (by decide)
  logPath := none
  logState := .disabled
  createdAtMs := 1
  lastActiveAtMs := 2
  exitCode := some 0

/-- A daemon with a session that has exited, and the limit on the text of an environment. -/
def failedDaemon (maxBytes : Nat) : Daemon where
  manager := { recoveryEnvironment := { maxBytes } }
  database := { rows := {(7, trustedRow)} }
  holder := { stateDir := "/run/session-state", sessions := {(7, exitedSession)} }
  instanceId := ⟨List.replicate 16 1, rfl⟩
  cache := exitedInventory

def failedPolicy (maxBytes : Nat) : EnvironmentPolicy :=
  (({ maxBytes } : RecoveryEnvironmentConfig).policy.toOption).getD ⟨[], 0, 0, ""⟩

def failedReconciliation (maxBytes : Nat) : Reconciliation where
  snapshot := exitedInventory
  exitContexts := {(7, failedExit)}
  policy := failedPolicy maxBytes

def failedClosing (maxBytes : Nat) : Daemon.Closing where
  policy := failedPolicy maxBytes
  direct := {}
  stored := none
  context := failedExit

theorem failedDaemon_finalized {maxBytes : Nat}
    (hgather : (Daemon.gather 7 (some failedExit) (failedDaemon maxBytes)).1 =
      .ok (some (failedClosing maxBytes)))
    (hreturn : (Daemon.finalizeRuntimeExit 7 (some failedExit) (failedDaemon maxBytes)).1 =
      .ok ()) :
    Finalized 7 (some failedExit) (failedDaemon maxBytes) (failedClosing maxBytes) trustedRow
      (Daemon.finalizeRuntimeExit 7 (some failedExit)
        (failedDaemon maxBytes)).2.database.rows[7]? where
  gathered := hgather
  returned := hreturn
  before := NatMap.get_singleton 7 trustedRow
  after := rfl

theorem failedReconciliation_exited {maxBytes : Nat} {result : ReconciliationResult}
    (hreturn : ((failedReconciliation maxBytes).reconcileMetadata ⟨id, fun _ => .refl _⟩
      ⟨{(7, trustedRow)}, []⟩).1 = .ok result) :
    Exited (failedReconciliation maxBytes) ⟨id, fun _ => .refl _⟩ ⟨{(7, trustedRow)}, []⟩
      exitedEntry failedExit trustedRow
      ((failedReconciliation maxBytes).reconcileMetadata ⟨id, fun _ => .refl _⟩
        ⟨{(7, trustedRow)}, []⟩).2.rows[7]? where
  listed := List.mem_singleton_self _
  exited := rfl
  context := NatMap.get_singleton 7 failedExit
  own := rfl
  returned := ⟨result, hreturn⟩
  before := NatMap.get_singleton 7 trustedRow
  after := rfl

theorem not_keepsTrusted {before : SessionRecord} {after : Option SessionRecord}
    {text : Option String} (hafter : after.map (·.envSnapshot) = some text)
    (hbefore : text ≠ before.envSnapshot) : ¬ KeepsTrusted before none after := by
  rintro ⟨record, rfl, hsame | ⟨_, h, -⟩⟩
  · exact hbefore ((Option.some.inj hafter).symm.trans hsame)
  · cases h

/-- The text of an empty environment, relabelled because the capture was made under another
policy, takes the place of the stored one on both ways. -/
theorem failed_capture_stored :
    (∃ after, Finalized 7 (some failedExit) (failedDaemon 65536) (failedClosing 65536) trustedRow
        after ∧ ¬ KeepsTrusted trustedRow none after) ∧
      ∃ after, Exited (failedReconciliation 65536) ⟨id, fun _ => .refl _⟩
        ⟨{(7, trustedRow)}, []⟩ exitedEntry failedExit trustedRow after ∧
          ¬ KeepsTrusted trustedRow none after := by
  have hreconciled : ((failedReconciliation 65536).reconcileMetadata ⟨id, fun _ => .refl _⟩
      ⟨{(7, trustedRow)}, []⟩).1 = .ok { exitedSessions := [7] } := by decide +kernel
  refine ⟨⟨_, failedDaemon_finalized (by decide +kernel) (by decide +kernel), ?_⟩,
    _, failedReconciliation_exited hreconciled, ?_⟩
  · have hafter : (Daemon.finalizeRuntimeExit 7 (some failedExit)
        (failedDaemon 65536)).2.database.rows[7]?.map (·.envSnapshot) =
        some (some (Json.snapshotText ((failedPolicy 65536).filtered failedCapture))) := by
      decide +kernel
    exact not_keepsTrusted hafter (by decide +kernel)
  · have hafter : ((failedReconciliation 65536).reconcileMetadata ⟨id, fun _ => .refl _⟩
        ⟨{(7, trustedRow)}, []⟩).2.rows[7]?.map (·.envSnapshot) =
        some (some (Json.snapshotText ((failedPolicy 65536).filtered failedCapture))) := by
      decide +kernel
    exact not_keepsTrusted hafter (by decide +kernel)

/-- Where the text of an empty environment is over the limit, the stored one stays. -/
theorem unavailable_capture_refused :
    KeepsTrusted trustedRow none (Daemon.finalizeRuntimeExit 7 (some failedExit)
        (failedDaemon 16)).2.database.rows[7]? ∧
      KeepsTrusted trustedRow none ((failedReconciliation 16).reconcileMetadata
        ⟨id, fun _ => .refl _⟩ ⟨{(7, trustedRow)}, []⟩).2.rows[7]? := by
  have hreconciled : ((failedReconciliation 16).reconcileMetadata ⟨id, fun _ => .refl _⟩
      ⟨{(7, trustedRow)}, []⟩).1 = .ok { exitedSessions := [7] } := by decide +kernel
  have hrefused : (encodeEnvironment failedCapture (failedPolicy 16)).toOption = none := by
    decide +kernel
  have hharmless : Harmless failedCapture (failedPolicy 16) trustedRow none := by
    intro text htext
    rw [htext] at hrefused
    cases hrefused
  exact ⟨(unavailable_capture_iff.1 _ _ _ _ _ _ _
      (failedDaemon_finalized (by decide +kernel) (by decide +kernel)) rfl rfl).mpr hharmless,
    (unavailable_capture_iff.2 _ _ _ _ _ _ _ _ none
      (failedReconciliation_exited hreconciled) rfl rfl).mpr hharmless⟩

end sample

end PersistShell

import Mathlib.Data.List.Basic
import PersistShell.Cli.ShellState
import PersistShell.Core.Json

/-! Commits of the state of one shell: each is a process of its own that reads the state file,
writes a temporary file beside it and renames that over it. The processes take turns at every
call to the file system, and any call may fail. -/

namespace PersistShell

/-- `.incarnation-sequence-nonce.tmp` beside the state file. -/
inductive StateName where
  | target
  | temporary (sequence : Nat) (nonce : Bytes)
  deriving DecidableEq, Repr

/-- The contents of the files by number, and the names they have. -/
structure StateDirectory where
  files : List Bytes := []
  entries : StateName → Option Nat := fun _ => none

namespace StateDirectory

def link (d : StateDirectory) (name : StateName) (file : Nat) : StateDirectory :=
  { d with entries := fun n => if n = name then some file else d.entries n }

def unlink (d : StateDirectory) (name : StateName) : StateDirectory :=
  { d with entries := fun n => if n = name then none else d.entries n }

def create (d : StateDirectory) (name : StateName) : StateDirectory :=
  { d with files := d.files ++ [[]] }.link name d.files.length

def append (d : StateDirectory) (file : Nat) (bytes : Bytes) : StateDirectory :=
  { d with files := d.files.modify file (· ++ bytes) }

end StateDirectory

/-- A state and its encoding, ready to be written. -/
structure EncodedState where
  state : ShellStateEnvelope
  encoded : Bytes

/-- Where a commit stands: what its last call to the file system left it with. -/
inductive CommitPhase where
  | start
  | opened (file : Nat)
  | built (job : EncodedState)
  | checked (job : EncodedState)
  | created (job : EncodedState) (file : Nat)
  | writing (job : EncodedState) (file : Nat) (rest : Bytes)
  | synced (job : EncodedState) (file : Nat)
  | renamed
  | cleanup (error : PersistError)
  | ended (result : Except PersistError Unit)

/-- How one call goes: the error it fails with, and how many bytes a write takes. -/
structure CallAnswer where
  fault : Option Errno := none
  count : Nat := 0

section step

variable [SerdeJson] [SerdeState]

def prepare (identity : ShellStateIdentity) (commit : StateCommit)
    (previous : Option EnvironmentSnapshot) : Except PersistError EncodedState := do
  let state ← buildState identity commit previous
  let encoded ← encodeEnvelope state
  let _ ← decodeAndValidate identity 0 encoded
  return { state, encoded }

def prepared (identity : ShellStateIdentity) (commit : StateCommit)
    (previous : Option EnvironmentSnapshot) : CommitPhase :=
  match prepare identity commit previous with
  | .ok job => .built job
  | .error error => .ended (.error error)

def StateCommit.temporary (commit : StateCommit) : StateName :=
  .temporary commit.sequence commit.nonce

/-- One call of a commit. The state file that is read is complete and never written to again,
so that its `stat` and `read` calls are one. -/
def commitCall (identity : ShellStateIdentity) (commit : StateCommit) (answer : CallAnswer)
    (d : StateDirectory) : CommitPhase → CommitPhase × StateDirectory
  | .start =>
    match answer.fault, d.entries .target with
    | none, some file => (.opened file, d)
    | _, _ => (prepared identity commit none, d)
  | .opened file =>
    match answer.fault with
    | some _ => (prepared identity commit none, d)
    | none =>
      let state := decodeAndValidate identity 0 (d.files.getD file [])
      (prepared identity commit (state.toOption.bind (·.environment)), d)
  | .built job =>
    match answer.fault with
    | some errno => (.ended (.error (.io "stat shell state file" errno)), d)
    | none => (.checked job, d)
  | .checked job =>
    match answer.fault, d.entries commit.temporary with
    | none, none => (.created job d.files.length, d.create commit.temporary)
    | fault, _ =>
      (.ended (.error (.io "create shell state temporary file" (fault.getD (.other 17)))), d)
  | .created job file =>
    match answer.fault with
    | some errno => (.cleanup (.io "stat shell state temporary file" errno), d)
    | none => (.writing job file job.encoded, d)
  | .writing job file rest =>
    match answer.fault with
    | some errno =>
      let operation :=
        if rest = [] then "sync shell state temporary file" else "write shell state temporary file"
      (.cleanup (.io operation errno), d)
    | none =>
      if rest = [] then (.synced job file, d)
      else if answer.count = 0 then
        (.cleanup (.io "write shell state temporary file" (.other 0)), d)
      else (.writing job file (rest.drop answer.count), d.append file (rest.take answer.count))
  | .synced _ _ =>
    match answer.fault, d.entries commit.temporary with
    | none, some file => (.renamed, (d.unlink commit.temporary).link .target file)
    | fault, _ => (.cleanup (.io "replace shell state file" (fault.getD (.other 2))), d)
  | .renamed =>
    match answer.fault with
    | some errno => (.cleanup (.io "sync shell state directory" errno), d)
    | none => (.ended (.ok ()), d)
  | .cleanup error => (.ended (.error error), d.unlink commit.temporary)
  | .ended result => (.ended result, d)

/-- The commits of one shell, the directory they share, and which of them have replaced the
state file, in this order. -/
structure StateCommits where
  directory : StateDirectory := {}
  phases : Nat → CommitPhase := fun _ => .start
  replaced : List Nat := []

/-- Whether the call of this phase renames the temporary file. -/
def CommitPhase.replaces : CommitPhase → CommitPhase → Bool
  | .synced _ _, .renamed => true
  | _, _ => false

def StateCommits.advance (s : StateCommits) (i : Nat) (phase : CommitPhase)
    (directory : StateDirectory) : StateCommits where
  directory := directory
  phases j := if j = i then phase else s.phases j
  replaced := if (s.phases i).replaces phase then s.replaced ++ [i] else s.replaced

variable (identity : ShellStateIdentity) (commits : List StateCommit)

/-- The next call of the commit whose turn it is. -/
def StateCommits.step (s : StateCommits) (turn : Nat × CallAnswer) : StateCommits :=
  match commits[turn.1]? with
  | none => s
  | some commit =>
    let next := commitCall identity commit turn.2 s.directory (s.phases turn.1)
    s.advance turn.1 next.1 next.2

def StateCommits.run (schedule : List (Nat × CallAnswer)) : StateCommits :=
  schedule.foldl (StateCommits.step identity commits) {}

/-- What the state file says when it is read. -/
def StateDirectory.captured (d : StateDirectory) : Option ShellStateEnvelope := do
  let file ← d.entries .target
  let encoded ← d.files[file]?
  (decodeAndValidate identity 0 encoded).toOption

/-- The sequence number in the state file, 0 when there is none. -/
def StateDirectory.storedSequence (d : StateDirectory) : Nat :=
  (d.captured identity).elim 0 (·.sequence)

end step

namespace CommitPhase

/-- The state that the commit is going to store. -/
def job : CommitPhase → Option EncodedState
  | built job => some job
  | checked job => some job
  | created job _ => some job
  | writing job _ _ => some job
  | synced job _ => some job
  | _ => none

/-- The temporary file that the commit has, and what is still to be written to it. -/
def temporary : CommitPhase → Option (EncodedState × Nat × Bytes)
  | created job file => some (job, file, job.encoded)
  | writing job file rest => some (job, file, rest)
  | synced job file => some (job, file, [])
  | _ => none

end CommitPhase

section calls

variable [SerdeJson] [SerdeState]

/-- The state is that of the commit, and its encoding is read back as the state. -/
structure EncodedState.Of (identity : ShellStateIdentity) (commit : StateCommit)
    (job : EncodedState) : Prop where
  sequence_eq : job.state.sequence = commit.sequence
  decodes : decodeAndValidate identity 0 job.encoded = .ok job.state

variable {identity : ShellStateIdentity} {commit : StateCommit} {answer : CallAnswer}
  {d d' : StateDirectory} {phase phase' : CommitPhase}

theorem prepare_of [LawfulSerdeState] {previous : Option EnvironmentSnapshot} {job : EncodedState}
    (h : prepare identity commit previous = .ok job) : job.Of identity commit := by
  obtain ⟨state, hbuild, h⟩ := bind_eq_ok.mp h
  obtain ⟨encoded, hencode, h⟩ := bind_eq_ok.mp h
  obtain ⟨decoded, hdecode, h⟩ := bind_eq_ok.mp h
  cases h
  refine ⟨buildState_sequence hbuild, ?_⟩
  rw [hdecode, decode_encodeEnvelope hencode hdecode]

theorem prepared_job [LawfulSerdeState] {previous : Option EnvironmentSnapshot}
    {job : EncodedState} (h : (prepared identity commit previous).job = some job) :
    job.Of identity commit := by
  unfold prepared at h
  cases hjob : prepare identity commit previous with
  | ok job' =>
    rw [hjob] at h
    cases h
    exact prepare_of hjob
  | error e =>
    rw [hjob] at h
    cases h

theorem prepared_temporary (previous : Option EnvironmentSnapshot) :
    (prepared identity commit previous).temporary = none := by
  unfold prepared
  split <;> rfl

/-- A call that leaves the directory alone: it may let go of the temporary file, but takes no
other. -/
structure QuietCall (identity : ShellStateIdentity) (commit : StateCommit)
    (phase phase' : CommitPhase) : Prop where
  temporary : phase'.temporary = none ∨ phase'.temporary = phase.temporary
  job : ∀ job, phase'.job = some job → phase.job = some job ∨ job.Of identity commit
  replaces : phase.replaces phase' = false

theorem QuietCall.letGo (htemporary : phase'.temporary = none) (hjob : phase'.job = none)
    (hreplaces : phase.replaces phase' = false) : QuietCall identity commit phase phase' where
  temporary := Or.inl htemporary
  job job h := by
    rw [hjob] at h
    cases h
  replaces := hreplaces

theorem QuietCall.goOn
    (htemporary : phase'.temporary = none ∨ phase'.temporary = phase.temporary)
    (hjob : phase'.job = phase.job) (hreplaces : phase.replaces phase' = false) :
    QuietCall identity commit phase phase' where
  temporary := htemporary
  job _ h := Or.inl (hjob ▸ h)
  replaces := hreplaces

/-- All that one call can do. -/
inductive CallEffect (identity : ShellStateIdentity) (commit : StateCommit) (d : StateDirectory) :
    CommitPhase → CommitPhase → StateDirectory → Prop
  | quiet {phase phase' : CommitPhase} (h : QuietCall identity commit phase phase') :
      CallEffect identity commit d phase phase' d
  | create {job : EncodedState} (free : d.entries commit.temporary = none) :
      CallEffect identity commit d (.checked job) (.created job d.files.length)
        (d.create commit.temporary)
  | write {job : EncodedState} {file : Nat} {rest : Bytes} (count : Nat) :
      CallEffect identity commit d (.writing job file rest) (.writing job file (rest.drop count))
        (d.append file (rest.take count))
  | replace {job : EncodedState} {file file' : Nat}
      (named : d.entries commit.temporary = some file') :
      CallEffect identity commit d (.synced job file) .renamed
        ((d.unlink commit.temporary).link .target file')
  | unlink {error : PersistError} :
      CallEffect identity commit d (.cleanup error) (.ended (.error error))
        (d.unlink commit.temporary)

theorem prepared_quiet [LawfulSerdeState] (previous : Option EnvironmentSnapshot)
    (hphase : ∀ phase', phase.replaces phase' = false) :
    QuietCall identity commit phase (prepared identity commit previous) where
  temporary := Or.inl (prepared_temporary previous)
  job _ h := Or.inr (prepared_job h)
  replaces := hphase _

theorem commitCall_effect [LawfulSerdeState] :
    CallEffect identity commit d phase (commitCall identity commit answer d phase).1
      (commitCall identity commit answer d phase).2 := by
  cases phase with
  | start =>
    simp only [commitCall]
    split
    · exact .quiet (.letGo rfl rfl rfl)
    · exact .quiet (prepared_quiet _ fun _ => rfl)
  | opened file =>
    simp only [commitCall]
    split
    · exact .quiet (prepared_quiet _ fun _ => rfl)
    · exact .quiet (prepared_quiet _ fun _ => rfl)
  | built job =>
    simp only [commitCall]
    split
    · exact .quiet (.letGo rfl rfl rfl)
    · exact .quiet (.goOn (Or.inl rfl) rfl rfl)
  | checked job =>
    simp only [commitCall]
    split
    · exact .create ‹_›
    · exact .quiet (.letGo rfl rfl rfl)
  | created job file =>
    simp only [commitCall]
    split
    · exact .quiet (.letGo rfl rfl rfl)
    · exact .quiet (.goOn (Or.inr rfl) rfl rfl)
  | writing job file rest =>
    simp only [commitCall]
    split
    · exact .quiet (.letGo rfl rfl rfl)
    · split
      · rename_i hrest
        subst hrest
        exact .quiet (.goOn (Or.inr rfl) rfl rfl)
      · split
        · exact .quiet (.letGo rfl rfl rfl)
        · exact .write _
  | synced job file =>
    simp only [commitCall]
    split
    · exact .replace ‹_›
    · exact .quiet (.letGo rfl rfl rfl)
  | renamed =>
    simp only [commitCall]
    split
    · exact .quiet (.letGo rfl rfl rfl)
    · exact .quiet (.letGo rfl rfl rfl)
  | cleanup error => exact .unlink
  | ended result => exact .quiet (.letGo rfl rfl rfl)

end calls

section invariant

namespace StateCommits

variable {identity : ShellStateIdentity} {commits : List StateCommit} {s : StateCommits}
  {i j : Nat} {commit commit' : StateCommit} {job : EncodedState} {file : Nat} {rest : Bytes}
  {phase : CommitPhase} {d : StateDirectory}

/-- The commit `i` has this temporary file, with so much still to be written to it. -/
def Holds (commits : List StateCommit) (s : StateCommits) (i : Nat) (commit : StateCommit)
    (job : EncodedState) (file : Nat) (rest : Bytes) : Prop :=
  commits[i]? = some commit ∧ (s.phases i).temporary = some (job, file, rest)

/-- Temporary files of different commits have different names. -/
theorem temporary_ne (hnonces : (commits.map (·.nonce)).Nodup) (hi : commits[i]? = some commit)
    (hj : commits[j]? = some commit') (hne : j ≠ i) : commit'.temporary ≠ commit.temporary := by
  intro heq
  have hnonce : commit'.nonce = commit.nonce := (StateName.temporary.inj heq).2
  have hlt : j < (commits.map (·.nonce)).length := by
    rw [List.length_map]
    exact (List.getElem?_eq_some_iff.mp hj).1
  refine hne ((List.getElem?_inj hlt hnonces).mp ?_)
  rw [List.getElem?_map, List.getElem?_map, hi, hj, Option.map_some, Option.map_some, hnonce]

theorem holds_other (hne : j ≠ i) :
    Holds commits (s.advance i phase d) j commit job file rest ↔
      Holds commits s j commit job file rest := by
  simp [Holds, advance, hne]

theorem holds_self :
    Holds commits (s.advance i phase d) i commit job file rest ↔
      commits[i]? = some commit ∧ phase.temporary = some (job, file, rest) := by
  simp [Holds, advance]

variable [SerdeJson] [SerdeState]

/-- The state file is the whole state of the commit that replaced it last. -/
inductive Stored (identity : ShellStateIdentity) (commits : List StateCommit) (s : StateCommits) :
    Prop
  | absent (target : s.directory.entries .target = none) (replaced : s.replaced = [])
  | by_ {file i : Nat} {encoded : Bytes} {state : ShellStateEnvelope} {commit : StateCommit}
      (target : s.directory.entries .target = some file)
      (content : s.directory.files[file]? = some encoded)
      (decodes : decodeAndValidate identity 0 encoded = .ok state)
      (last : s.replaced.getLast? = some i) (listed : commits[i]? = some commit)
      (sequence_eq : state.sequence = commit.sequence)

structure Inv (identity : ShellStateIdentity) (commits : List StateCommit) (s : StateCommits) :
    Prop where
  job : ∀ i commit job, commits[i]? = some commit → (s.phases i).job = some job →
    job.Of identity commit
  named : ∀ {i commit job file rest}, Holds commits s i commit job file rest →
    s.directory.entries commit.temporary = some file
  apart : ∀ {i commit job file rest}, Holds commits s i commit job file rest →
    s.directory.entries .target ≠ some file
  content : ∀ {i commit job file rest}, Holds commits s i commit job file rest →
    ∃ written, s.directory.files[file]? = some written ∧ written ++ rest = job.encoded
  own : ∀ {i j commit commit' job job' file rest rest'}, Holds commits s i commit job file rest →
    Holds commits s j commit' job' file rest' → i = j
  exists_ : ∀ {name file}, s.directory.entries name = some file →
    file < s.directory.files.length
  stored : Stored identity commits s

theorem Inv.job_advance (h : Inv identity commits s) (hi : commits[i]? = some commit)
    (hjob : ∀ job, phase.job = some job → (s.phases i).job = some job ∨ job.Of identity commit) :
    ∀ j commit' job, commits[j]? = some commit' → ((s.advance i phase d).phases j).job = some job →
      job.Of identity commit' := by
  intro j commit' job hj hphase
  by_cases hne : j = i
  · subst hne
    cases hi.symm.trans hj
    simp only [advance, if_pos] at hphase
    exact (hjob job hphase).elim (h.job j commit job hj) id
  · simp only [advance, if_neg hne] at hphase
    exact h.job j commit' job hj hphase

theorem Inv.quiet (h : Inv identity commits s) (hi : commits[i]? = some commit)
    (hquiet : QuietCall identity commit (s.phases i) phase) :
    Inv identity commits (s.advance i phase s.directory) := by
  have hback : ∀ {j commit' job file rest},
      Holds commits (s.advance i phase s.directory) j commit' job file rest →
        Holds commits s j commit' job file rest := by
    intro j commit' job file rest hholds
    by_cases hne : j = i
    · subst hne
      obtain ⟨hj, htemp⟩ := holds_self.mp hholds
      rcases hquiet.temporary with hnone | hsame
      · rw [hnone] at htemp
        cases htemp
      · exact ⟨hj, hsame ▸ htemp⟩
    · exact (holds_other hne).mp hholds
  exact {
    job := h.job_advance hi hquiet.job
    named := fun hh => h.named (hback hh)
    apart := fun hh => h.apart (hback hh)
    content := fun hh => h.content (hback hh)
    own := fun hh hh' => h.own (hback hh) (hback hh')
    exists_ := h.exists_
    stored := by
      have hreplaced : (s.advance i phase s.directory).replaced = s.replaced := by
        simp [advance, hquiet.replaces]
      cases h.stored with
      | absent target replaced => exact .absent target (hreplaced.trans replaced)
      | by_ target content decodes last listed sequence_eq =>
        exact .by_ target content decodes (hreplaced ▸ last) listed sequence_eq }

theorem Stored.of_quiet {s s' : StateCommits} (h : Stored identity commits s)
    (hreplaced : s'.replaced = s.replaced)
    (htarget : s'.directory.entries .target = s.directory.entries .target)
    (hfiles : ∀ file encoded, s.directory.entries .target = some file →
      s.directory.files[file]? = some encoded → s'.directory.files[file]? = some encoded) :
    Stored identity commits s' := by
  cases h with
  | absent target replaced => exact .absent (htarget.trans target) (hreplaced.trans replaced)
  | by_ target content decodes last listed sequence_eq =>
    exact .by_ (htarget.trans target) (hfiles _ _ target content) decodes (hreplaced ▸ last) listed
      sequence_eq

theorem Inv.create (hnonces : (commits.map (·.nonce)).Nodup) (h : Inv identity commits s)
    (hi : commits[i]? = some commit) (hphase : s.phases i = .checked job) :
    Inv identity commits (s.advance i (.created job s.directory.files.length)
      (s.directory.create commit.temporary)) := by
  have hold : ∀ {j commit' job' file rest}, j ≠ i →
      Holds commits (s.advance i (.created job s.directory.files.length)
        (s.directory.create commit.temporary)) j commit' job' file rest →
      Holds commits s j commit' job' file rest ∧ file < s.directory.files.length := by
    intro j commit' job' file rest hne hh
    have hholds := (holds_other hne).mp hh
    exact ⟨hholds, h.exists_ (h.named hholds)⟩
  have hnew : ∀ {commit' job' file rest},
      Holds commits (s.advance i (.created job s.directory.files.length)
        (s.directory.create commit.temporary)) i commit' job' file rest →
      commit' = commit ∧ job' = job ∧ file = s.directory.files.length ∧ rest = job.encoded := by
    intro commit' job' file rest hh
    obtain ⟨hj, htemp⟩ := holds_self.mp hh
    cases hi.symm.trans hj
    cases htemp
    exact ⟨rfl, rfl, rfl, rfl⟩
  refine {
    job := h.job_advance hi fun job' hjob => Or.inl (by rw [hphase]; exact hjob)
    named := ?_
    apart := ?_
    content := ?_
    own := ?_
    exists_ := ?_
    stored := ?_ }
  · intro j commit' job' file rest hh
    by_cases hne : j = i
    · subst hne
      obtain ⟨rfl, _, rfl, _⟩ := hnew hh
      simp [advance, StateDirectory.create, StateDirectory.link]
    · have hname := temporary_ne hnonces hi hh.1 hne
      simpa [advance, StateDirectory.create, StateDirectory.link, hname]
        using h.named (hold hne hh).1
  · intro j commit' job' file rest hh htarget
    have htarget : s.directory.entries .target = some file := by
      simpa [advance, StateDirectory.create, StateDirectory.link, StateCommit.temporary]
        using htarget
    by_cases hne : j = i
    · subst hne
      obtain ⟨_, _, rfl, _⟩ := hnew hh
      exact absurd (h.exists_ htarget) (Nat.lt_irrefl _)
    · exact h.apart (hold hne hh).1 htarget
  · intro j commit' job' file rest hh
    by_cases hne : j = i
    · subst hne
      obtain ⟨_, rfl, rfl, rfl⟩ := hnew hh
      exact ⟨[], by simp [advance, StateDirectory.create, StateDirectory.link], rfl⟩
    · obtain ⟨written, hfile, hrest⟩ := h.content (hold hne hh).1
      refine ⟨written, ?_, hrest⟩
      simpa [advance, StateDirectory.create, StateDirectory.link,
        List.getElem?_append_left (hold hne hh).2] using hfile
  · intro j k commit₁ commit₂ job₁ job₂ file rest₁ rest₂ hh hh'
    by_cases hj : j = i <;> by_cases hk : k = i
    · exact hj.trans hk.symm
    · subst hj
      obtain ⟨_, _, rfl, _⟩ := hnew hh
      exact absurd (hold hk hh').2 (Nat.lt_irrefl _)
    · subst hk
      obtain ⟨_, _, rfl, _⟩ := hnew hh'
      exact absurd (hold hj hh).2 (Nat.lt_irrefl _)
    · exact h.own (hold hj hh).1 (hold hk hh').1
  · intro name file hname
    simp only [advance, StateDirectory.create, StateDirectory.link, List.length_append,
      List.length_singleton] at hname ⊢
    split at hname
    · cases hname
      exact Nat.lt_succ_self _
    · exact Nat.lt_succ_of_lt (h.exists_ hname)
  · refine h.stored.of_quiet (by simp [advance, hphase, CommitPhase.replaces]) ?_ ?_
    · simp [advance, StateDirectory.create, StateDirectory.link, StateCommit.temporary]
    · intro file encoded htarget hfile
      simpa [advance, StateDirectory.create, StateDirectory.link,
        List.getElem?_append_left (h.exists_ htarget)] using hfile

theorem Inv.write (h : Inv identity commits s) (hi : commits[i]? = some commit)
    (hphase : s.phases i = .writing job file rest) (count : Nat) :
    Inv identity commits (s.advance i (.writing job file (rest.drop count))
      (s.directory.append file (rest.take count))) := by
  have hself : Holds commits s i commit job file rest := ⟨hi, by rw [hphase]; rfl⟩
  have hold : ∀ {j commit' job' file' rest'},
      Holds commits (s.advance i (.writing job file (rest.drop count))
        (s.directory.append file (rest.take count))) j commit' job' file' rest' →
      ∃ rest'', Holds commits s j commit' job' file' rest'' := by
    intro j commit' job' file' rest' hh
    by_cases hne : j = i
    · subst hne
      obtain ⟨hj, htemp⟩ := holds_self.mp hh
      cases hi.symm.trans hj
      cases htemp
      exact ⟨rest, hself⟩
    · exact ⟨rest', (holds_other hne).mp hh⟩
  refine {
    job := h.job_advance hi fun job' hjob => Or.inl (by rw [hphase]; exact hjob)
    named := fun hh => h.named (hold hh).choose_spec
    apart := fun hh => h.apart (hold hh).choose_spec
    content := ?_
    own := fun hh hh' => h.own (hold hh).choose_spec (hold hh').choose_spec
    exists_ := fun hname => by
      simpa [advance, StateDirectory.append] using h.exists_ hname
    stored := ?_ }
  · intro j commit' job' file' rest' hh
    by_cases hne : j = i
    · subst hne
      obtain ⟨hj, htemp⟩ := holds_self.mp hh
      cases hi.symm.trans hj
      cases htemp
      obtain ⟨written, hfile, hrest⟩ := h.content hself
      refine ⟨written ++ rest.take count, ?_, ?_⟩
      · simp [advance, StateDirectory.append, hfile]
      · rw [List.append_assoc, List.take_append_drop, hrest]
    · have hother := (holds_other hne).mp hh
      obtain ⟨written, hfile, hrest⟩ := h.content hother
      have hdiff : file ≠ file' := fun heq => hne (h.own hother (heq ▸ hself))
      exact ⟨written, by simpa [advance, StateDirectory.append, hdiff] using hfile, hrest⟩
  · refine h.stored.of_quiet (by simp [advance, hphase, CommitPhase.replaces]) rfl ?_
    intro file' encoded htarget hfile
    have hdiff : file ≠ file' := fun heq => h.apart hself (heq ▸ htarget)
    simpa [advance, StateDirectory.append, hdiff] using hfile

theorem Inv.unlink (hnonces : (commits.map (·.nonce)).Nodup) (h : Inv identity commits s)
    (hi : commits[i]? = some commit) {error : PersistError} (hphase : s.phases i = .cleanup error) :
    Inv identity commits (s.advance i (.ended (.error error))
      (s.directory.unlink commit.temporary)) := by
  have hold : ∀ {j commit' job' file rest},
      Holds commits (s.advance i (.ended (.error error)) (s.directory.unlink commit.temporary))
        j commit' job' file rest →
      j ≠ i ∧ Holds commits s j commit' job' file rest := by
    intro j commit' job' file rest hh
    by_cases hne : j = i
    · subst hne
      cases (holds_self.mp hh).2
    · exact ⟨hne, (holds_other hne).mp hh⟩
  refine {
    job := h.job_advance hi fun job' hjob => by cases hjob
    named := ?_
    apart := ?_
    content := fun hh => h.content (hold hh).2
    own := fun hh hh' => h.own (hold hh).2 (hold hh').2
    exists_ := ?_
    stored := ?_ }
  · intro j commit' job' file rest hh
    have hname := temporary_ne hnonces hi hh.1 (hold hh).1
    simpa [advance, StateDirectory.unlink, hname] using h.named (hold hh).2
  · intro j commit' job' file rest hh htarget
    refine h.apart (hold hh).2 ?_
    simpa [advance, StateDirectory.unlink, StateCommit.temporary] using htarget
  · intro name file hname
    simp only [advance, StateDirectory.unlink] at hname ⊢
    split at hname
    · cases hname
    · exact h.exists_ hname
  · refine h.stored.of_quiet (by simp [advance, hphase, CommitPhase.replaces]) ?_ fun _ _ _ => id
    simp [advance, StateDirectory.unlink, StateCommit.temporary]

/-- The file that is renamed over the state file is complete. -/
theorem Inv.replace (hnonces : (commits.map (·.nonce)).Nodup) (h : Inv identity commits s)
    (hi : commits[i]? = some commit) {file' : Nat} (hphase : s.phases i = .synced job file)
    (hnamed : s.directory.entries commit.temporary = some file') :
    Inv identity commits (s.advance i .renamed
      ((s.directory.unlink commit.temporary).link .target file')) := by
  have hself : Holds commits s i commit job file [] := ⟨hi, by rw [hphase]; rfl⟩
  have hfile : file' = file := Option.some.inj (hnamed.symm.trans (h.named hself))
  subst hfile
  have hold : ∀ {j commit' job' file rest},
      Holds commits (s.advance i .renamed
        ((s.directory.unlink commit.temporary).link .target file')) j commit' job' file rest →
      j ≠ i ∧ Holds commits s j commit' job' file rest := by
    intro j commit' job' file rest hh
    by_cases hne : j = i
    · subst hne
      cases (holds_self.mp hh).2
    · exact ⟨hne, (holds_other hne).mp hh⟩
  refine {
    job := h.job_advance hi fun job' hjob => by cases hjob
    named := ?_
    apart := ?_
    content := fun hh => h.content (hold hh).2
    own := fun hh hh' => h.own (hold hh).2 (hold hh').2
    exists_ := ?_
    stored := ?_ }
  · intro j commit' job' file rest hh
    have hname := temporary_ne hnonces hi hh.1 (hold hh).1
    have htarget : commit'.temporary ≠ .target := fun heq => by cases heq
    simpa [advance, StateDirectory.unlink, StateDirectory.link, hname, htarget]
      using h.named (hold hh).2
  · intro j commit' job' file rest hh htarget
    have hsame : file' = file := by
      simpa [advance, StateDirectory.link] using htarget
    exact (hold hh).1 (h.own (hold hh).2 (hsame ▸ hself))
  · intro name file hname
    simp only [advance, StateDirectory.unlink, StateDirectory.link] at hname ⊢
    split at hname
    · cases hname
      exact h.exists_ hnamed
    · split at hname
      · cases hname
      · exact h.exists_ hname
  · obtain ⟨written, hcontent, hrest⟩ := h.content hself
    have hjob := h.job i commit job hi (by rw [hphase]; rfl)
    rw [List.append_nil] at hrest
    exact .by_ (by simp [advance, StateDirectory.link]) (hrest ▸ hcontent) hjob.decodes
      (by simp [advance, hphase, CommitPhase.replaces]) hi hjob.sequence_eq

theorem Inv.step [LawfulSerdeState] (hnonces : (commits.map (·.nonce)).Nodup)
    (h : Inv identity commits s) (turn : Nat × CallAnswer) :
    Inv identity commits (s.step identity commits turn) := by
  unfold StateCommits.step
  split
  · exact h
  · rename_i commit hi
    have heffect : CallEffect identity commit s.directory (s.phases turn.1)
        (commitCall identity commit turn.2 s.directory (s.phases turn.1)).1
        (commitCall identity commit turn.2 s.directory (s.phases turn.1)).2 := commitCall_effect
    generalize hphase : s.phases turn.1 = phase at heffect
    generalize commitCall identity commit turn.2 s.directory phase = next at heffect
    obtain ⟨phase', directory⟩ := next
    dsimp only at heffect ⊢
    cases heffect with
    | quiet hquiet => exact h.quiet hi (hphase ▸ hquiet)
    | create _ => exact h.create hnonces hi hphase
    | write count => exact h.write hi hphase count
    | replace hnamed => exact h.replace hnonces hi hphase hnamed
    | unlink => exact h.unlink hnonces hi hphase

theorem Inv.start : Inv identity commits {} where
  job _ _ _ _ hjob := by cases hjob
  named hh := by cases hh.2
  apart hh := by cases hh.2
  content hh := by cases hh.2
  own hh := by cases hh.2
  exists_ hname := by cases hname
  stored := .absent rfl rfl

theorem Inv.run [LawfulSerdeState] (hnonces : (commits.map (·.nonce)).Nodup)
    (schedule : List (Nat × CallAnswer)) :
    Inv identity commits (StateCommits.run identity commits schedule) := by
  have hfrom : ∀ s, Inv identity commits s →
      Inv identity commits (schedule.foldl (StateCommits.step identity commits) s) := by
    induction schedule with
    | nil => exact fun _ hs => hs
    | cons turn schedule ih => exact fun s hs => ih _ (hs.step hnonces turn)
  exact hfrom {} .start

end StateCommits

end invariant

section order

namespace StateCommits

/-- The sequence numbers of the commits that have replaced the state file, in this order. -/
def sequences (commits : List StateCommit) (s : StateCommits) : List Nat :=
  s.replaced.filterMap fun i => commits[i]?.map (·.sequence)

variable [SerdeJson] [SerdeState] {identity : ShellStateIdentity} {commits : List StateCommit}
  {s : StateCommits}

theorem storedSequence_eq (h : Stored identity commits s) :
    s.directory.storedSequence identity = (s.sequences commits).getLast?.getD 0 := by
  cases h with
  | absent target replaced =>
    simp [StateDirectory.storedSequence, StateDirectory.captured, target, sequences, replaced]
  | @by_ file i encoded state commit target content decodes last listed sequence_eq =>
    obtain ⟨earlier, hearlier⟩ := List.getLast?_eq_some_iff.mp last
    have hlast : (s.sequences commits).getLast? = some commit.sequence := by
      simp [sequences, hearlier, listed]
    simp [StateDirectory.storedSequence, StateDirectory.captured, target, content, decodes, hlast,
      sequence_eq, Except.toOption]

/-- A call leaves the order of replacements alone or adds the commit that made it. -/
theorem sequences_step (turn : Nat × CallAnswer) :
    (s.step identity commits turn).sequences commits = s.sequences commits ∨
      ∃ n, (s.step identity commits turn).sequences commits = s.sequences commits ++ [n] := by
  unfold StateCommits.step
  split
  · exact Or.inl rfl
  · rename_i commit hi
    by_cases hreplaces : (s.phases turn.1).replaces
        (commitCall identity commit turn.2 s.directory (s.phases turn.1)).1
    · exact Or.inr ⟨commit.sequence, by simp [sequences, advance, hreplaces, hi]⟩
    · exact Or.inl (by simp [sequences, advance, hreplaces])

end StateCommits

/-- The last number of an ascending list is the greatest. -/
theorem le_getLast {l : List Nat} (h : l.Pairwise (· ≤ ·)) {m : Nat} (hm : m ∈ l) :
    m ≤ l.getLast?.getD 0 := by
  obtain ⟨last, hlast⟩ :=
    Option.isSome_iff_exists.mp (List.getLast?_isSome.mpr (List.ne_nil_of_mem hm))
  obtain ⟨earlier, rfl⟩ := List.getLast?_eq_some_iff.mp hlast
  rw [hlast, Option.getD_some]
  rcases List.mem_append.mp hm with hm | hm
  · exact (List.pairwise_append.mp h).2.2 m hm last (List.mem_singleton_self last)
  · exact Nat.le_of_eq (List.mem_singleton.mp hm)

theorem pairwise_concat_iff {l : List Nat} {n : Nat} :
    (l ++ [n]).Pairwise (· ≤ ·) ↔ l.Pairwise (· ≤ ·) ∧ l.getLast?.getD 0 ≤ n := by
  rw [List.pairwise_append]
  constructor
  · rintro ⟨hl, -, hle⟩
    refine ⟨hl, ?_⟩
    cases hlast : l.getLast? with
    | none => exact Nat.zero_le n
    | some m => exact hle m (List.mem_of_getLast? hlast) n (List.mem_singleton_self n)
  · rintro ⟨hl, hle⟩
    refine ⟨hl, List.pairwise_singleton _ _, fun m hm n' hn' => ?_⟩
    obtain rfl := List.mem_singleton.mp hn'
    exact (le_getLast hl hm).trans hle

end order

section completed

/-- The commit has replaced the state file and not failed since. -/
def CommitPhase.completed : CommitPhase → Bool
  | .renamed => true
  | .ended (.ok ()) => true
  | _ => false

variable [SerdeJson] [SerdeState] {identity : ShellStateIdentity} {commits : List StateCommit}

theorem prepared_completed (commit : StateCommit) (previous : Option EnvironmentSnapshot) :
    (prepared identity commit previous).completed = false := by
  unfold prepared
  split <;> rfl

theorem commitCall_completed {commit : StateCommit} {answer : CallAnswer} {d : StateDirectory}
    {phase : CommitPhase} (h : (commitCall identity commit answer d phase).1.completed) :
    phase.completed ∨ phase.replaces (commitCall identity commit answer d phase).1 := by
  cases phase with
  | start =>
    simp only [commitCall] at h
    split at h
    · cases h
    · simp [prepared_completed] at h
  | opened file =>
    simp only [commitCall] at h
    split at h <;> simp [prepared_completed] at h
  | built job =>
    simp only [commitCall] at h
    split at h <;> cases h
  | checked job =>
    simp only [commitCall] at h
    split at h <;> cases h
  | created job file =>
    simp only [commitCall] at h
    split at h <;> cases h
  | writing job file rest =>
    simp only [commitCall] at h
    split at h
    · cases h
    · split at h
      · cases h
      · split at h <;> cases h
  | synced job file =>
    refine Or.inr ?_
    simp only [commitCall] at h ⊢
    split at h
    · rfl
    · cases h
  | renamed => exact Or.inl rfl
  | cleanup error => cases h
  | ended result => exact Or.inl h

namespace StateCommits

theorem completed_step {s : StateCommits}
    (h : ∀ i, (s.phases i).completed → i ∈ s.replaced) (turn : Nat × CallAnswer) (i : Nat)
    (hi : ((s.step identity commits turn).phases i).completed) :
    i ∈ (s.step identity commits turn).replaced := by
  unfold step at hi ⊢
  split at hi
  · exact h i hi
  · by_cases hne : i = turn.1
    · subst hne
      simp only [advance, if_pos] at hi ⊢
      split
      · exact List.mem_append_right _ (List.mem_singleton_self _)
      · rename_i hreplaces
        exact h _ ((commitCall_completed hi).resolve_right hreplaces)
    · simp only [advance, if_neg hne] at hi ⊢
      split
      · exact List.mem_append_left _ (h i hi)
      · exact h i hi

theorem run_concat (schedule : List (Nat × CallAnswer)) (turn : Nat × CallAnswer) :
    run identity commits (schedule ++ [turn]) =
      (run identity commits schedule).step identity commits turn := by
  simp [run, List.foldl_append]

theorem completed_run (schedule : List (Nat × CallAnswer)) (i : Nat)
    (hi : ((run identity commits schedule).phases i).completed) :
    i ∈ (run identity commits schedule).replaced := by
  induction schedule using List.reverseRecOn generalizing i with
  | nil => cases hi
  | append_singleton schedule turn ih =>
    rw [run_concat] at hi ⊢
    exact completed_step ih turn i hi

/-- What has replaced the state file stays in the order. -/
theorem sequences_mono (earlier later : List (Nat × CallAnswer)) :
    ∃ more, (run identity commits (earlier ++ later)).sequences commits =
      (run identity commits earlier).sequences commits ++ more := by
  induction later using List.reverseRecOn with
  | nil => exact ⟨[], by simp⟩
  | append_singleton later turn ih =>
    obtain ⟨more, hmore⟩ := ih
    rw [← List.append_assoc, run_concat]
    rcases sequences_step turn with hsame | ⟨n, hnew⟩
    · exact ⟨more, hsame.trans hmore⟩
    · exact ⟨more ++ [n], by rw [hnew, hmore, List.append_assoc]⟩

/-- At no point of the run does the number in the state file get smaller. -/
def NeverBack (identity : ShellStateIdentity) (commits : List StateCommit)
    (schedule : List (Nat × CallAnswer)) : Prop :=
  ∀ earlier later rest, schedule = earlier ++ later ++ rest →
    (run identity commits earlier).directory.storedSequence identity ≤
      (run identity commits (earlier ++ later)).directory.storedSequence identity

/-- The state file holds a state whose sequence number is that of a commit that replaced it, and
that no completed commit exceeds. -/
def HoldsHighest (identity : ShellStateIdentity) (commits : List StateCommit)
    (s : StateCommits) : Prop :=
  ∀ i commit, commits[i]? = some commit → (s.phases i).completed →
    ∃ state, s.directory.captured identity = some state ∧
      state.sequence ∈ s.sequences commits ∧ commit.sequence ≤ state.sequence

/-- The commits rename in ascending order of their sequence numbers. -/
def RenamesAscend (identity : ShellStateIdentity) (commits : List StateCommit)
    (schedule : List (Nat × CallAnswer)) : Prop :=
  ((run identity commits schedule).sequences commits).Pairwise (· ≤ ·)

variable [LawfulSerdeState]

theorem run_storedSequence (hnonces : (commits.map (·.nonce)).Nodup)
    (schedule : List (Nat × CallAnswer)) :
    (run identity commits schedule).directory.storedSequence identity =
      ((run identity commits schedule).sequences commits).getLast?.getD 0 :=
  storedSequence_eq (Inv.run hnonces schedule).stored

theorem neverBack_of_ascend (hnonces : (commits.map (·.nonce)).Nodup)
    {schedule : List (Nat × CallAnswer)} (h : RenamesAscend identity commits schedule) :
    NeverBack identity commits schedule := by
  intro earlier later rest hsplit
  obtain ⟨more, hmore⟩ : ∃ more, (run identity commits (earlier ++ later)).sequences commits =
      (run identity commits earlier).sequences commits ++ more := sequences_mono earlier later
  obtain ⟨last, hlast⟩ : ∃ last, (run identity commits (earlier ++ later ++ rest)).sequences
      commits = (run identity commits (earlier ++ later)).sequences commits ++ last :=
    sequences_mono (earlier ++ later) rest
  rw [RenamesAscend, hsplit, hlast] at h
  have hascend := (List.pairwise_append.mp h).1
  rw [run_storedSequence hnonces, run_storedSequence hnonces]
  cases hold : ((run identity commits earlier).sequences commits).getLast? with
  | none => exact Nat.zero_le _
  | some n =>
    refine le_getLast hascend ?_
    rw [hmore]
    exact List.mem_append_left _ (List.mem_of_getLast? hold)

theorem ascend_of_neverBack (hnonces : (commits.map (·.nonce)).Nodup)
    {schedule : List (Nat × CallAnswer)} (h : NeverBack identity commits schedule) :
    RenamesAscend identity commits schedule := by
  induction schedule using List.reverseRecOn with
  | nil => exact List.Pairwise.nil
  | append_singleton schedule turn ih =>
    have hascend := ih fun earlier later rest hsplit =>
      h earlier later (rest ++ [turn]) (by rw [hsplit, List.append_assoc])
    have hlast := h schedule [turn] [] (by simp)
    rw [run_storedSequence hnonces, run_storedSequence hnonces, run_concat] at hlast
    rw [RenamesAscend, run_concat]
    rcases sequences_step turn with hsame | ⟨n, hnew⟩
    · rw [hsame]
      exact hascend
    · rw [hnew] at hlast ⊢
      rw [List.getLast?_concat, Option.getD_some] at hlast
      exact pairwise_concat_iff.mpr ⟨hascend, hlast⟩

theorem highest_of_ascend (hnonces : (commits.map (·.nonce)).Nodup)
    {schedule : List (Nat × CallAnswer)} (h : RenamesAscend identity commits schedule) :
    HoldsHighest identity commits (run identity commits schedule) := by
  intro i commit hi hcompleted
  have hmem := completed_run schedule i hcompleted
  have hsequence : commit.sequence ∈ (run identity commits schedule).sequences commits :=
    List.mem_filterMap.mpr ⟨i, hmem, by rw [hi]; rfl⟩
  have hinv : Inv identity commits (run identity commits schedule) := Inv.run hnonces schedule
  have hlast := storedSequence_eq hinv.stored
  obtain ⟨last, hsome⟩ := Option.isSome_iff_exists.mp
    (List.getLast?_isSome.mpr (List.ne_nil_of_mem hsequence))
  have hle := le_getLast h hsequence
  rw [hsome, Option.getD_some] at hle hlast
  cases hinv.stored with
  | absent _ replaced =>
    rw [replaced] at hmem
    cases hmem
  | @by_ file j encoded state commit' target content decodes _ _ _ =>
    have hcaptured : (run identity commits schedule).directory.captured identity = some state := by
      simp [StateDirectory.captured, target, content, decodes, Except.toOption]
    have hstate : state.sequence = last := by
      simpa [StateDirectory.storedSequence, hcaptured] using hlast
    exact ⟨state, hcaptured, hstate ▸ List.mem_of_getLast? hsome, hstate ▸ hle⟩

end StateCommits

end completed

/-- For every set of commits of one shell, in every order of their calls and whichever of these
fail: the sequence number in the state file never decreases, and the file ends up with the
highest one that was committed, if and only if the commits rename in ascending order. -/
theorem state_file_ascends [SerdeJson] [SerdeState] [LawfulSerdeState]
    (identity : ShellStateIdentity) (commits : List StateCommit)
    (hnonces : (commits.map (·.nonce)).Nodup) (schedule : List (Nat × CallAnswer)) :
    (StateCommits.NeverBack identity commits schedule ∧
      StateCommits.HoldsHighest identity commits (StateCommits.run identity commits schedule)) ↔
      StateCommits.RenamesAscend identity commits schedule :=
  ⟨fun h => StateCommits.ascend_of_neverBack hnonces h.1,
    fun h => ⟨StateCommits.neverBack_of_ascend hnonces h,
      StateCommits.highest_of_ascend hnonces h⟩⟩

section sample

attribute [local instance] Json.serdeJson

def sampleIdentity : ShellStateIdentity := ⟨7, List.replicate 16 17⟩

def sampleEnvelope (sequence : Nat) (cwd : String) : ShellStateEnvelope where
  version := 1
  sessionId := 7
  incarnation := "11111111111111111111111111111111"
  sequence
  cwd
  environment := none

def samplePair : List ShellStateEnvelope := [sampleEnvelope 1 "/first", sampleEnvelope 2 "/second"]

def sampleCommits : List StateCommit :=
  [⟨1, "/first", [], none, List.replicate 16 1⟩, ⟨2, "/second", [], none, List.replicate 16 2⟩]

/-- So many calls of the commit `i` that go well. -/
def goodCalls (i n : Nat) : List (Nat × CallAnswer) := List.replicate n (i, { count := 4096 })

theorem samplePair_lawful : @LawfulSerdeState (Json.serdeStates samplePair) :=
  Json.serdeStates_lawful (by decide +kernel)

theorem state_file_ascends_sample :
    letI := Json.serdeStates samplePair
    StateCommits.NeverBack sampleIdentity sampleCommits (goodCalls 0 8 ++ goodCalls 1 9) ∧
      StateCommits.HoldsHighest sampleIdentity sampleCommits
        (StateCommits.run sampleIdentity sampleCommits (goodCalls 0 8 ++ goodCalls 1 9)) :=
  letI := Json.serdeStates samplePair
  haveI := samplePair_lawful
  (state_file_ascends sampleIdentity sampleCommits (by decide) _).mpr (by
    unfold StateCommits.RenamesAscend
    decide +kernel)

/-- The first commit is ready to rename when the second runs from its start to its end, and then
renames over it. -/
theorem state_file_goes_back :
    letI := Json.serdeStates samplePair
    ¬ ∀ schedule, StateCommits.NeverBack sampleIdentity sampleCommits schedule := by
  let _ := Json.serdeStates samplePair
  intro h
  have hback := h (goodCalls 0 6 ++ goodCalls 1 8 ++ goodCalls 0 1) (goodCalls 0 6 ++ goodCalls 1 8) (goodCalls 0 1) []
    (by simp)
  have hbefore : (StateCommits.run sampleIdentity sampleCommits
      (goodCalls 0 6 ++ goodCalls 1 8)).directory.storedSequence sampleIdentity = 2 := by decide +kernel
  have hafter : (StateCommits.run sampleIdentity sampleCommits
      (goodCalls 0 6 ++ goodCalls 1 8 ++ goodCalls 0 1)).directory.storedSequence sampleIdentity = 1 := by
    decide +kernel
  omega

end sample

end PersistShell

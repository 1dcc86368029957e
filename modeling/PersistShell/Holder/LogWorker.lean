import PersistShell.Core.Error
import PersistShell.Program.Rotation

/-! The log worker of the holder: it appends output to the log of its session and shifts the
numbered files of a log that would grow too large. The files of a log are what the rotation keeps
of the output. -/

namespace PersistShell

structure StoredLog where
  content : Bytes
  uid : Nat
  mode : Nat
  deriving DecidableEq, Repr

/-- The directory of the session logs. -/
structure LogDirectory where
  uid : Nat
  mode : Nat
  files : String → Option StoredLog

/-- A file that is open for appending, by the name it is open under. -/
structure LogFile where
  bytesWritten : Nat
  deriving DecidableEq, Repr

structure LogWorker where
  dir : LogDirectory
  files : String → Option LogFile

def logMode : Nat := 0o600

/-- The largest length a file can have. -/
def maxFileLength : Nat := 2 ^ 63 - 1

def Errno.notFound : Errno := .other 2
def Errno.permissionDenied : Errno := .other 13
def Errno.fileTooLarge : Errno := .other 27

/-- The name of a session's log. -/
def logName (s : Nat) : String := toString s ++ ".log"

def rotatedPath (path : String) (number : Nat) : String := path ++ "." ++ toString number

namespace LogDirectory

def set (dir : LogDirectory) (name : String) (file : Option StoredLog) : LogDirectory :=
  { dir with files := fun other => if other = name then file else dir.files other }

def removeFile (dir : LogDirectory) (name : String) : Except Errno LogDirectory :=
  if (dir.files name).isSome then .ok (dir.set name none) else .error .notFound

def rename (dir : LogDirectory) (old new : String) : Except Errno LogDirectory :=
  match dir.files old with
  | none => .error .notFound
  | some file => .ok ((dir.set old none).set new (some file))

/-- `write_all` at the end of an open file. -/
def append (dir : LogDirectory) (name : String) (data : Bytes) : Except Errno LogDirectory :=
  match dir.files name with
  | none => .error .notFound
  | some file =>
    if file.content.length + data.length > maxFileLength then .error .fileTooLarge
    else .ok (dir.set name (some { file with content := file.content ++ data }))

/-- A new file is private; the holder's umask leaves the owner's bits. -/
def openLog (dir : LogDirectory) (uid : Nat) (path : String) :
    Except Errno (LogFile × LogDirectory) :=
  match dir.files path with
  | none => .ok ({ bytesWritten := 0 }, dir.set path (some { content := [], uid, mode := logMode }))
  | some file =>
    if file.uid ≠ uid ∨ file.mode &&& 0o077 ≠ 0 then .error .permissionDenied
    else .ok ({ bytesWritten := file.content.length }, dir)

/-- A file that exists is renamed. -/
def moveLog (dir : LogDirectory) (old new : String) : Except Errno LogDirectory :=
  if (dir.files old).isSome then dir.rename old new else .ok dir

/-- The rotated files from `number` down to the first one move up by one. -/
def shiftLogs (path : String) : Nat → LogDirectory → Except Errno LogDirectory
  | 0, dir => .ok dir
  | number + 1, dir => do
    let dir ← dir.moveLog (rotatedPath path (number + 1)) (rotatedPath path (number + 2))
    shiftLogs path number dir

def moveActive (dir : LogDirectory) (path : String) (maxFiles : Nat) :
    Except Errno LogDirectory :=
  if maxFiles > 0 then dir.rename path (rotatedPath path 1) else dir.removeFile path

def rotateLog (dir : LogDirectory) (uid : Nat) (path : String) (maxFiles : Nat) :
    Except Errno (LogFile × LogDirectory) := do
  -- a file that is not there need not be removed
  let dir := dir.set (rotatedPath path maxFiles) none
  let dir ← shiftLogs path (maxFiles - 1) dir
  let dir ← dir.moveActive path maxFiles
  dir.openLog uid path

end LogDirectory

namespace LogWorker

def saturatingAdd (a b : Nat) : Nat := min (a + b) (2 ^ 64 - 1)

def setFile (worker : LogWorker) (path : String) (file : LogFile) : LogWorker :=
  { worker with files := fun other => if other = path then some file else worker.files other }

/-- The open log of a path, opened when there is none yet. -/
def openItem (worker : LogWorker) (uid : Nat) (path : String) :
    Except Errno (LogFile × LogWorker) :=
  match worker.files path with
  | some log => .ok (log, worker)
  | none => do
    let (log, dir) ← worker.dir.openLog uid path
    return (log, { worker with dir }.setFile path log)

/-- The file is rotated when the data would make it too large. -/
def makeRoom (dir : LogDirectory) (log : LogFile) (uid maxFileSize maxFiles : Nat) (path : String)
    (data : Bytes) : Except Errno (LogFile × LogDirectory) :=
  if saturatingAdd log.bytesWritten data.length > maxFileSize then dir.rotateLog uid path maxFiles
  else .ok (log, dir)

def writeItem (uid maxFileSize maxFiles : Nat) (worker : LogWorker) (path : String)
    (data : Bytes) : Except Errno LogWorker := do
  let (log, worker) ← worker.openItem uid path
  let (log, dir) ← makeRoom worker.dir log uid maxFileSize maxFiles path data
  let dir ← dir.append path data
  return { worker with dir }.setFile path
    { bytesWritten := saturatingAdd log.bytesWritten data.length }

/-- The items of all sessions, in the order of the queue. -/
def writeItems (uid maxFileSize maxFiles : Nat) (worker : LogWorker)
    (items : List (Nat × Bytes)) : Except Errno LogWorker :=
  items.foldlM (fun worker item =>
    writeItem uid maxFileSize maxFiles worker (logName item.1) item.2) worker

end LogWorker

section names

/-- The names of a session's log and of its rotated files. -/
def slot (s k : Nat) : String := if k = 0 then logName s else rotatedPath (logName s) k

theorem slot_zero (s : Nat) : slot s 0 = logName s := rfl

theorem slot_succ (s k : Nat) : slot s (k + 1) = rotatedPath (logName s) (k + 1) :=
  if_neg (Nat.succ_ne_zero k)

theorem repr_injective {m n : Nat} (h : (toString m : String).toList = (toString n).toList) :
    m = n := by
  have hdigits : Nat.toDigits 10 m = Nat.toDigits 10 n := by
    simpa [Nat.toString_eq_ofList_toDigits] using h
  rw [← Nat.ofDigitChars_ten_toDigits (n := m), hdigits, Nat.ofDigitChars_ten_toDigits]

theorem dot_notMem (n : Nat) : '.' ∉ (toString n : String).toList := by
  intro hmem
  have hdigit : '.' ∈ Nat.toDigits 10 n := by
    simpa [Nat.toString_eq_ofList_toDigits] using hmem
  exact absurd (Nat.isDigit_of_mem_toDigits (by decide) (by decide) hdigit) (by decide)

/-- The characters up to a character that the first part does not have. -/
theorem takeWhile_before {l : List Char} {c : Char} (rest : List Char) (h : c ∉ l) :
    (l ++ c :: rest).takeWhile (· ≠ c) = l := by
  induction l with
  | nil => simp
  | cons a l ih =>
    obtain ⟨hne, hrest⟩ := not_or.mp (mt List.mem_cons.mpr h)
    rw [List.cons_append, List.takeWhile_cons_of_pos (by simpa using Ne.symm hne), ih hrest]

theorem slot_session {s t k j : Nat} (h : slot s k = slot t j) : s = t := by
  have hsplit : ∀ s k, ∃ rest, (slot s k).toList = (toString s : String).toList ++ '.' :: rest := by
    intro s k
    cases k with
    | zero =>
      refine ⟨"log".toList, ?_⟩
      rw [slot_zero, logName, String.toList_append]
      rfl
    | succ k =>
      refine ⟨"log".toList ++ (".".toList ++ (toString (k + 1)).toList), ?_⟩
      rw [slot_succ, rotatedPath, logName, String.toList_append, String.toList_append,
        String.toList_append, List.append_assoc, List.append_assoc]
      rfl
  obtain ⟨rest, hs⟩ := hsplit s k
  obtain ⟨rest', ht⟩ := hsplit t j
  refine repr_injective ?_
  rw [← takeWhile_before rest (dot_notMem s), ← hs, h, ht, takeWhile_before rest' (dot_notMem t)]

theorem slot_number {s k j : Nat} (h : slot s k = slot s j) : k = j := by
  have hlist := congrArg String.toList h
  cases k with
  | zero =>
    cases j with
    | zero => rfl
    | succ j =>
      rw [slot_zero, slot_succ, rotatedPath] at hlist
      simp [String.toList_append] at hlist
  | succ k =>
    cases j with
    | zero =>
      rw [slot_zero, slot_succ, rotatedPath] at hlist
      simp [String.toList_append] at hlist
    | succ j =>
      rw [slot_succ, slot_succ, rotatedPath, rotatedPath, String.toList_append] at hlist
      rw [String.toList_append (s := logName s ++ ".")] at hlist
      exact repr_injective (List.append_cancel_left hlist)

theorem slot_inj {s t k j : Nat} : slot s k = slot t j ↔ s = t ∧ k = j := by
  constructor
  · intro h
    obtain rfl := slot_session h
    exact ⟨rfl, slot_number h⟩
  · rintro ⟨rfl, rfl⟩
    rfl

end names

section steps

variable {uid maxFileSize maxFiles s : Nat}

namespace LogDirectory

variable {dir dir' : LogDirectory} {path : String}

theorem get_set (dir : LogDirectory) (name : String) (file : Option StoredLog) (other : String) :
    (dir.set name file).files other = if other = name then file else dir.files other := rfl

/-- The directory itself and the names that are not of the log stay as they were. -/
structure Besides (s : Nat) (dir dir' : LogDirectory) : Prop where
  uid : dir'.uid = dir.uid
  mode : dir'.mode = dir.mode
  files : ∀ name, (∀ k, name ≠ slot s k) → dir'.files name = dir.files name

theorem Besides.refl (dir : LogDirectory) : Besides s dir dir := ⟨rfl, rfl, fun _ _ => rfl⟩

theorem Besides.trans {dir'' : LogDirectory} (h : Besides s dir dir') (h' : Besides s dir' dir'') :
    Besides s dir dir'' where
  uid := h'.uid.trans h.uid
  mode := h'.mode.trans h.mode
  files name hname := (h'.files name hname).trans (h.files name hname)

theorem besides_set (dir : LogDirectory) (k : Nat) (file : Option StoredLog) :
    Besides s dir (dir.set (slot s k) file) :=
  ⟨rfl, rfl, fun _ hname => if_neg (hname k)⟩

/-- The log of another session does not notice. -/
theorem Besides.other (h : Besides s dir dir') {t : Nat} (hne : t ≠ s) (k : Nat) :
    dir'.files (slot t k) = dir.files (slot t k) :=
  h.files _ fun _ heq => hne (slot_inj.mp heq).1

section frame

variable {log : LogFile}

theorem besides_rename {k j : Nat} (h : dir.rename (slot s k) (slot s j) = .ok dir') :
    Besides s dir dir' := by
  unfold rename at h
  split at h
  · cases h
  · cases h
    exact (besides_set _ _ _).trans (besides_set _ _ _)

theorem besides_moveLog {k j : Nat} (h : dir.moveLog (slot s k) (slot s j) = .ok dir') :
    Besides s dir dir' := by
  unfold moveLog at h
  split at h
  · exact besides_rename h
  · cases h
    exact .refl _

theorem besides_shiftLogs (number : Nat) {dir : LogDirectory}
    (h : shiftLogs (logName s) number dir = .ok dir') : Besides s dir dir' := by
  induction number generalizing dir with
  | zero =>
    cases h
    exact .refl _
  | succ number ih =>
    rw [shiftLogs, ← slot_succ, ← slot_succ] at h
    obtain ⟨dir₁, hmove, hshift⟩ := bind_eq_ok.mp h
    exact (besides_moveLog hmove).trans (ih hshift)

theorem besides_openLog (h : dir.openLog uid (logName s) = .ok (log, dir')) :
    Besides s dir dir' := by
  unfold openLog at h
  split at h
  · cases h
    exact besides_set dir 0 _
  · split at h
    · cases h
    · cases h
      exact .refl _

theorem besides_append {data : Bytes} (h : dir.append (logName s) data = .ok dir') :
    Besides s dir dir' := by
  unfold append at h
  split at h
  · cases h
  · split at h
    · cases h
    · cases h
      exact besides_set dir 0 _

theorem besides_rotateLog (hfiles : 1 ≤ maxFiles)
    (h : dir.rotateLog uid (logName s) maxFiles = .ok (log, dir')) : Besides s dir dir' := by
  obtain ⟨number, rfl⟩ : ∃ number, maxFiles = number + 1 := ⟨maxFiles - 1, by omega⟩
  obtain ⟨dir₁, hshift, h⟩ := bind_eq_ok.mp h
  obtain ⟨dir₂, hmove, hopen⟩ := bind_eq_ok.mp h
  have hlast : Besides s dir (dir.set (rotatedPath (logName s) (number + 1)) none) :=
    besides_set dir (number + 1) none
  have hactive : Besides s dir₁ dir₂ := besides_rename (k := 0) (j := 1) hmove
  exact hlast.trans ((besides_shiftLogs _ hshift).trans (hactive.trans (besides_openLog hopen)))

end frame

theorem rename_slot {file : StoredLog} {k j : Nat} (hfile : dir.files (slot s k) = some file) :
    dir.rename (slot s k) (slot s j) = .ok ((dir.set (slot s k) none).set (slot s j) (some file)) := by
  rw [rename, hfile]

/-- Each rotated file from `number` down moves up by one, into a place that is free. -/
theorem shiftLogs_spec (number : Nat) {dir : LogDirectory}
    (hfree : dir.files (slot s (number + 1)) = none) :
    ∃ dir', shiftLogs (logName s) number dir = .ok dir' ∧
      dir'.files (slot s 0) = dir.files (slot s 0) ∧ dir'.files (slot s 1) = none ∧
      (∀ k, 1 ≤ k → k ≤ number → dir'.files (slot s (k + 1)) = dir.files (slot s k)) ∧
      ∀ k, number + 1 < k → dir'.files (slot s k) = dir.files (slot s k) := by
  induction number generalizing dir with
  | zero =>
    refine ⟨dir, rfl, rfl, hfree, fun k hpos hle => ?_, fun _ _ => rfl⟩
    omega
  | succ number ih =>
    -- after the last of them moved, its place is free
    obtain ⟨dir₁, hmove, hnew, hold, hrest⟩ : ∃ dir₁,
        dir.moveLog (slot s (number + 1)) (slot s (number + 2)) = .ok dir₁ ∧
        dir₁.files (slot s (number + 2)) = dir.files (slot s (number + 1)) ∧
        dir₁.files (slot s (number + 1)) = none ∧
        ∀ k, k ≠ number + 1 → k ≠ number + 2 → dir₁.files (slot s k) = dir.files (slot s k) := by
      unfold moveLog
      cases hfile : dir.files (slot s (number + 1)) with
      | none => exact ⟨dir, rfl, hfree, hfile, fun _ _ _ => rfl⟩
      | some file =>
        refine ⟨_, rename_slot hfile, if_pos rfl, ?_, fun k hne hne' => ?_⟩
        · rw [get_set, if_neg (by rw [slot_inj]; omega), get_set, if_pos rfl]
        · rw [get_set, if_neg (by rw [slot_inj]; omega), get_set, if_neg (by rw [slot_inj]; omega)]
    obtain ⟨dir', hshift, hzero, hone, hmoved, hkept⟩ := ih hold
    refine ⟨dir', ?_, ?_, hone, fun k hpos hle => ?_, fun k hlt => ?_⟩
    · rw [shiftLogs, ← slot_succ, ← slot_succ]
      exact bind_eq_ok.mpr ⟨dir₁, hmove, hshift⟩
    · rw [hzero, hrest 0 (by omega) (by omega)]
    · by_cases hlast : k = number + 1
      · subst hlast
        rw [hkept _ (by omega), hnew]
      · rw [hmoved k hpos (by omega), hrest k hlast (by omega)]
    · rw [hkept k (by omega), hrest k (by omega) (by omega)]

/-- The active file becomes the first rotated one, and the last one goes. -/
theorem rotateLog_spec {active : StoredLog} (hfiles : 1 ≤ maxFiles)
    (hactive : dir.files (slot s 0) = some active) :
    ∃ dir', dir.rotateLog uid (logName s) maxFiles = .ok ({ bytesWritten := 0 }, dir') ∧
      dir'.files (slot s 0) = some { content := [], uid, mode := logMode } ∧
      (∀ k, k < maxFiles → dir'.files (slot s (k + 1)) = dir.files (slot s k)) ∧
      ∀ k, maxFiles < k → dir'.files (slot s k) = dir.files (slot s k) := by
  obtain ⟨number, rfl⟩ : ∃ number, maxFiles = number + 1 := ⟨maxFiles - 1, by omega⟩
  obtain ⟨dir', hshift, hzero, hone, hmoved, hkept⟩ :=
    @shiftLogs_spec s number (dir.set (slot s (number + 1)) none) (if_pos rfl)
  have hkeep : ∀ k, k ≠ number + 1 →
      (dir.set (slot s (number + 1)) none).files (slot s k) = dir.files (slot s k) := fun k hne =>
    if_neg (by rw [slot_inj]; omega)
  rw [hkeep 0 (by omega), hactive] at hzero
  have hnone : ((dir'.set (slot s 0) none).set (slot s 1) (some active)).files (logName s) = none := by
    rw [← slot_zero, get_set, if_neg (by rw [slot_inj]; omega), get_set, if_pos rfl]
  refine ⟨((dir'.set (slot s 0) none).set (slot s 1) (some active)).set (slot s 0)
    (some { content := [], uid, mode := logMode }), ?_, if_pos rfl, fun k hk => ?_,
    fun k hk => ?_⟩
  · refine bind_eq_ok.mpr ⟨dir', hshift, bind_eq_ok.mpr ⟨_, rename_slot (j := 1) hzero, ?_⟩⟩
    rw [openLog, hnone]
    rfl
  · rw [get_set, if_neg (by rw [slot_inj]; omega), get_set]
    cases k with
    | zero => rw [if_pos rfl, hactive]
    | succ k =>
      rw [if_neg (by rw [slot_inj]; omega), get_set, if_neg (by rw [slot_inj]; omega),
        hmoved (k + 1) (by omega) (by omega), hkeep (k + 1) (by omega)]
  · rw [get_set, if_neg (by rw [slot_inj]; omega), get_set, if_neg (by rw [slot_inj]; omega), get_set,
      if_neg (by rw [slot_inj]; omega), hkept k (by omega), hkeep k (by omega)]

/-- The files of a session's log, the newest first, with the items each of them holds. -/
structure Holds (uid s : Nat) (files : List (List Bytes)) (dir : LogDirectory) : Prop where
  slots : ∀ k, (dir.files (slot s k)).map StoredLog.content = files[k]?.map List.flatten
  own : ∀ k file, dir.files (slot s k) = some file → file.uid = uid ∧ file.mode = logMode
  short : ∀ file ∈ files, file.flatten.length ≤ maxFileLength

namespace Holds

variable {files older : List (List Bytes)} {newest : List Bytes} {data : Bytes}

theorem besides (h : dir.Holds uid s files) {t : Nat} (hne : s ≠ t) (hb : Besides t dir dir') :
    dir'.Holds uid s files where
  slots k := by rw [hb.other hne, h.slots]
  own k file hfile := h.own k file (by rw [← hb.other hne, hfile])
  short := h.short

theorem active (h : dir.Holds uid s (newest :: older)) :
    ∃ file, dir.files (slot s 0) = some file ∧ file.content = newest.flatten ∧ file.uid = uid ∧
      file.mode = logMode := by
  obtain ⟨file, hfile, hcontent⟩ := Option.map_eq_some_iff.mp (h.slots 0)
  exact ⟨file, hfile, hcontent, h.own 0 file hfile⟩

/-- The slots behind the active file are those of the older files. -/
theorem push (hslots : ∀ k, (dir.files (slot s (k + 1))).map StoredLog.content =
      older[k]?.map List.flatten)
    (hown : ∀ k file, dir.files (slot s (k + 1)) = some file → file.uid = uid ∧ file.mode = logMode)
    (hshort : ∀ file ∈ older, file.flatten.length ≤ maxFileLength) {active : StoredLog}
    (hactive : dir.files (slot s 0) = some active) (hcontent : active.content = newest.flatten)
    (huid : active.uid = uid ∧ active.mode = logMode)
    (hlength : newest.flatten.length ≤ maxFileLength) : dir.Holds uid s (newest :: older) where
  slots k := by
    cases k with
    | zero => rw [hactive, Option.map_some, hcontent]; rfl
    | succ k => exact hslots k
  own k file hfile := by
    cases k with
    | zero =>
      cases hactive.symm.trans hfile
      exact huid
    | succ k => exact hown k file hfile
  short := List.forall_mem_cons.mpr ⟨hlength, hshort⟩

/-- A log that is not there is opened as an empty one. -/
theorem openLog (h : dir.Holds uid s []) :
    ∃ dir', dir.openLog uid (logName s) = .ok ({ bytesWritten := 0 }, dir') ∧
      dir'.Holds uid s [[]] := by
  have hnone : ∀ k, dir.files (slot s k) = none := fun k => Option.map_eq_none_iff.mp (h.slots k)
  refine ⟨dir.set (slot s 0) (some { content := [], uid, mode := logMode }), ?_, ?_⟩
  · rw [LogDirectory.openLog, ← slot_zero, hnone 0]
  · have hkeep : ∀ k, (dir.set (slot s 0) (some { content := [], uid, mode := logMode })).files
        (slot s (k + 1)) = none := fun k => by
      rw [get_set, if_neg (by rw [slot_inj]; omega), hnone]
    exact push (fun k => by rw [hkeep]; rfl) (fun k file hfile => by rw [hkeep] at hfile; cases hfile)
      (fun file hmem => by cases hmem) (if_pos rfl) rfl ⟨rfl, rfl⟩ (Nat.zero_le _)

theorem append (h : dir.Holds uid s (newest :: older))
    (hrun : dir.append (logName s) data = .ok dir') :
    dir'.Holds uid s ((newest ++ [data]) :: older) ∧
      newest.flatten.length + data.length ≤ maxFileLength := by
  obtain ⟨file, hfile, hcontent, hown⟩ := h.active
  rw [LogDirectory.append, ← slot_zero, hfile] at hrun
  dsimp only at hrun
  split at hrun
  · cases hrun
  · rename_i hlength
    cases hrun
    rw [hcontent] at hlength ⊢
    have hnew : (newest ++ [data]).flatten = newest.flatten ++ data := by simp
    have hkeep : ∀ k, (dir.set (slot s 0) (some { file with
        content := newest.flatten ++ data })).files (slot s (k + 1)) = dir.files (slot s (k + 1)) :=
      fun k => if_neg (by rw [slot_inj]; omega)
    refine ⟨push (fun k => ?_) (fun k file' hfile' => ?_) (fun file' hmem => ?_) (if_pos rfl) hnew.symm
      hown ?_, Nat.le_of_not_lt hlength⟩
    · rw [hkeep, h.slots]
      rfl
    · rw [hkeep] at hfile'
      exact h.own (k + 1) file' hfile'
    · exact h.short file' (List.mem_cons_of_mem _ hmem)
    · rw [hnew, List.length_append]
      exact Nat.le_of_not_lt hlength

theorem rotateLog (h : dir.Holds uid s files) (hfiles : 1 ≤ maxFiles)
    (hlength : files.length ≤ maxFiles + 1) (hne : files ≠ []) :
    ∃ dir', dir.rotateLog uid (logName s) maxFiles = .ok ({ bytesWritten := 0 }, dir') ∧
      dir'.Holds uid s ([] :: files.take maxFiles) := by
  obtain ⟨newest, older, rfl⟩ := List.exists_cons_of_ne_nil hne
  obtain ⟨active, hactive, -⟩ := h.active
  obtain ⟨dir', hrotate, hnew, hmoved, hkept⟩ :=
    @rotateLog_spec uid maxFiles s dir active hfiles hactive
  have hbehind : ∀ k, dir'.files (slot s (k + 1)) =
      if k < maxFiles then dir.files (slot s k) else none := by
    intro k
    split
    · exact hmoved k ‹_›
    · rw [hkept (k + 1) (by omega)]
      refine Option.map_eq_none_iff.mp ((h.slots (k + 1)).trans ?_)
      rw [List.getElem?_eq_none (by omega)]
      rfl
  refine ⟨dir', hrotate, push (fun k => ?_) (fun k file hfile => ?_) (fun file hmem => ?_) hnew rfl
    ⟨rfl, rfl⟩ (Nat.zero_le _)⟩
  · rw [hbehind, List.getElem?_take]
    split
    · exact h.slots k
    · rfl
  · rw [hbehind] at hfile
    split at hfile
    · exact h.own k file hfile
    · cases hfile
  · exact h.short file (List.mem_of_mem_take hmem)

end Holds

end LogDirectory

namespace LogWorker

variable {worker worker' : LogWorker} {files : List (List Bytes)} {data : Bytes}

/-- The worker keeps the files of the session and knows the length of the active one. -/
structure Keeps (uid s : Nat) (files : List (List Bytes)) (worker : LogWorker) : Prop where
  dir : worker.dir.Holds uid s files
  handle : worker.files (logName s) =
    files.head?.map fun newest => { bytesWritten := newest.flatten.length }

/-- An item changes only the log of its session. -/
theorem writeItem_besides (hfiles : 1 ≤ maxFiles)
    (h : writeItem uid maxFileSize maxFiles worker (logName s) data = .ok worker') :
    worker.dir.Besides s worker'.dir ∧
      ∀ path, path ≠ logName s → worker'.files path = worker.files path := by
  obtain ⟨⟨log, worker₁⟩, hopen, h⟩ := bind_eq_ok.mp h
  obtain ⟨⟨log₂, dir₂⟩, hroom, h⟩ := bind_eq_ok.mp h
  obtain ⟨dir₃, happend, h⟩ := bind_eq_ok.mp h
  cases h
  have hopened : worker.dir.Besides s worker₁.dir ∧
      ∀ path, path ≠ logName s → worker₁.files path = worker.files path := by
    unfold openItem at hopen
    split at hopen
    · cases hopen
      exact ⟨.refl _, fun _ _ => rfl⟩
    · obtain ⟨⟨log₁, dir₁⟩, hlog, hopen⟩ := bind_eq_ok.mp hopen
      cases hopen
      exact ⟨LogDirectory.besides_openLog hlog, fun path hne => if_neg hne⟩
  have hroom : worker₁.dir.Besides s dir₂ := by
    unfold makeRoom at hroom
    split at hroom
    · exact LogDirectory.besides_rotateLog hfiles hroom
    · cases hroom
      exact .refl _
  refine ⟨hopened.1.trans (hroom.trans (LogDirectory.besides_append happend)), fun path hne => ?_⟩
  exact (if_neg hne).trans (hopened.2 path hne)

/-- The log is open for the item, and empty when there was none. -/
theorem openItem_spec (h : worker.Keeps uid s files) :
    ∃ worker', worker.openItem uid (logName s) =
        .ok ({ bytesWritten := (files.headD []).flatten.length }, worker') ∧
      worker'.dir.Holds uid s (files.headD [] :: files.tail) := by
  unfold openItem
  cases files with
  | nil =>
    have hnone : worker.files (logName s) = none := h.handle
    obtain ⟨dir', hopen, hholds⟩ := h.dir.openLog
    rw [hnone, hopen]
    exact ⟨_, rfl, hholds⟩
  | cons newest older =>
    rw [h.handle]
    exact ⟨worker, rfl, h.dir⟩

theorem size_eq (file : List Bytes) : (file.map List.length).sum = file.flatten.length :=
  List.length_flatten.symm

/-- An item is written as the rotation says. -/
theorem writeItem_keeps (hsize : maxFileSize < 2 ^ 64) (hfiles : 1 ≤ maxFiles)
    (h : worker.Keeps uid s files) (hlength : files.length ≤ maxFiles + 1)
    (hrun : writeItem uid maxFileSize maxFiles worker (logName s) data = .ok worker') :
    worker'.Keeps uid s (Rotation.write List.length maxFileSize maxFiles files data) := by
  obtain ⟨⟨log, worker₁⟩, hopen, hrun⟩ := bind_eq_ok.mp hrun
  obtain ⟨⟨log₂, dir₂⟩, hroom, hrun⟩ := bind_eq_ok.mp hrun
  obtain ⟨dir₃, happend, hrun⟩ := bind_eq_ok.mp hrun
  cases hrun
  obtain ⟨worker₂, hopen', hholds⟩ := openItem_spec h
  cases hopen.symm.trans hopen'
  have hsmall : maxFileLength < 2 ^ 64 - 1 := by decide
  unfold makeRoom saturatingAdd at hroom
  dsimp only at hroom
  unfold Rotation.write
  rw [size_eq]
  split at hroom
  · rename_i hfull
    rw [if_neg (by omega)]
    obtain ⟨dir', hrotate, hrotated⟩ := hholds.rotateLog hfiles
      (by rw [List.length_cons, List.length_tail]; omega) (List.cons_ne_nil _ _)
    cases hroom.symm.trans hrotate
    obtain ⟨hwritten, hbound⟩ := hrotated.append happend
    rw [List.take_succ_cons]
    refine ⟨hwritten, (if_pos rfl).trans (congrArg some (congrArg LogFile.mk ?_))⟩
    simp only [saturatingAdd, List.flatten_cons, List.flatten_nil, List.append_nil]
    simp only [List.flatten_nil, List.length_nil] at hbound
    omega
  · rename_i hfits
    cases hroom
    obtain ⟨hwritten, hbound⟩ := hholds.append happend
    rw [if_pos (by omega)]
    refine ⟨hwritten, (if_pos rfl).trans (congrArg some (congrArg LogFile.mk ?_))⟩
    simp only [saturatingAdd, List.flatten_append, List.flatten_cons, List.flatten_nil,
      List.append_nil, List.length_append]
    omega

/-- What the worker keeps of a session after any items of all sessions. -/
theorem writeItems_keeps (hsize : maxFileSize < 2 ^ 64) (hfiles : 1 ≤ maxFiles)
    (items : List (Nat × Bytes)) {worker worker' : LogWorker} {before : List Bytes}
    (h : worker.Keeps uid s (Rotation.writeAll List.length maxFileSize maxFiles before))
    (hrun : writeItems uid maxFileSize maxFiles worker items = .ok worker') :
    worker'.Keeps uid s (Rotation.writeAll List.length maxFileSize maxFiles
      (before ++ (items.filter (·.1 = s)).map Prod.snd)) ∧
      worker'.dir.uid = worker.dir.uid ∧ worker'.dir.mode = worker.dir.mode := by
  induction items generalizing worker before with
  | nil =>
    cases hrun
    rw [List.filter_nil, List.map_nil, List.append_nil]
    exact ⟨h, rfl, rfl⟩
  | cons item items ih =>
    obtain ⟨t, data⟩ := item
    rw [writeItems, List.foldlM_cons] at hrun
    obtain ⟨worker₁, hitem, hrest⟩ := bind_eq_ok.mp hrun
    have hbesides := writeItem_besides hfiles hitem
    by_cases ht : t = s
    · subst ht
      have hnext : worker₁.Keeps uid t (Rotation.writeAll List.length maxFileSize maxFiles
          (before ++ [data])) := by
        rw [Rotation.writeAll, List.foldl_append]
        exact writeItem_keeps hsize hfiles h (Rotation.writeAll_spec _ _ _ _).2.1 hitem
      obtain ⟨hkeeps, huid, hmode⟩ := ih hnext hrest
      rw [List.filter_cons_of_pos (by simp), List.map_cons]
      rw [List.append_assoc] at hkeeps
      exact ⟨hkeeps, huid.trans hbesides.1.uid, hmode.trans hbesides.1.mode⟩
    · have hother : logName s ≠ logName t := fun heq =>
        ht (slot_inj.mp (show slot s 0 = slot t 0 from heq)).1.symm
      have hnext : worker₁.Keeps uid s (Rotation.writeAll List.length maxFileSize maxFiles before) :=
        ⟨h.dir.besides (Ne.symm ht) hbesides.1, (hbesides.2 _ hother).trans h.handle⟩
      obtain ⟨hkeeps, huid, hmode⟩ := ih hnext hrest
      rw [List.filter_cons_of_neg (by simpa using ht)]
      exact ⟨hkeeps, huid.trans hbesides.1.uid, hmode.trans hbesides.1.mode⟩

end LogWorker

end steps

end PersistShell

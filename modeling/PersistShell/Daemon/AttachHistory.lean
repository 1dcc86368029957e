import PersistShell.Holder.LogWorker

/-! The history that an attach replays: the daemon reads the end of a session's log, from the active
file back through the rotated ones. It reads back the end of what the log worker of the holder
wrote. -/

namespace PersistShell

def maxRotatedFiles : Nat := 1024

def logDirMode : Nat := 0o700

def validateDirectory (dir : LogDirectory) (expectedUid : Nat) : Except PersistError Unit :=
  rejectIf (dir.uid ≠ expectedUid ∨ dir.mode &&& 0o777 ≠ logDirMode)
    (.invalidArgument "unsafe session log directory")

def validateLog (file : StoredLog) (expectedUid : Nat) : Except PersistError Unit :=
  rejectIf (file.uid ≠ expectedUid ∨ file.mode &&& 0o777 ≠ logMode)
    (.invalidArgument "unsafe session replay log")

/-- At most `maxBytes` from the end of a file. -/
def readTail (file : StoredLog) (maxBytes : Nat) : Except PersistError Bytes := do
  let count := min file.content.length maxBytes
  rejectIf (count ≥ 2 ^ 64) (.invalidArgument "session replay length exceeds usize")
  if count = 0 then return []
  rejectIf (count ≥ 2 ^ 63) (.invalidArgument "session replay length exceeds i64")
  return file.content.drop (file.content.length - count)

def replayName (sessionId rotation : Nat) : String :=
  if rotation = 0 then toString sessionId ++ ".log"
  else toString sessionId ++ ".log." ++ toString rotation

/-- The segments of the given rotations that exist, while bytes remain to be read. -/
def readSegments (dir : LogDirectory) (sessionId expectedUid : Nat) :
    Nat → List Nat → Except PersistError (List Bytes)
  | _, [] => .ok []
  | remaining, rotation :: rotations =>
    match dir.files (replayName sessionId rotation) with
    | none => readSegments dir sessionId expectedUid remaining rotations
    | some file => do
      validateLog file expectedUid
      let bytes ← readTail file remaining
      if remaining - bytes.length = 0 then return [bytes]
      else return bytes :: (← readSegments dir sessionId expectedUid (remaining - bytes.length)
        rotations)

def readRotatedTail (dir : Option LogDirectory) (sessionId maxFiles maxBytes expectedUid : Nat) :
    Except PersistError Bytes :=
  if maxBytes = 0 then .ok []
  else if maxFiles > maxRotatedFiles then
    .error (.invalidArgument "session log rotation count exceeds replay limit")
  else
    match dir with
    | none => .ok []
    | some dir => do
      validateDirectory dir expectedUid
      let segments ← readSegments dir sessionId expectedUid maxBytes (List.range (maxFiles + 1))
      return segments.reverse.flatten

section reading

variable {uid s maxFileSize maxFiles : Nat} {dir : LogDirectory} {files : List (List Bytes)}

/-- The reader looks for the names that the worker gives. -/
theorem replayName_eq (s k : Nat) : replayName s k = slot s k := by
  unfold replayName slot
  split
  · rfl
  · have hdot : toString s ++ ".log" ++ "." = toString s ++ ".log." := String.append_assoc.trans rfl
    rw [rotatedPath, logName, hdot]

theorem readTail_ok {file : StoredLog} (h : file.content.length ≤ maxFileLength) (maxBytes : Nat) :
    readTail file maxBytes = .ok (file.content.rtake maxBytes) := by
  have hsmall : maxFileLength < 2 ^ 63 := by decide
  have hdrop : file.content.length - min file.content.length maxBytes =
      file.content.length - maxBytes := by omega
  unfold readTail
  dsimp only
  rw [rejectIf, if_neg (by omega)]
  refine bind_eq_ok.mpr ⟨(), rfl, ?_⟩
  split
  · rename_i hzero
    rw [List.rtake, ← hdrop, hzero, Nat.sub_zero, List.drop_length]
    rfl
  · rw [rejectIf, if_neg (by omega)]
    refine bind_eq_ok.mpr ⟨(), rfl, ?_⟩
    rw [hdrop]
    rfl

/-- Reading the slots one after the other is reading the files backwards. -/
theorem readSegments_ok (h : dir.Holds uid s files) (count : Nat) {k remaining : Nat}
    (hcount : files.length ≤ k + count) :
    readSegments dir s uid remaining (List.range' k count) =
      .ok (Rotation.collect remaining ((files.drop k).map List.flatten)) := by
  induction count generalizing k remaining with
  | zero =>
    rw [List.drop_of_length_le (by omega)]
    rfl
  | succ count ih =>
    have hslot := h.slots k
    rw [List.range'_succ, readSegments, replayName_eq]
    cases hfile : dir.files (slot s k) with
    | none =>
      rw [hfile] at hslot
      have hend : files.length ≤ k :=
        List.getElem?_eq_none_iff.mp (Option.map_eq_none_iff.mp hslot.symm)
      dsimp only
      rw [ih (by omega), List.drop_of_length_le hend, List.drop_of_length_le (by omega)]
    | some file =>
      rw [hfile] at hslot
      obtain ⟨items, hitems, hcontent⟩ := Option.map_eq_some_iff.mp hslot.symm
      obtain ⟨hlt, rfl⟩ := List.getElem?_eq_some_iff.mp hitems
      obtain ⟨huid, hmode⟩ := h.own k file hfile
      have hlength : file.content.length ≤ maxFileLength := by
        rw [← hcontent]
        exact h.short _ (List.getElem_mem hlt)
      have hvalid : validateLog file uid = .ok () := by
        rw [validateLog, rejectIf, if_neg]
        · rfl
        · rw [huid, hmode]
          exact fun hunsafe => hunsafe.elim (absurd rfl) (absurd (by decide))
      dsimp only
      rw [hvalid, readTail_ok hlength, List.drop_eq_getElem_cons hlt, List.map_cons, hcontent,
        Rotation.collect]
      change (if remaining - (file.content.rtake remaining).length = 0 then _ else _) = _
      split
      · rfl
      · rw [ih (by omega)]
        rfl

theorem readRotatedTail_ok (h : dir.Holds uid s files) (hlength : files.length ≤ maxFiles + 1)
    (hmax : maxFiles ≤ maxRotatedFiles) (huid : dir.uid = uid)
    (hmode : dir.mode &&& 0o777 = logDirMode) (maxBytes : Nat) :
    readRotatedTail (some dir) s maxFiles maxBytes uid =
      .ok ((Rotation.contents files).flatten.rtake maxBytes) := by
  unfold readRotatedTail
  split
  · rename_i hzero
    rw [hzero, List.rtake_zero]
  · rw [if_neg (Nat.not_lt.mpr hmax)]
    have hvalid : validateDirectory dir uid = .ok () := by
      rw [validateDirectory, rejectIf, if_neg (by simp [huid, hmode])]
      rfl
    have hsegments : readSegments dir s uid maxBytes (List.range' 0 (maxFiles + 1)) =
        .ok (Rotation.collect maxBytes ((files.drop 0).map List.flatten)) :=
      readSegments_ok h (maxFiles + 1) (by omega)
    rw [List.drop_zero] at hsegments
    dsimp only
    rw [hvalid, List.range_eq_range', hsegments]
    refine congrArg Except.ok ?_
    have hcontents : Rotation.contents (files.map List.flatten) =
        (Rotation.contents files).flatten := by
      rw [Rotation.contents, Rotation.contents, ← List.map_reverse, List.flatten_flatten]
    rw [← hcontents]
    exact Rotation.contents_collect maxBytes _

/-- The end of the end is the end. -/
theorem rtake_of_suffix {stream retained : Bytes} (h : retained <:+ stream) (n : Nat) :
    retained.rtake n = stream.rtake (min n retained.length) := by
  obtain ⟨front, rfl⟩ := h
  rw [Rotation.rtake_append_of_le (Nat.min_le_right _ _), List.rtake, List.rtake]
  congr 1
  omega

/-- The files of a session's log hold the end of what the worker wrote for it, no more of them than
configured and none too large unless one item is, and the daemon reads back the end of that. -/
theorem session_log_reads_back {items : List (Nat × Bytes)} {worker : LogWorker}
    (hsize : maxFileSize < 2 ^ 64) (hfiles : 1 ≤ maxFiles) (hmax : maxFiles ≤ 1024)
    (huid : dir.uid = uid) (hmode : dir.mode &&& 0o777 = logDirMode)
    (hnone : ∀ k, dir.files (slot s k) = none)
    (hrun : LogWorker.writeItems uid maxFileSize maxFiles ⟨dir, fun _ => none⟩ items = .ok worker) :
    ∃ files : List (List Bytes),
      (∀ k, (worker.dir.files (slot s k)).map StoredLog.content = files[k]?.map List.flatten) ∧
      files.length ≤ maxFiles + 1 ∧
      Rotation.contents files <:+ (items.filter (·.1 = s)).map Prod.snd ∧
      (Rotation.contents files).flatten <:+ ((items.filter (·.1 = s)).map Prod.snd).flatten ∧
      (∀ file ∈ files, 1 < file.length → file.flatten.length ≤ maxFileSize) ∧
      ∀ maxBytes, readRotatedTail (some worker.dir) s maxFiles maxBytes uid =
        .ok (((items.filter (·.1 = s)).map Prod.snd).flatten.rtake
          (min maxBytes (Rotation.contents files).flatten.length)) := by
  have hstart : LogWorker.Keeps uid s (Rotation.writeAll List.length maxFileSize maxFiles [])
      ⟨dir, fun _ => none⟩ := by
    refine ⟨⟨fun k => ?_, fun k file hfile => ?_, fun file hmem => by cases hmem⟩, rfl⟩
    · rw [hnone]
      rfl
    · rw [hnone] at hfile
      cases hfile
  obtain ⟨hkeeps, huid', hmode'⟩ := LogWorker.writeItems_keeps hsize hfiles items hstart hrun
  rw [List.nil_append] at hkeeps
  obtain ⟨hsuffix, hlength, hbounded⟩ := Rotation.writeAll_spec List.length maxFileSize maxFiles
    ((items.filter (·.1 = s)).map Prod.snd)
  have hbytes : (Rotation.contents (Rotation.writeAll List.length maxFileSize maxFiles
      ((items.filter (·.1 = s)).map Prod.snd))).flatten <:+
      ((items.filter (·.1 = s)).map Prod.snd).flatten := by
    obtain ⟨front, hfront⟩ := hsuffix
    exact ⟨front.flatten, by rw [← List.flatten_append, hfront]⟩
  refine ⟨_, hkeeps.dir.slots, hlength, hsuffix, hbytes, fun file hmem hmore => ?_,
    fun maxBytes => ?_⟩
  · rw [← LogWorker.size_eq]
    exact hbounded file hmem hmore
  · rw [readRotatedTail_ok hkeeps.dir hlength hmax (huid'.trans huid) (by rw [hmode']; exact hmode),
      rtake_of_suffix hbytes]

end reading

section sample

/-- Items of two sessions, one of them larger than a file of five bytes should be. -/
def sampleItems : List (Nat × Bytes) :=
  [(7, [1, 2, 3]), (8, [9]), (7, [4, 5]), (7, [6, 7, 8, 9, 10, 11]), (7, [12])]

def sampleStream : Bytes := [1, 2, 3, 4, 5, 6, 7, 8, 9, 10, 11, 12]

def sampleLogDirectory : LogDirectory := { uid := 1000, mode := 0o700, files := fun _ => none }

theorem session_log_reads_back_sample :
    ∃ worker, LogWorker.writeItems 1000 5 2 ⟨sampleLogDirectory, fun _ => none⟩ sampleItems =
        .ok worker ∧
      ∃ retained, retained <:+ sampleStream ∧ readRotatedTail (some worker.dir) 7 2 4 1000 =
        .ok (sampleStream.rtake (min 4 retained.length)) := by
  have hok : (LogWorker.writeItems 1000 5 2 ⟨sampleLogDirectory, fun _ => none⟩
      sampleItems).isOk = true := by decide +kernel
  cases hrun : LogWorker.writeItems 1000 5 2 ⟨sampleLogDirectory, fun _ => none⟩ sampleItems with
  | error e =>
    rw [hrun] at hok
    cases hok
  | ok worker =>
    have hsize : 5 < 2 ^ 64 := by decide
    have hfiles : 1 ≤ 2 := by decide
    have hmax : 2 ≤ 1024 := by decide
    obtain ⟨files, -, -, -, hsuffix, -, hread⟩ :=
      @session_log_reads_back 1000 7 5 2 sampleLogDirectory sampleItems worker hsize hfiles hmax
        rfl rfl (fun _ => rfl) hrun
    exact ⟨worker, rfl, (Rotation.contents files).flatten, hsuffix, hread 4⟩

end sample

end PersistShell

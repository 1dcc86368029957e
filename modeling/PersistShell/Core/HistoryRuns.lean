import PersistShell.Core.HistoryCodec
import PersistShell.Program.Retention

/-! The command history over any number of commands: it keeps the longest end of them that is
within its limits. -/

namespace PersistShell

open Retention

section retention

/-- The limits of a history. -/
def FitsHistory (records : List CommandRecord) : Prop :=
  records.length ≤ maxHistoryRecords ∧ estimatedSize records ≤ maxHistoryBytes

variable {records : List CommandRecord}

theorem estimatedSize_append (records : List CommandRecord) (record : CommandRecord) :
    estimatedSize (records ++ [record]) = estimatedSize records + record.size := by
  rw [estimatedSize, estimatedSize, List.map_append, List.sum_append, List.map_singleton,
    List.sum_singleton, Nat.add_assoc]

theorem fitsHistory_shrinks : Shrinks FitsHistory := by
  rintro items record ⟨hlength, hsize⟩
  rw [List.length_append, List.length_singleton] at hlength
  rw [estimatedSize_append] at hsize
  exact ⟨by omega, by omega⟩

theorem dropOversized_suffix (records : List CommandRecord) : dropOversized records <:+ records := by
  induction records with
  | nil => exact List.suffix_refl _
  | cons record records ih =>
    rw [dropOversized]
    split
    · exact ih.trans (List.suffix_cons _ _)
    · exact List.suffix_refl _

theorem dropOversized_size (records : List CommandRecord) :
    estimatedSize (dropOversized records) ≤ maxHistoryBytes := by
  induction records with
  | nil => decide
  | cons record records ih =>
    rw [dropOversized]
    split
    · exact ih
    · exact Nat.le_of_not_lt ‹_›

theorem dropOversized_longest {part : List CommandRecord} (hpart : part <:+ records)
    (hsize : estimatedSize part ≤ maxHistoryBytes) : part <:+ dropOversized records := by
  induction records with
  | nil => exact hpart
  | cons record records ih =>
    rw [dropOversized]
    split
    · rename_i hbig
      rcases List.suffix_cons_iff.mp hpart with rfl | hpart
      · exact absurd hsize (Nat.not_le.mpr hbig)
      · exact ih hpart
    · exact hpart

/-- Compaction keeps the longest end that is within the limits. -/
theorem compact_longest (records : List CommandRecord) :
    Longest FitsHistory (compact records) records := by
  have hdrop := List.drop_suffix (records.length - maxHistoryRecords) records
  have hsuffix := dropOversized_suffix (records.drop (records.length - maxHistoryRecords))
  refine ⟨hsuffix.trans hdrop, ⟨?_, dropOversized_size _⟩, ?_⟩
  · refine Nat.le_trans hsuffix.length_le ?_
    rw [List.length_drop]
    omega
  · rintro part hpart ⟨hlength, hsize⟩
    refine dropOversized_longest ?_ hsize
    refine List.suffix_of_suffix_length_le hpart hdrop ?_
    rw [List.length_drop]
    have := hpart.length_le
    omega

end retention

section writes

theorem apply_truncate (content bytes : Bytes) :
    [FileWrite.truncate, .write 0 bytes].foldl FileWrite.apply content = bytes := by
  change [].take 0 ++ bytes ++ [].drop (0 + bytes.length) = bytes
  rw [List.take_nil, List.nil_append, List.drop_nil, List.append_nil]

/-- A write over a part of the same length. -/
theorem apply_write_middle {front old back new : Bytes} {offset : Nat} (hoffset : front.length = offset)
    (hlength : old.length = new.length) :
    FileWrite.apply (front ++ (old ++ back)) (.write offset new) = front ++ (new ++ back) := by
  change _ ++ new ++ _ = _
  rw [List.take_left' hoffset, ← List.append_assoc front old back, List.drop_left',
    List.append_assoc]
  rw [List.length_append, hoffset, hlength]

theorem apply_write_end (content new : Bytes) :
    FileWrite.apply content (.write content.length new) = content ++ new := by
  change _ ++ new ++ _ = _
  rw [List.take_length, List.drop_of_length_le (Nat.le_add_right _ _), List.append_nil]

/-- The writes of a record put it behind the others, and then the header right. -/
theorem apply_recordWrites (nextSequence count next count' : Nat) (records : List CommandRecord)
    (record : CommandRecord) :
    [FileWrite.write (historyHeader nextSequence count ++
        records.flatMap CommandRecord.bytes).length record.bytes,
      .write 8 (toBeBytes 8 next), .write 16 (toBeBytes 8 count')].foldl FileWrite.apply
        (historyHeader nextSequence count ++ records.flatMap CommandRecord.bytes) =
      historyHeader next count' ++ (records ++ [record]).flatMap CommandRecord.bytes := by
  have hmagic : historyMagic.length = 8 := by decide
  rw [List.foldl_cons, apply_write_end, List.foldl_cons, historyHeader, List.append_assoc,
    List.append_assoc, List.append_assoc, apply_write_middle hmagic
      ((length_toBeBytes _ _).trans (length_toBeBytes _ _).symm),
    List.foldl_cons, List.foldl_nil, ← List.append_assoc historyMagic, apply_write_middle ?_
      ((length_toBeBytes _ _).trans (length_toBeBytes _ _).symm), historyHeader,
    List.flatMap_append, List.flatMap_singleton, List.append_assoc, List.append_assoc,
    List.append_assoc]
  rw [List.length_append, hmagic, length_toBeBytes]

end writes

section numbered

/-- A command that can be appended. -/
structure EndedCommand.Valid (ended : EndedCommand) : Prop where
  valid : validateRecord ended.shell ended.command = .ok ()
  completedAtMs_lt : ended.completedAtMs < 2 ^ 64

def EndedCommand.record (ended : EndedCommand) (sequence : Nat) : CommandRecord where
  sequence := sequence
  completedAtMs := ended.completedAtMs
  shell := ended.shell
  command := ended.command

/-- The records of commands, numbered from one. -/
def numbered (commands : List EndedCommand) : List CommandRecord :=
  commands.mapIdx fun i ended => ended.record (i + 1)

variable {commands : List EndedCommand} {ended : EndedCommand}

theorem length_numbered (commands : List EndedCommand) :
    (numbered commands).length = commands.length := List.length_mapIdx

theorem numbered_append (commands : List EndedCommand) (ended : EndedCommand) :
    numbered (commands ++ [ended]) = numbered commands ++ [ended.record (commands.length + 1)] :=
  List.mapIdx_concat

theorem mem_numbered {record : CommandRecord} (h : record ∈ numbered commands) :
    ∃ ended ∈ commands, ∃ i < commands.length, record = ended.record (i + 1) := by
  obtain ⟨i, hi, rfl⟩ := List.mem_mapIdx.mp h
  exact ⟨commands[i], List.getElem_mem hi, i, hi, rfl⟩

theorem numbered_ordered (commands : List EndedCommand) : Ordered (numbered commands) := by
  induction commands using List.reverseRecOn with
  | nil => exact .nil
  | append_singleton commands ended ih =>
    rw [numbered_append]
    refine List.pairwise_append.mpr ⟨ih, List.pairwise_singleton _ _, fun a ha b hb => ?_⟩
    obtain ⟨_, -, i, hi, rfl⟩ := mem_numbered ha
    rw [List.mem_singleton.mp hb]
    change i + 1 < commands.length + 1
    omega

theorem numbered_valid (h : ∀ ended ∈ commands, ended.Valid) (hlength : commands.length < 2 ^ 64 - 1) :
    ∀ record ∈ numbered commands, record.Valid := by
  intro record hrecord
  obtain ⟨ended, hended, i, hi, rfl⟩ := mem_numbered hrecord
  refine ⟨?_, (h ended hended).completedAtMs_lt, (h ended hended).valid⟩
  change i + 1 < 2 ^ 64
  omega

theorem fitsHistory_singleton {record : CommandRecord} (h : record.Valid) :
    FitsHistory [record] := by
  have hsize := h.size_le
  refine ⟨(by decide : 1 ≤ 10000), ?_⟩
  rw [estimatedSize, List.map_singleton, List.sum_singleton]
  unfold historyHeaderLen maxHistoryBytes
  unfold maxCommandBytes at hsize
  omega

theorem followingSequence_last {kept : List CommandRecord}
    (hkept : Longest FitsHistory kept (numbered (commands ++ [ended])))
    (hvalid : ∀ e ∈ commands ++ [ended], e.Valid)
    (hlength : (commands ++ [ended]).length < 2 ^ 64 - 1) :
    followingSequence kept = (commands ++ [ended]).length + 1 := by
  have hrecord := numbered_valid hvalid hlength
  rw [numbered_append] at hkept hrecord
  rw [followingSequence, hkept.getLast (fitsHistory_singleton (hrecord _
    (List.mem_append_right _ (List.mem_singleton_self _))))]
  rw [List.length_append, List.length_singleton] at hlength ⊢
  change min (commands.length + 1 + 1) (2 ^ 64 - 1) = _
  omega

end numbered

section runs

/-- The file after these commands: the longest end of their records within the limits. -/
def HistoryOf (commands : List EndedCommand) (file : Option Bytes) : Prop :=
  if commands = [] then file = none
  else ∃ kept, file = some (HistoryState.bytes ⟨commands.length + 1, kept⟩) ∧
    Longest FitsHistory kept (numbered commands)

variable {commands : List EndedCommand} {ended : EndedCommand}

theorem loadState_historyOf {kept : List CommandRecord}
    (hkept : Longest FitsHistory kept (numbered commands)) (hne : commands ≠ [])
    (hvalid : ∀ ended ∈ commands, ended.Valid) (hlength : commands.length < 2 ^ 64 - 1) :
    loadState (HistoryState.bytes ⟨commands.length + 1, kept⟩) =
      .ok ⟨commands.length + 1, kept⟩ := by
  obtain ⟨before, last, rfl⟩ : ∃ before last, commands = before ++ [last] :=
    ⟨_, _, (List.dropLast_append_getLast hne).symm⟩
  refine loadState_bytes (by dsimp only; omega)
    (fun record hrecord => numbered_valid hvalid hlength record (hkept.suffix.subset hrecord))
    ((numbered_ordered _).sublist hkept.suffix.sublist) hkept.fits.2 ?_
  exact Nat.le_of_eq (followingSequence_last hkept hvalid hlength)

theorem stateWrites_eq_ok {records : List CommandRecord} (h : ∀ record ∈ records, record.Valid)
    (nextSequence : Nat) : stateWrites ⟨nextSequence, records⟩ =
      .ok [.truncate, .write 0 (HistoryState.bytes ⟨nextSequence, records⟩)] :=
  bind_eq_ok.mpr ⟨(), forM_eq_ok.mpr fun record hrecord => (h record hrecord).valid, rfl⟩

theorem appendCommand_of_writes {file : Option Bytes} {record : CommandRecord}
    {writes : List FileWrite} (h : appendWrites (file.getD []) ended = .ok (record, writes)) :
    appendCommand file ended = .ok (record, writes.foldl FileWrite.apply (file.getD [])) :=
  bind_eq_ok.mpr ⟨_, h, rfl⟩

theorem saturatingSucc_of_lt {n : Nat} (h : n < 2 ^ 64 - 1) : saturatingSucc n = n + 1 :=
  Nat.min_eq_left (by omega)

theorem historyOf_append {kept : List CommandRecord} {next : Nat}
    (hnext : next = (commands ++ [ended]).length + 1)
    (hkept : Longest FitsHistory kept (numbered (commands ++ [ended]))) :
    HistoryOf (commands ++ [ended]) (some (HistoryState.bytes ⟨next, kept⟩)) := by
  subst hnext
  rw [HistoryOf, if_neg (List.concat_ne_nil ended commands)]
  exact ⟨kept, rfl, hkept⟩

/-- The first record makes the file. -/
theorem appendWrites_first (h : ended.Valid) :
    appendWrites [] ended = .ok (ended.record 1,
      [.truncate, .write 0 (HistoryState.bytes ⟨2, [ended.record 1]⟩)]) := by
  have hstate : stateWrites ⟨2, [ended.record 1]⟩ =
      .ok [.truncate, .write 0 (HistoryState.bytes ⟨2, [ended.record 1]⟩)] := by
    refine stateWrites_eq_ok (fun record hrecord => ?_) 2
    rw [List.mem_singleton.mp hrecord]
    exact ⟨(by decide : 1 < 2 ^ 64), h.completedAtMs_lt, h.valid⟩
  refine bind_eq_ok.mpr ⟨(), h.valid, bind_eq_ok.mpr ⟨⟨1, []⟩, rfl, ?_⟩⟩
  exact bind_eq_ok.mpr ⟨_, hstate, rfl⟩

/-- While there is room a record is put behind the others. -/
theorem appendWrites_room {content : Bytes} {state : HistoryState} (h : ended.Valid)
    (hload : loadState content = .ok state) (hne : content ≠ [])
    (hroom : state.records.length < maxHistoryRecords ∧
      estimatedSize state.records + (ended.record state.nextSequence).size ≤ maxHistoryBytes) :
    appendWrites content ended = .ok (ended.record state.nextSequence,
      [.write content.length (ended.record state.nextSequence).bytes,
        .write 8 (toBeBytes 8 (saturatingSucc state.nextSequence)),
        .write 16 (toBeBytes 8 (state.records.length + 1))]) := by
  have hlength : ¬ content.length = 0 := fun hzero => hne (List.eq_nil_of_length_eq_zero hzero)
  refine bind_eq_ok.mpr ⟨(), h.valid, bind_eq_ok.mpr ⟨state, hload, ?_⟩⟩
  dsimp only
  rw [if_neg hlength]
  refine (if_pos hroom).trans ?_
  exact bind_eq_ok.mpr ⟨_, bind_eq_ok.mpr ⟨_, bind_eq_ok.mpr ⟨(), h.valid, rfl⟩, rfl⟩, rfl⟩

/-- Else the file is written again. -/
theorem appendWrites_full {content : Bytes} {state : HistoryState} (h : ended.Valid)
    (hload : loadState content = .ok state) (hne : content ≠ [])
    (hvalid : ∀ record ∈ state.records ++ [ended.record state.nextSequence], record.Valid)
    (hfull : ¬ (state.records.length < maxHistoryRecords ∧
      estimatedSize state.records + (ended.record state.nextSequence).size ≤ maxHistoryBytes)) :
    appendWrites content ended = .ok (ended.record state.nextSequence,
      [.truncate, .write 0 (HistoryState.bytes ⟨saturatingSucc state.nextSequence,
        compact (state.records ++ [ended.record state.nextSequence])⟩)]) := by
  have hlength : ¬ content.length = 0 := fun hzero => hne (List.eq_nil_of_length_eq_zero hzero)
  have hsuffix := (compact_longest (state.records ++ [ended.record state.nextSequence])).suffix
  have hkept : ∀ record ∈ compact (state.records ++ [ended.record state.nextSequence]),
      record.Valid := by
    intro record hrecord
    exact hvalid record (hsuffix.subset hrecord)
  have hcompact := stateWrites_eq_ok hkept (saturatingSucc state.nextSequence)
  refine bind_eq_ok.mpr ⟨(), h.valid, bind_eq_ok.mpr ⟨state, hload, ?_⟩⟩
  dsimp only
  rw [if_neg hlength]
  refine (if_neg hfull).trans ?_
  exact bind_eq_ok.mpr ⟨_, hcompact, rfl⟩

theorem HistoryState.bytes_ne_nil (state : HistoryState) : state.bytes ≠ [] := by
  intro hnil
  have hlength := congrArg List.length hnil
  change (historyHeader _ _ ++ _).length = _ at hlength
  rw [List.length_append, length_historyHeader, List.length_nil] at hlength
  exact absurd hlength (by unfold historyHeaderLen; omega)

/-- An append puts the next record at the end, and keeps the longest end within the limits. -/
theorem appendCommand_numbered {file : Option Bytes} (h : HistoryOf commands file)
    (hvalid : ∀ e ∈ commands ++ [ended], e.Valid)
    (hlength : (commands ++ [ended]).length < 2 ^ 64 - 1) :
    ∃ content, appendCommand file ended = .ok (ended.record (commands.length + 1), content) ∧
      HistoryOf (commands ++ [ended]) (some content) := by
  have hended := hvalid ended (List.mem_append_right _ (List.mem_singleton_self _))
  have hrecords := numbered_valid hvalid hlength
  have hcount : (commands ++ [ended]).length = commands.length + 1 := by
    rw [List.length_append, List.length_singleton]
  have hsucc : saturatingSucc (commands.length + 1) = (commands ++ [ended]).length + 1 := by
    rw [saturatingSucc_of_lt (hcount ▸ hlength), hcount]
  by_cases hempty : commands = []
  · subst hempty
    rw [HistoryOf, if_pos rfl] at h
    subst h
    refine ⟨_, appendCommand_of_writes (appendWrites_first hended), ?_⟩
    rw [apply_truncate]
    exact historyOf_append rfl (.refl (fitsHistory_singleton (hrecords _ List.mem_cons_self)))
  · rw [HistoryOf, if_neg hempty] at h
    obtain ⟨kept, rfl, hkept⟩ := h
    have hbefore : ∀ e ∈ commands, e.Valid := fun e he => hvalid e (List.mem_append_left _ he)
    have hload := loadState_historyOf hkept hempty hbefore (by omega)
    have hne := HistoryState.bytes_ne_nil ⟨commands.length + 1, kept⟩
    rw [numbered_append] at hrecords
    have hall : ∀ record ∈ kept ++ [ended.record (commands.length + 1)], record.Valid := by
      intro record hrecord
      refine hrecords record (List.mem_append.mpr ?_)
      exact (List.mem_append.mp hrecord).imp_left fun hmem => hkept.suffix.subset hmem
    by_cases hroom : kept.length < maxHistoryRecords ∧
        estimatedSize kept + (ended.record (commands.length + 1)).size ≤ maxHistoryBytes
    · have hwrites := appendWrites_room hended hload hne hroom
      dsimp only at hwrites
      refine ⟨_, appendCommand_of_writes hwrites, ?_⟩
      have hwritten := apply_recordWrites (commands.length + 1) kept.length
        (saturatingSucc (commands.length + 1)) (kept.length + 1) kept
        (ended.record (commands.length + 1))
      change HistoryOf _ (some (List.foldl FileWrite.apply (historyHeader _ _ ++ _)
        [.write (historyHeader _ _ ++ _).length _, _, _]))
      rw [hwritten]
      have hfits : FitsHistory (kept ++ [ended.record (commands.length + 1)]) := by
        rw [FitsHistory, List.length_append, List.length_singleton, estimatedSize_append]
        exact hroom
      have hlongest := hkept.append fitsHistory_shrinks (.refl hfits)
      rw [← numbered_append] at hlongest
      have hbytes : historyHeader (saturatingSucc (commands.length + 1)) (kept.length + 1) ++
          (kept ++ [ended.record (commands.length + 1)]).flatMap CommandRecord.bytes =
          HistoryState.bytes ⟨saturatingSucc (commands.length + 1),
            kept ++ [ended.record (commands.length + 1)]⟩ := by
        rw [HistoryState.bytes, HistoryState.header, historyHeader, List.length_append,
          List.length_singleton]
      rw [hbytes]
      exact historyOf_append hsucc hlongest
    · have hwrites := appendWrites_full hended hload hne hall hroom
      refine ⟨_, appendCommand_of_writes hwrites, ?_⟩
      rw [apply_truncate]
      have hlongest := hkept.append fitsHistory_shrinks
        (compact_longest (kept ++ [ended.record (commands.length + 1)]))
      rw [← numbered_append] at hlongest
      exact historyOf_append hsucc hlongest

/-- The appends of the commands, with the records they return. -/
def appendAll (commands : List EndedCommand) :
    Except PersistError (List CommandRecord × Option Bytes) :=
  commands.foldlM (fun past ended => do
    let (record, content) ← appendCommand past.2 ended
    return (past.1 ++ [record], some content)) ([], none)

theorem appendAll_numbered (hvalid : ∀ ended ∈ commands, ended.Valid)
    (hlength : commands.length < 2 ^ 64 - 1) :
    ∃ file, appendAll commands = .ok (numbered commands, file) ∧ HistoryOf commands file := by
  induction commands using List.reverseRecOn with
  | nil => exact ⟨none, rfl, by rw [HistoryOf, if_pos rfl]⟩
  | append_singleton commands ended ih =>
    have hbefore : ∀ e ∈ commands, e.Valid := fun e he => hvalid e (List.mem_append_left _ he)
    obtain ⟨file, hall, hfile⟩ := ih hbefore (by
      rw [List.length_append] at hlength
      omega)
    obtain ⟨content, happend, hcontent⟩ := appendCommand_numbered hfile hvalid hlength
    refine ⟨some content, ?_, hcontent⟩
    rw [numbered_append, appendAll, List.foldlM_append]
    exact bind_eq_ok.mpr ⟨_, hall, bind_eq_ok.mpr ⟨_, bind_eq_ok.mpr ⟨_, happend, rfl⟩, rfl⟩⟩

theorem readCommandsDesc_of_load {content : Bytes} {state : HistoryState}
    (h : loadState content = .ok state) (offset limit : Nat) :
    readCommandsDesc (some content) offset limit =
      .ok ((state.records.reverse.drop offset).take limit) := by
  unfold readCommandsDesc
  dsimp only
  by_cases hlimit : limit = 0
  · rw [if_pos hlimit, hlimit, List.take_zero]
  · rw [if_neg hlimit]
    exact bind_eq_ok.mpr ⟨state, h, rfl⟩

/-- The history is the longest end of the commands within its limits, numbered from one, with the
last command always in it, and is read from its end. -/
theorem history_keeps_longest (hvalid : ∀ ended ∈ commands, ended.Valid)
    (hlength : commands.length < 2 ^ 64 - 1) :
    ∃ records file kept, appendAll commands = .ok (records, file) ∧
      (∀ i record, records[i]? = some record →
        ∃ ended : EndedCommand, commands[i]? = some ended ∧ record = ended.record (i + 1)) ∧
      records.length = commands.length ∧
      Longest FitsHistory kept records ∧ kept.getLast? = records.getLast? ∧
      (commands ≠ [] → ∃ content, file = some content ∧ content.length = estimatedSize kept ∧
        loadState content = .ok ⟨commands.length + 1, kept⟩) ∧
      ∀ offset limit, readCommandsDesc file offset limit =
        .ok ((kept.reverse.drop offset).take limit) := by
  obtain ⟨file, hall, hfile⟩ := appendAll_numbered hvalid hlength
  have hnumbered : ∀ i record, (numbered commands)[i]? = some record →
      ∃ ended : EndedCommand, commands[i]? = some ended ∧ record = ended.record (i + 1) := by
    intro i record hrecord
    rw [numbered, List.getElem?_mapIdx] at hrecord
    obtain ⟨ended, hended, rfl⟩ := Option.map_eq_some_iff.mp hrecord
    exact ⟨ended, hended, rfl⟩
  by_cases hempty : commands = []
  · subst hempty
    rw [HistoryOf, if_pos rfl] at hfile
    subst hfile
    refine ⟨_, none, [], hall, hnumbered, length_numbered _, .refl ⟨by decide, by decide⟩, rfl,
      fun hne => absurd rfl hne, fun offset limit => ?_⟩
    rw [List.reverse_nil, List.drop_nil, List.take_nil]
    rfl
  · rw [HistoryOf, if_neg hempty] at hfile
    obtain ⟨kept, rfl, hkept⟩ := hfile
    have hload := loadState_historyOf hkept hempty hvalid hlength
    obtain ⟨before, last, rfl⟩ : ∃ before last, commands = before ++ [last] :=
      ⟨_, _, (List.dropLast_append_getLast hempty).symm⟩
    refine ⟨_, _, kept, hall, hnumbered, length_numbered _, hkept, ?_, fun _ => ⟨_, rfl, ?_, hload⟩,
      readCommandsDesc_of_load hload⟩
    · have hrecord := numbered_valid hvalid hlength
      rw [numbered_append] at hkept hrecord ⊢
      rw [hkept.getLast (fitsHistory_singleton (hrecord _
        (List.mem_append_right _ (List.mem_singleton_self _)))), List.getLast?_concat]
    · change (historyHeader _ _ ++ _).length = _
      rw [List.length_append, length_historyHeader, length_flatMap_bytes]
      rfl

/-- Two commands of a shell. -/
def twoCommands : List EndedCommand :=
  [{ shell := "bash", command := [108, 115], completedAtMs := 5 },
    { shell := "bash", command := [112, 119, 100], completedAtMs := 9 }]

theorem twoCommands_kept : ∃ records file kept, appendAll twoCommands = .ok (records, file) ∧
    Longest FitsHistory kept records ∧ kept.getLast? = records.getLast? ∧
    readCommandsDesc file 0 10 = .ok (kept.reverse.take 10) := by
  have hvalid : ∀ ended ∈ twoCommands, ended.Valid := by
    intro ended hended
    rcases List.mem_cons.mp hended with rfl | hended
    · exact ⟨by decide +kernel, by decide⟩
    · rw [List.mem_singleton.mp hended]
      exact ⟨by decide +kernel, by decide⟩
  obtain ⟨records, file, kept, hall, -, -, hlongest, hlast, -, hread⟩ :=
    history_keeps_longest hvalid (by decide)
  exact ⟨records, file, kept, hall, hlongest, hlast, hread 0 10⟩

end runs

end PersistShell

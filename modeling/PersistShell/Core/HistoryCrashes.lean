import PersistShell.Core.HistoryRuns
import PersistShell.Ipc.Codec

/-! The command history when the process may die while it appends: after any of its writes, and
within any of them. -/

namespace PersistShell

open Retention

/-- The file when the process dies after `k` of the writes and `n` bytes of the next. -/
def crashed (writes : List FileWrite) (k n : Nat) (content : Bytes) : Bytes :=
  let done := (writes.take k).foldl FileWrite.apply content
  match writes[k]? with
  | some (.write offset bytes) => FileWrite.apply done (.write offset (bytes.take n))
  | _ => done

/-- There is a sequence number after the last one. -/
def HistoryState.Numbers (state : HistoryState) : Prop :=
  ∀ record, state.records.getLast? = some record → record.sequence < 2 ^ 64 - 1

/-- The count in the header when `n` bytes of the new one are written. -/
def cutCount (content count : Bytes) (n : Nat) : Nat :=
  fromBeBytes (count.take n ++ ((content.drop 16).take 8).drop n)

/-- A death that leaves whole records, and a header that is at most one record behind. -/
def CleanCut (content : Bytes) (state : HistoryState) (writes : List FileWrite) (k n : Nat) : Prop :=
  match writes with
  | [.truncate, .write _ bytes] =>
    k = 0 ∨ (k = 1 ∧ n = 0 ∧ content = []) ∨
      (state.Numbers ∧ (k = 1 ∧ bytes.length ≤ n ∨ 2 ≤ k))
  | [.write _ bytes, .write _ _, .write _ count] =>
    (k = 0 ∧ n = 0) ∨ (state.Numbers ∧
      ((k = 0 ∧ bytes.length ≤ n ∨ k = 1) ∧ cutCount content count 0 = state.records.length ∨
        (k = 2 ∧ cutCount content count n ≤ state.records.length + 1 ∧
          state.records.length ≤ cutCount content count n) ∨ 3 ≤ k))
  | _ => False

section cuts

/-- A write over a part of the same length, of which only some bytes are made. -/
theorem apply_write_cut {front old back new : Bytes} {offset : Nat} (hoffset : front.length = offset)
    (hlength : old.length = new.length) (n : Nat) :
    FileWrite.apply (front ++ (old ++ back)) (.write offset (new.take n)) =
      front ++ ((new.take n ++ old.drop n) ++ back) := by
  have hmin : (new.take n).length = min n old.length := by rw [List.length_take, hlength]
  have hdrop : old.drop (min n old.length) = old.drop n := by
    rcases Nat.le_total n old.length with hle | hle
    · rw [Nat.min_eq_left hle]
    · rw [Nat.min_eq_right hle, List.drop_length, List.drop_of_length_le hle]
  change _ ++ new.take n ++ _ = _
  rw [List.take_left' hoffset, ← List.drop_drop, List.drop_left' hoffset, hmin,
    List.drop_append_of_le_length (Nat.min_le_right _ _), hdrop, List.append_assoc,
    List.append_assoc]

theorem length_cut {old new : Bytes} (hlength : old.length = new.length) (n : Nat) :
    (new.take n ++ old.drop n).length = new.length := by
  rw [List.length_append, List.length_take, List.length_drop]
  omega

theorem toBeBytes_cut (old new n : Nat) :
    toBeBytes 8 (fromBeBytes ((toBeBytes 8 new).take n ++ (toBeBytes 8 old).drop n)) =
      (toBeBytes 8 new).take n ++ (toBeBytes 8 old).drop n := by
  have hlength := length_cut ((length_toBeBytes 8 old).trans (length_toBeBytes 8 new).symm) n
  rw [length_toBeBytes] at hlength
  have h := toBeBytes_fromBeBytes ((toBeBytes 8 new).take n ++ (toBeBytes 8 old).drop n)
  rwa [hlength] at h

theorem fromBeBytes_cut_lt (old new n : Nat) :
    fromBeBytes ((toBeBytes 8 new).take n ++ (toBeBytes 8 old).drop n) < 2 ^ 64 := by
  have hlength := length_cut ((length_toBeBytes 8 old).trans (length_toBeBytes 8 new).symm) n
  have h := fromBeBytes_lt ((toBeBytes 8 new).take n ++ (toBeBytes 8 old).drop n)
  rw [hlength, length_toBeBytes] at h
  exact h

variable {nextSequence count next count' : Nat} {back : Bytes}

/-- The sequence in the header is written in part. -/
theorem apply_next_cut (nextSequence count next n : Nat) (back : Bytes) :
    ∃ mixed, mixed < 2 ^ 64 ∧ FileWrite.apply (historyHeader nextSequence count ++ back)
      (.write 8 ((toBeBytes 8 next).take n)) = historyHeader mixed count ++ back := by
  have hmagic : historyMagic.length = 8 := by decide
  refine ⟨_, fromBeBytes_cut_lt nextSequence next n, ?_⟩
  rw [historyHeader, List.append_assoc, List.append_assoc, apply_write_cut hmagic
    ((length_toBeBytes _ _).trans (length_toBeBytes _ _).symm), historyHeader, toBeBytes_cut]
  simp only [List.append_assoc]

theorem apply_next (nextSequence count next : Nat) (back : Bytes) :
    FileWrite.apply (historyHeader nextSequence count ++ back) (.write 8 (toBeBytes 8 next)) =
      historyHeader next count ++ back := by
  have hmagic : historyMagic.length = 8 := by decide
  rw [historyHeader, List.append_assoc, List.append_assoc, apply_write_middle hmagic
    ((length_toBeBytes _ _).trans (length_toBeBytes _ _).symm), historyHeader, List.append_assoc,
    List.append_assoc]

/-- The count in the header is written in part. -/
theorem apply_count_cut (nextSequence count count' n : Nat) (back : Bytes) :
    FileWrite.apply (historyHeader nextSequence count ++ back)
        (.write 16 ((toBeBytes 8 count').take n)) =
      historyHeader nextSequence
        (fromBeBytes ((toBeBytes 8 count').take n ++ (toBeBytes 8 count).drop n)) ++ back := by
  have hfront : (historyMagic ++ toBeBytes 8 nextSequence).length = 16 := by
    have hmagic : historyMagic.length = 8 := by decide
    rw [List.length_append, hmagic, length_toBeBytes]
  rw [historyHeader, List.append_assoc, apply_write_cut hfront
    ((length_toBeBytes _ _).trans (length_toBeBytes _ _).symm), historyHeader, toBeBytes_cut,
    List.append_assoc (historyMagic ++ toBeBytes 8 nextSequence)]

theorem cutCount_header (nextSequence count count' n : Nat) (back : Bytes) :
    cutCount (historyHeader nextSequence count ++ back) (toBeBytes 8 count') n =
      fromBeBytes ((toBeBytes 8 count').take n ++ (toBeBytes 8 count).drop n) := by
  have hfront : (historyMagic ++ toBeBytes 8 nextSequence).length = 16 := by
    have hmagic : historyMagic.length = 8 := by decide
    rw [List.length_append, hmagic, length_toBeBytes]
  rw [cutCount, historyHeader, List.append_assoc, List.drop_left' hfront,
    List.take_left' (length_toBeBytes _ _)]

end cuts

section standing

/-- What a file has that can be read: the longest end of the records within the limits, and a
header that is at most one record behind. -/
structure Standing (written kept : List CommandRecord) (nextSequence count : Nat) : Prop where
  longest : Longest FitsHistory kept written
  valid : ∀ record ∈ kept, record.Valid
  ordered : Ordered kept
  next_lt : nextSequence < 2 ^ 64
  count_le : count ≤ kept.length
  le_count : kept.length ≤ count + 1

def historyFile (kept : List CommandRecord) (nextSequence count : Nat) : Bytes :=
  historyHeader nextSequence count ++ kept.flatMap CommandRecord.bytes

variable {written kept : List CommandRecord} {nextSequence count : Nat} {ended : EndedCommand}

theorem Standing.load (h : Standing written kept nextSequence count) :
    loadState (historyFile kept nextSequence count) =
      .ok ⟨max nextSequence (followingSequence kept), kept⟩ := by
  have hlength := h.longest.fits.1
  have hcount := h.count_le
  unfold maxHistoryRecords at hlength
  exact (loadState_eq_ok h.next_lt (by omega) h.valid h.longest.fits.2).mpr
    ⟨⟨h.count_le, h.le_count⟩, h.ordered⟩

theorem historyFile_ne_nil (kept : List CommandRecord) (nextSequence count : Nat) :
    historyFile kept nextSequence count ≠ [] := by
  intro hnil
  have hlength := congrArg List.length hnil
  rw [historyFile, List.length_append, length_historyHeader, List.length_nil] at hlength
  exact absurd hlength (by unfold historyHeaderLen; omega)

theorem followingSequence_lt (kept : List CommandRecord) : followingSequence kept < 2 ^ 64 := by
  unfold followingSequence
  cases kept.getLast? with
  | none => exact (by decide : 1 < 2 ^ 64)
  | some record =>
    change min _ _ < _
    omega

/-- A number after the last is after all of them. -/
theorem lt_followingSequence (hordered : Ordered kept)
    (hnumbers : ∀ record, kept.getLast? = some record → record.sequence < 2 ^ 64 - 1) :
    ∀ record ∈ kept, record.sequence < followingSequence kept := by
  intro record hrecord
  obtain ⟨front, last, rfl⟩ : ∃ front last, kept = front ++ [last] :=
    ⟨_, _, (List.dropLast_append_getLast (List.ne_nil_of_mem hrecord)).symm⟩
  have hlast := hnumbers last List.getLast?_concat
  rw [followingSequence, List.getLast?_concat]
  change record.sequence < saturatingSucc last.sequence
  rw [saturatingSucc_of_lt hlast]
  rcases List.mem_append.mp hrecord with hfront | hsame
  · have := (List.pairwise_append.mp hordered).2.2 record hfront last (List.mem_singleton_self _)
    omega
  · rw [List.mem_singleton.mp hsame]
    exact Nat.lt_succ_self _

/-- The record that comes next. -/
def nextRecord (ended : EndedCommand) (kept : List CommandRecord) (nextSequence : Nat) :
    CommandRecord := ended.record (max nextSequence (followingSequence kept))

theorem Standing.nextRecord_valid (h : Standing written kept nextSequence count)
    (hended : ended.Valid) : (nextRecord ended kept nextSequence).Valid :=
  ⟨Nat.max_lt.mpr ⟨h.next_lt, followingSequence_lt kept⟩, hended.completedAtMs_lt, hended.valid⟩

theorem Standing.nextRecord_ordered (h : Standing written kept nextSequence count)
    (hnumbers : ∀ record, kept.getLast? = some record → record.sequence < 2 ^ 64 - 1) :
    Ordered (kept ++ [nextRecord ended kept nextSequence]) := by
  refine List.pairwise_append.mpr ⟨h.ordered, List.pairwise_singleton _ _, fun a ha b hb => ?_⟩
  rw [List.mem_singleton.mp hb]
  exact Nat.lt_of_lt_of_le (lt_followingSequence h.ordered hnumbers a ha) (Nat.le_max_right _ _)

theorem Standing.all_valid (h : Standing written kept nextSequence count) (hended : ended.Valid) :
    ∀ record ∈ kept ++ [nextRecord ended kept nextSequence], record.Valid := by
  intro record hrecord
  rcases List.mem_append.mp hrecord with hold | hnew
  · exact h.valid record hold
  · rw [List.mem_singleton.mp hnew]
    exact h.nextRecord_valid hended

/-- The record is in the file, whatever of the header is written. -/
theorem Standing.appended (h : Standing written kept nextSequence count) (hended : ended.Valid)
    (hnumbers : ∀ record, kept.getLast? = some record → record.sequence < 2 ^ 64 - 1)
    (hroom : kept.length < maxHistoryRecords ∧
      estimatedSize kept + (nextRecord ended kept nextSequence).size ≤ maxHistoryBytes)
    {next' count' : Nat} (hnext : next' < 2 ^ 64) (hle : count' ≤ kept.length + 1)
    (hge : kept.length ≤ count') :
    Standing (written ++ [nextRecord ended kept nextSequence])
      (kept ++ [nextRecord ended kept nextSequence]) next' count' := by
  have hfits : FitsHistory (kept ++ [nextRecord ended kept nextSequence]) := by
    rw [FitsHistory, List.length_append, List.length_singleton, estimatedSize_append]
    exact hroom
  refine ⟨h.longest.append fitsHistory_shrinks (.refl hfits), h.all_valid hended,
    h.nextRecord_ordered hnumbers, hnext, ?_, ?_⟩
  · rw [List.length_append, List.length_singleton]
    exact hle
  · rw [List.length_append, List.length_singleton]
    omega

/-- The file is written again as a whole. -/
theorem Standing.compacted (h : Standing written kept nextSequence count) (hended : ended.Valid)
    (hnumbers : ∀ record, kept.getLast? = some record → record.sequence < 2 ^ 64 - 1)
    {next' : Nat} (hnext : next' < 2 ^ 64) :
    Standing (written ++ [nextRecord ended kept nextSequence])
      (compact (kept ++ [nextRecord ended kept nextSequence])) next'
      (compact (kept ++ [nextRecord ended kept nextSequence])).length := by
  have hlongest := compact_longest (kept ++ [nextRecord ended kept nextSequence])
  exact ⟨h.longest.append fitsHistory_shrinks hlongest,
    fun record hrecord => h.all_valid hended record (hlongest.suffix.subset hrecord),
    (h.nextRecord_ordered hnumbers).sublist hlongest.suffix.sublist, hnext, Nat.le_refl _,
    Nat.le_succ _⟩

theorem standing_first (hended : ended.Valid) :
    Standing [ended.record 1] [ended.record 1] 2 1 := by
  have hvalid : (ended.record 1).Valid :=
    ⟨(by decide : 1 < 2 ^ 64), hended.completedAtMs_lt, hended.valid⟩
  refine ⟨.refl (fitsHistory_singleton hvalid), fun record hrecord => ?_,
    List.pairwise_singleton _ _, by decide, Nat.le_refl _, Nat.le_succ _⟩
  rw [List.mem_singleton.mp hrecord]
  exact hvalid

/-- There is nothing in the file yet, or it can be read. -/
def Stands (written : List CommandRecord) (file : Option Bytes) : Prop :=
  (written = [] ∧ file.getD [] = []) ∨
    ∃ kept nextSequence count, Standing written kept nextSequence count ∧
      file = some (historyFile kept nextSequence count)

theorem Standing.stands (h : Standing written kept nextSequence count) :
    Stands written (some (historyFile kept nextSequence count)) :=
  .inr ⟨kept, nextSequence, count, h, rfl⟩

theorem historyFile_bytes (kept : List CommandRecord) (nextSequence : Nat) :
    HistoryState.bytes ⟨nextSequence, kept⟩ = historyFile kept nextSequence kept.length := rfl

end standing

section crashes

variable {written : List CommandRecord} {file : Option Bytes} {ended : EndedCommand}
  {record : CommandRecord} {state : HistoryState} {writes : List FileWrite} {k n : Nat}

theorem crashed_done (h : writes.length ≤ k) (content : Bytes) :
    crashed writes k n content = writes.foldl FileWrite.apply content := by
  rw [crashed, List.take_of_length_le h, List.getElem?_eq_none h]

theorem crashed_rewrite (content bytes : Bytes) (k n : Nat) :
    crashed [.truncate, .write 0 bytes] k n content =
      if k = 0 then content else if k = 1 then bytes.take n else bytes := by
  match k with
  | 0 => rfl
  | 1 => exact apply_truncate content _
  | k + 2 =>
    rw [if_neg (Nat.succ_ne_zero _), if_neg (by omega),
      crashed_done (Nat.le_add_left 2 k), apply_truncate]

/-- A clean death while the file is written again. -/
theorem Stands.rewritten {content : Bytes} {kept : List CommandRecord} {nextSequence count : Nat}
    (hcontent : Stands written (some content))
    (hwhole : state.Numbers → Standing (written ++ [record]) kept nextSequence count)
    (hempty : content = [] → written = [])
    (hclean : CleanCut content state
      [.truncate, .write 0 (historyFile kept nextSequence count)] k n) :
    ∃ written', (k ≤ 1 ∧ written' = written ∨ written' = written ++ [record]) ∧
      Stands written' (some (crashed
        [.truncate, .write 0 (historyFile kept nextSequence count)] k n content)) := by
  rw [crashed_rewrite]
  rcases hclean with rfl | ⟨rfl, rfl, hnil⟩ | ⟨hnumbers, ⟨rfl, hlong⟩ | hlater⟩
  · exact ⟨written, .inl ⟨Nat.zero_le 1, rfl⟩, hcontent⟩
  · exact ⟨written, .inl ⟨Nat.le_refl 1, rfl⟩, .inl ⟨hempty hnil, rfl⟩⟩
  · refine ⟨_, .inr rfl, ?_⟩
    rw [if_neg Nat.one_ne_zero, if_pos rfl, List.take_of_length_le hlong]
    exact (hwhole hnumbers).stands
  · refine ⟨_, .inr rfl, ?_⟩
    rw [if_neg (by omega), if_neg (by omega)]
    exact (hwhole hnumbers).stands

/-- A clean death while a record is put behind the others. -/
theorem Standing.extended {kept : List CommandRecord} {nextSequence count next count' : Nat}
    (h : Standing written kept nextSequence count) (hended : ended.Valid)
    (hroom : kept.length < maxHistoryRecords ∧
      estimatedSize kept + (nextRecord ended kept nextSequence).size ≤ maxHistoryBytes)
    (hnext : next < 2 ^ 64) (hcount : count' = kept.length + 1)
    (hstate : state.records = kept)
    (hclean : CleanCut (historyFile kept nextSequence count) state
      [.write (historyFile kept nextSequence count).length (nextRecord ended kept nextSequence).bytes,
        .write 8 (toBeBytes 8 next), .write 16 (toBeBytes 8 count')] k n) :
    ∃ written', (k ≤ 1 ∧ written' = written ∨
        written' = written ++ [nextRecord ended kept nextSequence]) ∧
      Stands written' (some (crashed
        [.write (historyFile kept nextSequence count).length
            (nextRecord ended kept nextSequence).bytes,
          .write 8 (toBeBytes 8 next), .write 16 (toBeBytes 8 count')] k n
        (historyFile kept nextSequence count))) := by
  have hrecord : FileWrite.apply (historyFile kept nextSequence count)
      (.write (historyFile kept nextSequence count).length
        (nextRecord ended kept nextSequence).bytes) =
      historyFile (kept ++ [nextRecord ended kept nextSequence]) nextSequence count := by
    rw [apply_write_end, historyFile, historyFile, List.flatMap_append, List.flatMap_singleton,
      List.append_assoc]
  have hcut : ∀ j, cutCount (historyFile kept nextSequence count) (toBeBytes 8 count') j =
      fromBeBytes ((toBeBytes 8 count').take j ++ (toBeBytes 8 count).drop j) :=
    fun j => cutCount_header nextSequence count count' j _
  have hnumbers' : state.Numbers →
      ∀ record, kept.getLast? = some record → record.sequence < 2 ^ 64 - 1 := by
    intro hnumbers
    rwa [HistoryState.Numbers, hstate] at hnumbers
  rcases hclean with ⟨rfl, rfl⟩ | ⟨hnumbers, ⟨hearly, hwas⟩ | ⟨rfl, hle, hge⟩ | hlate⟩
  · -- Nothing is written.
    refine ⟨written, .inl ⟨Nat.zero_le 1, rfl⟩, ?_⟩
    have hnothing := apply_write_end (historyFile kept nextSequence count) []
    rw [List.append_nil] at hnothing
    change Stands _ (some (FileWrite.apply (historyFile _ _ _) (.write _ [])))
    rw [hnothing]
    exact h.stands
  · -- The record is there and its count is not.
    have hcount_lt : count < 256 ^ 8 := by
      have := h.longest.fits.1
      have := h.count_le
      unfold maxHistoryRecords at *
      omega
    rw [hcut, List.take_zero, List.nil_append, List.drop_zero, fromBeBytes_toBeBytes_of_lt hcount_lt,
      hstate] at hwas
    refine ⟨_, .inr rfl, ?_⟩
    have happended : ∀ next', next' < 2 ^ 64 →
        Stands (written ++ [nextRecord ended kept nextSequence])
          (some (historyFile (kept ++ [nextRecord ended kept nextSequence]) next' count)) :=
      fun next' hnext' => (h.appended hended (hnumbers' hnumbers) hroom hnext' (by omega)
        (by omega)).stands
    rcases hearly with ⟨rfl, hlong⟩ | rfl
    · change Stands _ (some (FileWrite.apply (historyFile _ _ _) (.write _ (List.take n _))))
      rw [List.take_of_length_le hlong, hrecord]
      exact happended _ h.next_lt
    · change Stands _ (some (FileWrite.apply (FileWrite.apply (historyFile _ _ _) (.write _ _))
        (.write 8 (List.take n _))))
      obtain ⟨mixed, hmixed, hwritten⟩ := apply_next_cut nextSequence count next n
        ((kept ++ [nextRecord ended kept nextSequence]).flatMap CommandRecord.bytes)
      rw [hrecord, historyFile, hwritten]
      exact happended mixed hmixed
  · -- The count is written in part.
    rw [hcut, hstate] at hle hge
    refine ⟨_, .inr rfl, ?_⟩
    change Stands _ (some (FileWrite.apply (FileWrite.apply (FileWrite.apply
      (historyFile _ _ _) (.write _ _)) (.write 8 _)) (.write 16 (List.take n _))))
    rw [hrecord, historyFile, apply_next, apply_count_cut]
    exact (h.appended hended (hnumbers' hnumbers) hroom hnext hle hge).stands
  · -- All is written.
    refine ⟨_, .inr rfl, ?_⟩
    rw [crashed_done hlate, historyFile, apply_recordWrites]
    exact (h.appended hended (hnumbers' hnumbers) hroom hnext (by omega) (by omega)).stands

theorem Standing.writes_room {kept : List CommandRecord} {nextSequence count : Nat}
    (h : Standing written kept nextSequence count) (hended : ended.Valid)
    (hroom : kept.length < maxHistoryRecords ∧
      estimatedSize kept + (nextRecord ended kept nextSequence).size ≤ maxHistoryBytes) :
    appendWrites (historyFile kept nextSequence count) ended =
      .ok (nextRecord ended kept nextSequence,
        [.write (historyFile kept nextSequence count).length
            (nextRecord ended kept nextSequence).bytes,
          .write 8 (toBeBytes 8 (saturatingSucc (max nextSequence (followingSequence kept)))),
          .write 16 (toBeBytes 8 (kept.length + 1))]) :=
  appendWrites_room hended h.load (historyFile_ne_nil kept nextSequence count) hroom

theorem Standing.writes_full {kept : List CommandRecord} {nextSequence count : Nat}
    (h : Standing written kept nextSequence count) (hended : ended.Valid)
    (hfull : ¬ (kept.length < maxHistoryRecords ∧
      estimatedSize kept + (nextRecord ended kept nextSequence).size ≤ maxHistoryBytes)) :
    appendWrites (historyFile kept nextSequence count) ended =
      .ok (nextRecord ended kept nextSequence,
        [.truncate, .write 0 (historyFile (compact (kept ++ [nextRecord ended kept nextSequence]))
          (saturatingSucc (max nextSequence (followingSequence kept)))
          (compact (kept ++ [nextRecord ended kept nextSequence])).length)]) := by
  rw [← historyFile_bytes]
  exact appendWrites_full hended h.load (historyFile_ne_nil kept nextSequence count)
    (h.all_valid hended) hfull

/-- A valid command can be appended. -/
theorem Stands.can_append (h : Stands written file) (hended : ended.Valid) :
    ∃ record writes, appendWrites (file.getD []) ended = .ok (record, writes) := by
  rcases h with ⟨-, hempty⟩ | ⟨kept, nextSequence, count, hstanding, rfl⟩
  · rw [hempty]
    exact ⟨_, _, appendWrites_first hended⟩
  · by_cases hroom : kept.length < maxHistoryRecords ∧
        estimatedSize kept + (nextRecord ended kept nextSequence).size ≤ maxHistoryBytes
    · exact ⟨_, _, hstanding.writes_room hended hroom⟩
    · exact ⟨_, _, hstanding.writes_full hended hroom⟩

theorem saturatingSucc_lt (m : Nat) : saturatingSucc m < 2 ^ 64 := by
  unfold saturatingSucc
  omega

/-- What was written stands after a clean death, and the new record may do so as well. -/
theorem Stands.crashed (h : Stands written file) (hended : ended.Valid)
    (hopened : appendWrites (file.getD []) ended = .ok (record, writes))
    (hclean : ∀ state, loadState (file.getD []) = .ok state →
      CleanCut (file.getD []) state writes k n) :
    ∃ written', (k ≤ 1 ∧ written' = written ∨ written' = written ++ [record]) ∧
      Stands written' (some (PersistShell.crashed writes k n (file.getD []))) := by
  rcases h with ⟨rfl, hempty⟩ | ⟨kept, nextSequence, count, hstanding, rfl⟩
  · rw [hempty] at hopened hclean ⊢
    cases hopened.symm.trans (appendWrites_first hended)
    have hclean := hclean ⟨1, []⟩ rfl
    rw [historyFile_bytes] at hclean ⊢
    exact Stands.rewritten (.inl ⟨rfl, rfl⟩) (fun _ => standing_first hended) (fun _ => rfl) hclean
  · have hclean := hclean _ hstanding.load
    by_cases hroom : kept.length < maxHistoryRecords ∧
        estimatedSize kept + (nextRecord ended kept nextSequence).size ≤ maxHistoryBytes
    · cases hopened.symm.trans (hstanding.writes_room hended hroom)
      exact hstanding.extended hended hroom (saturatingSucc_lt _) rfl rfl hclean
    · cases hopened.symm.trans (hstanding.writes_full hended hroom)
      have hwhole :=
        fun hnumbers : HistoryState.Numbers ⟨max nextSequence (followingSequence kept), kept⟩ =>
          hstanding.compacted hended hnumbers
            (saturatingSucc_lt (max nextSequence (followingSequence kept)))
      exact hstanding.stands.rewritten hwhole
        (fun hnil => absurd hnil (historyFile_ne_nil kept nextSequence count)) hclean

end crashes

section runs

/-- A file to which commands are appended, with the records that were returned and those that were
attempted. When it is tidy each death is a clean one, and there is always a next sequence number. -/
inductive HistoryRun (tidy : Prop) :
    List CommandRecord → List CommandRecord → Option Bytes → Prop
  | absent : HistoryRun tidy [] [] none
  | appended {returned attempted : List CommandRecord} {file : Option Bytes}
      {ended : EndedCommand} {record : CommandRecord} {content : Bytes}
      (run : HistoryRun tidy returned attempted file)
      (completedAtMs_lt : ended.completedAtMs < 2 ^ 64)
      (numbers : tidy → ∀ state, loadState (file.getD []) = .ok state → state.Numbers)
      (returns : appendCommand file ended = .ok (record, content)) :
      HistoryRun tidy (returned ++ [record]) (attempted ++ [record]) (some content)
  | failed {returned attempted : List CommandRecord} {file : Option Bytes}
      {ended : EndedCommand} {error : PersistError}
      (run : HistoryRun tidy returned attempted file)
      (fails : appendCommand file ended = .error error) :
      HistoryRun tidy returned attempted file
  | died {returned attempted : List CommandRecord} {file : Option Bytes}
      {ended : EndedCommand} {record : CommandRecord} {writes : List FileWrite} {k n : Nat}
      (run : HistoryRun tidy returned attempted file)
      (completedAtMs_lt : ended.completedAtMs < 2 ^ 64)
      (opened : appendWrites (file.getD []) ended = .ok (record, writes))
      (clean : tidy → ∀ state, loadState (file.getD []) = .ok state →
        CleanCut (file.getD []) state writes k n) :
      HistoryRun tidy returned (attempted ++ [record])
        (some (crashed writes k n (file.getD [])))

/-- Commands can be appended and read. What is read is the longest end within the limits of the
records that were written: all that were returned, and some that were attempted. -/
structure HistorySurvives (returned attempted : List CommandRecord) (file : Option Bytes) : Prop where
  appends : ∀ ended : EndedCommand, ended.Valid →
    ∃ record content, appendCommand file ended = .ok (record, content)
  reads : ∃ written kept, returned.Sublist written ∧ written.Sublist attempted ∧
    Longest FitsHistory kept written ∧
    ∀ offset limit, readCommandsDesc file offset limit =
      .ok ((kept.reverse.drop offset).take limit)

variable {tidy : Prop} {returned attempted written : List CommandRecord} {file : Option Bytes}
  {ended : EndedCommand}

theorem EndedCommand.Valid.of_writes {content : Bytes} {opened : CommandRecord × List FileWrite}
    (hlt : ended.completedAtMs < 2 ^ 64) (h : appendWrites content ended = .ok opened) :
    ended.Valid := by
  obtain ⟨⟨⟩, hvalid, -⟩ := bind_eq_ok.mp h
  exact ⟨hvalid, hlt⟩

/-- To make all the writes is clean. -/
theorem cleanCut_all {content : Bytes} {record : CommandRecord} {writes : List FileWrite}
    (hopened : appendWrites content ended = .ok (record, writes)) :
    writes.length ≤ 3 ∧
      ∀ state : HistoryState, state.Numbers → CleanCut content state writes 3 0 := by
  have hrewrite : ∀ {state' : HistoryState} {writes : List FileWrite},
      stateWrites state' = .ok writes → writes.length ≤ 3 ∧
        ∀ state : HistoryState, state.Numbers → CleanCut content state writes 3 0 := by
    intro state' writes hwrites
    obtain ⟨_, -, hwrites⟩ := bind_eq_ok.mp hwrites
    cases hwrites
    exact ⟨Nat.le_succ 2, fun _ hnumbers => .inr (.inr ⟨hnumbers, .inr (Nat.le_succ 2)⟩)⟩
  obtain ⟨_, -, h⟩ := bind_eq_ok.mp hopened
  obtain ⟨loaded, -, h⟩ := bind_eq_ok.mp h
  dsimp only at h
  split at h
  · obtain ⟨_, hwrites, h⟩ := bind_eq_ok.mp h
    cases h
    exact hrewrite hwrites
  · split at h
    · obtain ⟨_, hwrites, h⟩ := bind_eq_ok.mp h
      cases h
      obtain ⟨_, -, hwrites⟩ := bind_eq_ok.mp hwrites
      cases hwrites
      exact ⟨Nat.le_refl 3, fun _ hnumbers => .inr ⟨hnumbers, .inr (.inr (Nat.le_refl 3))⟩⟩
    · obtain ⟨_, hwrites, h⟩ := bind_eq_ok.mp h
      cases h
      exact hrewrite hwrites

theorem Stands.reads (h : Stands written file) : ∃ kept, Longest FitsHistory kept written ∧
    ∀ offset limit, readCommandsDesc file offset limit =
      .ok ((kept.reverse.drop offset).take limit) := by
  rcases h with ⟨rfl, hempty⟩ | ⟨kept, nextSequence, count, hstanding, rfl⟩
  · refine ⟨[], .refl ⟨by decide, by decide⟩, fun offset limit => ?_⟩
    rw [List.reverse_nil, List.drop_nil, List.take_nil]
    cases file with
    | none => rfl
    | some content =>
      cases hempty
      have hload : loadState [] = .ok ⟨1, []⟩ := rfl
      have hread := readCommandsDesc_of_load hload offset limit
      rwa [List.reverse_nil, List.drop_nil, List.take_nil] at hread
  · exact ⟨kept, hstanding.longest, readCommandsDesc_of_load hstanding.load⟩

theorem HistoryRun.stands (htidy : tidy) (h : HistoryRun tidy returned attempted file) :
    ∃ written, returned.Sublist written ∧ written.Sublist attempted ∧ Stands written file := by
  induction h with
  | absent => exact ⟨[], .refl _, .refl _, .inl ⟨rfl, rfl⟩⟩
  | failed _ _ ih => exact ih
  | appended _ hlt hnumbers hreturns ih =>
    obtain ⟨written, hreturned, hattempted, hstands⟩ := ih
    obtain ⟨⟨record, writes⟩, hopened, hcontent⟩ := bind_eq_ok.mp hreturns
    cases hcontent
    obtain ⟨written', ⟨hearly, -⟩ | rfl, hstands'⟩ := hstands.crashed (.of_writes hlt hopened)
      hopened fun state hload => (cleanCut_all hopened).2 state (hnumbers htidy state hload)
    · exact absurd hearly (by decide)
    · rw [crashed_done (cleanCut_all hopened).1] at hstands'
      exact ⟨_, hreturned.append (.refl _), hattempted.append (.refl _), hstands'⟩
  | died _ hlt hopened hclean ih =>
    obtain ⟨written, hreturned, hattempted, hstands⟩ := ih
    obtain ⟨written', hwritten, hstands'⟩ := hstands.crashed (.of_writes hlt hopened)
      hopened (hclean htidy)
    rcases hwritten with ⟨-, rfl⟩ | rfl
    · exact ⟨written', hreturned, hattempted.trans (List.sublist_append_left _ _), hstands'⟩
    · exact ⟨_, hreturned.trans (List.sublist_append_left _ _),
        hattempted.append (.refl _), hstands'⟩

/-- When every death is a clean one, commands can always be appended and read, and the records that
were returned are lost to the limits only. -/
theorem history_survives (h : HistoryRun True returned attempted file) :
    HistorySurvives returned attempted file := by
  obtain ⟨written, hreturned, hattempted, hstands⟩ := h.stands trivial
  refine ⟨fun ended hended => ?_, ?_⟩
  · obtain ⟨record, writes, hwrites⟩ := hstands.can_append hended
    exact ⟨record, _, appendCommand_of_writes hwrites⟩
  · obtain ⟨kept, hlongest, hread⟩ := hstands.reads
    exact ⟨written, kept, hreturned, hattempted, hlongest, hread⟩

/-- A command of a shell. -/
def listing : EndedCommand where
  shell := "bash"
  command := [108, 115]
  completedAtMs := 5

theorem listing_valid : listing.Valid := ⟨by decide +kernel, by decide⟩

theorem listing_first {tidy : Prop} : HistoryRun tidy [listing.record 1] [listing.record 1]
    (some (historyFile [listing.record 1] 2 1)) := by
  have hfirst := @appendCommand_of_writes listing none _ _ (appendWrites_first listing_valid)
  rw [apply_truncate] at hfirst
  refine .appended .absent listing_valid.completedAtMs_lt (fun _ state hload => ?_) hfirst
  cases hload
  exact fun record hrecord => by cases hrecord

def listingWrites : List FileWrite :=
  [.write (historyFile [listing.record 1] 2 1).length (listing.record 2).bytes,
    .write 8 (toBeBytes 8 3), .write 16 (toBeBytes 8 2)]

theorem listing_second : appendWrites (historyFile [listing.record 1] 2 1) listing =
    .ok (listing.record 2, listingWrites) :=
  (standing_first listing_valid).writes_room listing_valid (by decide +kernel)

/-- A second command of which one byte is written: nothing can be appended or read any more. -/
theorem torn_record_stays : ¬ ∀ returned attempted file,
    HistoryRun False returned attempted file → HistorySurvives returned attempted file := by
  intro h
  have hdied : HistoryRun False [listing.record 1] [listing.record 1, listing.record 2]
      (some (crashed listingWrites 0 1 (historyFile [listing.record 1] 2 1))) :=
    .died listing_first listing_valid.completedAtMs_lt listing_second fun hfalse => hfalse.elim
  obtain ⟨record, content, happend⟩ := (h _ _ _ hdied).appends listing listing_valid
  have hfails : (appendCommand (some (crashed listingWrites 0 1
      (historyFile [listing.record 1] 2 1))) listing).toOption = none := by decide +kernel
  have hsome := congrArg Except.toOption happend
  cases hfails.symm.trans hsome

/-- A second command whose record is written, and not the header. -/
theorem listing_survives : ∃ file,
    HistoryRun True [listing.record 1] [listing.record 1, listing.record 2] file ∧
    HistorySurvives [listing.record 1] [listing.record 1, listing.record 2] file := by
  have hstanding := standing_first listing_valid
  have hdied : HistoryRun True [listing.record 1] [listing.record 1, listing.record 2]
      (some (crashed listingWrites 1 0 (historyFile [listing.record 1] 2 1))) := by
    refine .died listing_first listing_valid.completedAtMs_lt listing_second fun _ state hload => ?_
    cases hstanding.load.symm.trans hload
    refine .inr ⟨fun record hrecord => ?_, .inl ⟨.inr rfl, by decide +kernel⟩⟩
    cases hrecord
    decide
  exact ⟨_, hdied, history_survives hdied⟩

end runs

end PersistShell

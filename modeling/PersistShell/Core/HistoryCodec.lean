import PersistShell.Core.CommandHistory

/-! What is written into the command history is read back. -/

namespace PersistShell

section record

/-- A record that can be written: its numbers fit, and its command was accepted. -/
structure CommandRecord.Valid (record : CommandRecord) : Prop where
  sequence_lt : record.sequence < 2 ^ 64
  completedAtMs_lt : record.completedAtMs < 2 ^ 64
  valid : validateRecord record.shell record.command = .ok ()

theorem validateRecord_eq_ok {shell : String} {command : Bytes} :
    validateRecord shell command = .ok () ↔ utf8 shell ≠ [] ∧ (utf8 shell).length ≤ 65535 ∧
      command ≠ [] ∧ command.length ≤ maxCommandBytes := by
  constructor
  · intro h
    obtain ⟨_, hshell, h⟩ := bind_eq_ok.mp h
    obtain ⟨_, hempty, h⟩ := bind_eq_ok.mp h
    obtain ⟨hnil, hlong⟩ := not_or.mp (rejectIf_eq_ok.mp hshell)
    exact ⟨hnil, Nat.le_of_not_lt hlong, rejectIf_eq_ok.mp hempty,
      Nat.le_of_not_lt (rejectIf_eq_ok.mp h)⟩
  · rintro ⟨hnil, hlong, hempty, hcommand⟩
    exact bind_eq_ok.mpr ⟨(), rejectIf_eq_ok.mpr (not_or.mpr ⟨hnil, Nat.not_lt.mpr hlong⟩),
      bind_eq_ok.mpr ⟨(), rejectIf_eq_ok.mpr hempty, rejectIf_eq_ok.mpr (Nat.not_lt.mpr hcommand)⟩⟩

variable {record : CommandRecord}

theorem CommandRecord.length_bytes (record : CommandRecord) : record.bytes.length = record.size := by
  simp only [CommandRecord.bytes, CommandRecord.size, List.length_append, length_toBeBytes,
    recordMetaLen]

theorem CommandRecord.Valid.size_le (h : record.Valid) : record.size ≤ 24 + 65535 + maxCommandBytes := by
  obtain ⟨-, hshell, -, hcommand⟩ := validateRecord_eq_ok.mp h.valid
  simp only [CommandRecord.size, recordMetaLen]
  omega

theorem fromBeBytes_toBeBytes_of_lt {width value : Nat} (h : value < 256 ^ width) :
    fromBeBytes (toBeBytes width value) = value := by
  rw [fromBeBytes_toBeBytes, Nat.mod_eq_of_lt h]

/-- The fields of a record after its length. -/
def CommandRecord.body (record : CommandRecord) : Bytes :=
  toBeBytes 8 record.sequence ++ (toBeBytes 8 record.completedAtMs ++
    (toBeBytes 2 (utf8 record.shell).length ++ (toBeBytes 2 0 ++ (utf8 record.shell ++
      record.command))))

theorem CommandRecord.length_body (record : CommandRecord) :
    record.body.length = recordMetaLen + (utf8 record.shell).length + record.command.length := by
  simp only [CommandRecord.body, List.length_append, length_toBeBytes, recordMetaLen]
  omega

theorem CommandRecord.bytes_eq (record : CommandRecord) :
    record.bytes = toBeBytes 4 record.body.length ++ record.body := by
  rw [length_body, CommandRecord.bytes, CommandRecord.body]
  simp only [List.append_assoc]

/-- The fields of a record stand where they are looked for. -/
theorem CommandRecord.body_fields (record : CommandRecord) :
    record.body.take 8 = toBeBytes 8 record.sequence ∧
      (record.body.drop 8).take 8 = toBeBytes 8 record.completedAtMs ∧
      (record.body.drop 16).take 2 = toBeBytes 2 (utf8 record.shell).length ∧
      (record.body.drop recordMetaLen).take (utf8 record.shell).length = utf8 record.shell ∧
      record.body.drop (recordMetaLen + (utf8 record.shell).length) = record.command := by
  have hsequence := length_toBeBytes 8 record.sequence
  have htime := length_toBeBytes 8 record.completedAtMs
  have hlength := length_toBeBytes 2 (utf8 record.shell).length
  have hzero := length_toBeBytes 2 0
  have hshell : record.body.drop recordMetaLen = utf8 record.shell ++ record.command := by
    have hfront : record.body = (toBeBytes 8 record.sequence ++ toBeBytes 8 record.completedAtMs ++
        toBeBytes 2 (utf8 record.shell).length ++ toBeBytes 2 0) ++
          (utf8 record.shell ++ record.command) := by
      simp only [CommandRecord.body, List.append_assoc]
    rw [hfront, List.drop_left']
    simp only [List.length_append, length_toBeBytes, recordMetaLen]
  refine ⟨?_, ?_, ?_, ?_, ?_⟩
  · rw [CommandRecord.body, List.take_left' hsequence]
  · rw [CommandRecord.body, List.drop_left' hsequence, List.take_left' htime]
  · rw [CommandRecord.body, ← List.append_assoc, List.drop_left', List.take_left' hlength]
    rw [List.length_append, hsequence, htime]
  · rw [hshell, List.take_left' rfl]
  · rw [← List.drop_drop, hshell, List.drop_left' rfl]

/-- A record is read back, whatever follows it. -/
theorem decodeRecord_bytes (h : record.Valid) (rest : Bytes) :
    decodeRecord (record.bytes ++ rest) = .ok (record, record.size) := by
  obtain ⟨hshellNe, hshell, hcommandNe, hcommand⟩ := validateRecord_eq_ok.mp h.valid
  obtain ⟨hsequence, htime, hshellLen, hname, hdata⟩ := record.body_fields
  have hbody := record.length_body
  have hmeta : recordMetaLen = 20 := rfl
  have hmax : maxCommandBytes = 65536 := rfl
  have hsize : record.size = 4 + record.body.length := by
    rw [CommandRecord.size, hbody]
    omega
  have hlen : fromBeBytes ((record.bytes ++ rest).take 4) = record.body.length := by
    rw [record.bytes_eq, List.append_assoc, List.take_left' (length_toBeBytes 4 _)]
    exact fromBeBytes_toBeBytes_of_lt (by omega)
  have htake : ((record.bytes ++ rest).drop 4).take record.body.length = record.body := by
    rw [record.bytes_eq, List.append_assoc, List.drop_left' (length_toBeBytes 4 _),
      List.take_left' rfl]
  have hlength : (record.bytes ++ rest).length = 4 + record.body.length + rest.length := by
    rw [record.bytes_eq, List.length_append, List.length_append, length_toBeBytes]
  have hshort : ¬ (record.bytes ++ rest).length < 4 := by omega
  have hrange : ¬ (record.body.length < recordMetaLen ∨
      record.body.length > recordMetaLen + 65535 + maxCommandBytes) := by omega
  have hwhole : ¬ (record.bytes ++ rest).length < 4 + record.body.length := by omega
  unfold decodeRecord
  dsimp only
  rw [hlen, htake, hshellLen, fromBeBytes_toBeBytes_of_lt (by omega), hname, fromUtf8_utf8, hdata,
    hsequence, htime, fromBeBytes_toBeBytes_of_lt h.sequence_lt,
    fromBeBytes_toBeBytes_of_lt h.completedAtMs_lt, hsize]
  have hfits : ¬ recordMetaLen + (utf8 record.shell).length > record.body.length := by omega
  exact bind_eq_ok.mpr ⟨(), rejectIf_eq_ok.mpr hshort, bind_eq_ok.mpr ⟨(),
    rejectIf_eq_ok.mpr hrange, bind_eq_ok.mpr ⟨(), rejectIf_eq_ok.mpr hwhole, bind_eq_ok.mpr
    ⟨(), rejectIf_eq_ok.mpr hfits, bind_eq_ok.mpr ⟨(), h.valid, rfl⟩⟩⟩⟩⟩

end record

section state

variable {records : List CommandRecord}

theorem size_pos (record : CommandRecord) : 24 ≤ record.size := by
  unfold CommandRecord.size recordMetaLen
  omega

theorem length_flatMap_bytes (records : List CommandRecord) :
    (records.flatMap CommandRecord.bytes).length = (records.map CommandRecord.size).sum := by
  rw [List.length_flatMap]
  exact congrArg List.sum (List.map_congr_left fun record _ => record.length_bytes)

theorem decodeRecords_bytes (h : ∀ record ∈ records, record.Valid) {fuel : Nat}
    (hfuel : records.length ≤ fuel) :
    decodeRecords fuel (records.flatMap CommandRecord.bytes) = .ok records := by
  induction records generalizing fuel with
  | nil => cases fuel <;> rfl
  | cons record records ih =>
    obtain ⟨fuel, rfl⟩ : ∃ n, fuel = n + 1 := ⟨fuel - 1, by rw [List.length_cons] at hfuel; omega⟩
    have hne : (record :: records).flatMap CommandRecord.bytes ≠ [] := by
      intro hnil
      have hlength := congrArg List.length hnil
      have hpos := size_pos record
      rw [length_flatMap_bytes, List.map_cons, List.sum_cons, List.length_nil] at hlength
      omega
    rw [List.length_cons] at hfuel
    rw [decodeRecords, if_neg hne, List.flatMap_cons,
      decodeRecord_bytes (h record List.mem_cons_self)]
    have hlater := ih (fun r hr => h r (List.mem_cons_of_mem _ hr)) (Nat.le_of_succ_le_succ hfuel)
    change (decodeRecords fuel ((record.bytes ++ records.flatMap CommandRecord.bytes).drop
      record.size) >>= _) = _
    rw [List.drop_left' record.length_bytes, hlater]
    rfl

theorem length_le_sizes (records : List CommandRecord) :
    records.length ≤ (records.map CommandRecord.size).sum := by
  induction records with
  | nil => exact Nat.le_refl _
  | cons record records ih =>
    have hpos := size_pos record
    rw [List.length_cons, List.map_cons, List.sum_cons]
    omega

/-- The header of a file. -/
def historyHeader (nextSequence count : Nat) : Bytes :=
  historyMagic ++ toBeBytes 8 nextSequence ++ toBeBytes 8 count

theorem length_historyHeader (nextSequence count : Nat) :
    (historyHeader nextSequence count).length = historyHeaderLen := by
  have hmagic : historyMagic.length = 8 := by decide
  simp only [historyHeader, List.length_append, length_toBeBytes, hmagic, historyHeaderLen]

/-- Records with growing sequence numbers. -/
def Ordered (records : List CommandRecord) : Prop :=
  records.Pairwise fun a b => a.sequence < b.sequence

theorem ordered_iff_adjacent : Ordered records ↔
    ((records.zip records.tail).any fun pair => pair.1.sequence ≥ pair.2.sequence) = false := by
  rw [Ordered, ← List.isChain_iff_pairwise]
  induction records with
  | nil => exact ⟨fun _ => rfl, fun _ => .nil⟩
  | cons first records ih =>
    cases records with
    | nil => exact ⟨fun _ => rfl, fun _ => .singleton _⟩
    | cons second records =>
      rw [List.isChain_cons_cons, ih, List.tail_cons, List.tail_cons, List.zip_cons_cons,
        List.any_cons, Bool.or_eq_false_iff, decide_eq_false_iff_not, Nat.not_le]

theorem validateHeader_eq_ok {count : Nat} :
    validateHeader count records = .ok () ↔
      (count ≤ records.length ∧ records.length ≤ count + 1) ∧ Ordered records := by
  rw [ordered_iff_adjacent]
  constructor
  · intro h
    obtain ⟨_, hcount, h⟩ := bind_eq_ok.mp h
    have hcount := rejectIf_eq_ok.mp hcount
    exact ⟨by omega, Bool.not_eq_true _ ▸ rejectIf_eq_ok.mp h⟩
  · rintro ⟨hcount, hordered⟩
    refine bind_eq_ok.mpr ⟨(), rejectIf_eq_ok.mpr (by omega), rejectIf_eq_ok.mpr ?_⟩
    rw [hordered]
    exact Bool.false_ne_true

/-- The sequence that follows these records. -/
def followingSequence (records : List CommandRecord) : Nat :=
  records.getLast?.elim 1 fun record => saturatingSucc record.sequence

/-- A file of a header and records is loaded when the header is not more than one record behind. -/
theorem loadState_eq_ok {nextSequence count : Nat} (hnext : nextSequence < 2 ^ 64)
    (hcount : count < 2 ^ 64) (hvalid : ∀ record ∈ records, record.Valid)
    (hsize : estimatedSize records ≤ maxHistoryBytes) :
    loadState (historyHeader nextSequence count ++ records.flatMap CommandRecord.bytes) =
        .ok ⟨max nextSequence (followingSequence records), records⟩ ↔
      (count ≤ records.length ∧ records.length ≤ count + 1) ∧ Ordered records := by
  have hmagic : historyMagic.length = 8 := by decide
  have hnextLen := length_toBeBytes 8 nextSequence
  have hcountLen := length_toBeBytes 8 count
  have hbody := length_flatMap_bytes records
  have hfuel := length_le_sizes records
  have hheader := length_historyHeader nextSequence count
  have hlength : (historyHeader nextSequence count ++
      records.flatMap CommandRecord.bytes).length = estimatedSize records := by
    rw [List.length_append, hheader, hbody, estimatedSize]
  have hlong : historyHeaderLen ≤ estimatedSize records := Nat.le_add_right _ _
  have hne : historyHeader nextSequence count ++ records.flatMap CommandRecord.bytes ≠ [] := by
    intro hnil
    rw [hnil] at hlength
    exact absurd (hlength ▸ hlong) (by decide)
  have hdrop : (historyHeader nextSequence count ++ records.flatMap CommandRecord.bytes).drop
      historyHeaderLen = records.flatMap CommandRecord.bytes := List.drop_left' hheader
  have htake : (historyHeader nextSequence count ++ records.flatMap CommandRecord.bytes).take 8 =
      historyMagic := by
    rw [historyHeader, List.append_assoc, List.append_assoc, List.take_left' hmagic]
  have hstoredNext : fromBeBytes (((historyHeader nextSequence count ++
      records.flatMap CommandRecord.bytes).drop 8).take 8) = nextSequence := by
    rw [historyHeader, List.append_assoc, List.append_assoc, List.drop_left' hmagic,
      List.take_left' hnextLen, fromBeBytes_toBeBytes_of_lt hnext]
  have hstoredCount : fromBeBytes (((historyHeader nextSequence count ++
      records.flatMap CommandRecord.bytes).drop 16).take 8) = count := by
    rw [historyHeader, List.append_assoc, List.drop_left', List.take_left' hcountLen,
      fromBeBytes_toBeBytes_of_lt hcount]
    rw [List.length_append, hmagic, hnextLen]
  have hdecode : decodeRecords (estimatedSize records) (records.flatMap CommandRecord.bytes) =
      .ok records := decodeRecords_bytes hvalid (Nat.le_trans hfuel (Nat.le_add_left _ _))
  rw [← validateHeader_eq_ok]
  unfold loadState
  dsimp only
  rw [hstoredNext, hstoredCount, htake, hdrop, hlength, if_neg hne, rejectIf,
    if_neg (Nat.not_lt.mpr hsize), rejectIf, if_neg]
  · change (decodeRecords _ _ >>= _) = _ ↔ _
    rw [hdecode]
    change (validateHeader count records >>= _) = _ ↔ _
    constructor
    · intro h
      obtain ⟨_, hheader, -⟩ := bind_eq_ok.mp h
      exact hheader
    · exact fun hheader => bind_eq_ok.mpr ⟨(), hheader, rfl⟩
  · exact not_or.mpr ⟨Nat.not_lt.mpr hlong, fun hbad => hbad rfl⟩

/-- What was written as a whole is read back. -/
theorem loadState_bytes {state : HistoryState} (hnext : state.nextSequence < 2 ^ 64)
    (hvalid : ∀ record ∈ state.records, record.Valid) (hordered : Ordered state.records)
    (hsize : estimatedSize state.records ≤ maxHistoryBytes)
    (hfollows : followingSequence state.records ≤ state.nextSequence) :
    loadState state.bytes = .ok state := by
  have hcount : state.records.length < 2 ^ 64 := by
    have := length_le_sizes state.records
    unfold estimatedSize maxHistoryBytes at hsize
    omega
  have h := (loadState_eq_ok hnext hcount hvalid hsize).mpr
    ⟨⟨Nat.le_refl _, Nat.le_succ _⟩, hordered⟩
  rw [Nat.max_eq_left hfollows] at h
  exact h

end state

end PersistShell

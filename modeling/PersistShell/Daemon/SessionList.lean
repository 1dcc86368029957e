import PersistShell.Core.Config
import PersistShell.Daemon.Reconcile
import PersistShell.Ipc.SessionList

/-! `ListSessions` and `ListSessionsByTag`: what the daemon answers a client that asks for the
sessions, from the inventory of the holder, the records of the database and `/proc`. -/

namespace PersistShell

section process

/-- What `/proc` has of a process: its name where that is to be read, and its command line. -/
structure ProcEntry where
  comm : Option Bytes := none
  cmdline : Bytes := []

/-- The command line is cut after 160 bytes. -/
def processIdentity (proc : ProcEntry) : String × String :=
  match proc.comm.bind fromUtf8 with
  | none => ("", "")
  | some name =>
    let rawCmdline := proc.cmdline.take 161
    let text := (fromUtf8Lossy (rawCmdline.take 160)).map fun c => if c = '\x00' then ' ' else c
    -- The end of a string is a boundary of its characters, so that nothing is popped.
    (trim name, if rawCmdline.length > 160 then trim text ++ "..." else trim text)

end process

/-- What one listing finds: the manager, the inventory that was last read, and the answers of
the database, which other clients may change from one statement to the next. A statement that
fails is answered with nothing. -/
structure Listing where
  /-- `None` without a holder. -/
  inventory : Option HolderInventorySnapshot := none
  orphanedSessions : Finset Nat := ∅
  attachedSessions : Finset Nat := ∅
  sessionInfo : Nat → Option String := fun _ => none
  /-- The seconds since a session was active. -/
  lastActivity : Nat → Option Nat := fun _ => none
  proc : Nat → ProcEntry := fun _ => {}
  getSession : Nat → Option SessionRecord := fun _ => none
  listSessionTags : Nat → List String := fun _ => []
  records : List (Nat × SessionRecord) := []
  inventory_fits : ∀ snapshot, inventory = some snapshot → ∀ id ∈ snapshot.ids, id < 2 ^ 32
  records_fit : ∀ record ∈ records, record.1 < 2 ^ 32

namespace Listing

def inventorySnapshot (l : Listing) : List HolderSessionEntry :=
  (l.inventory.map HolderInventorySnapshot.entries).getD []

/-- `format!("{value:02}")`. -/
def twoDigits (value : Nat) : String := if value < 10 then "0" ++ toString value else toString value

def idleString (l : Listing) (id : Nat) : String :=
  match l.lastActivity id with
  | none => ""
  | some secs =>
    if secs < 60 then toString secs ++ "s"
    else if secs < 3600 then toString (secs / 60) ++ "m" ++ twoDigits (secs % 60) ++ "s"
    else toString (secs / 3600) ++ "h" ++ twoDigits (secs % 3600 / 60) ++ "m"

def hasText (note : Option String) : Bool := note.any (· ≠ "")

def runtimeEntry (l : Listing) (runtime : HolderSessionEntry) : SessionEntry :=
  let id := runtime.sessionId
  let record := l.getSession id
  let (foregroundName, foregroundCmd) := processIdentity (l.proc runtime.shellPid)
  { sessionId := id
    name := (l.sessionInfo id).getD ((record.map (·.name)).getD ("session-" ++ toString id))
    status :=
      if id ∈ l.orphanedSessions then "orphan"
      else if id ∈ l.attachedSessions then "attached"
      else if runtime.state = .running then "running"
      else "closed"
    exitCode := runtime.exitCode
    closedAt := record.bind (·.closedAt)
    hasNote := hasText (record.bind (·.note))
    hasTags := ¬ (l.listSessionTags id).isEmpty
    isPinned := record.any (·.pinned)
    isLocked := record.any (·.locked)
    idle := l.idleString id
    foregroundPid := if foregroundName ≠ "" then some runtime.shellPid else none
    foregroundName, foregroundCmd }

/-- The sessions of the holder, each once. -/
def runtimeSessions (l : Listing) : List SessionEntry :=
  l.inventorySnapshot.foldl (fun sessions runtime =>
    if sessions.any (·.sessionId = runtime.sessionId) then sessions
    else sessions ++ [l.runtimeEntry runtime]) []

def recordEntry (l : Listing) (record : Nat × SessionRecord) : SessionEntry where
  sessionId := record.1
  name := record.2.name
  status := record.2.status.text
  exitCode := record.2.exitCode
  closedAt := record.2.closedAt
  hasNote := hasText record.2.note
  hasTags := ¬ (l.listSessionTags record.1).isEmpty
  isPinned := record.2.pinned
  isLocked := record.2.locked

def closedRecords (l : Listing) (runtimeIds : List Nat) : List (Nat × SessionRecord) :=
  l.records.filter fun record =>
    (record.2.status = .closed ∨ record.2.status = .lost) ∧ record.1 ∉ runtimeIds

/-- The payload that answers `ListSessions`. -/
def listSessions (l : Listing) : ListSessionsRespPayload :=
  let sessions := l.runtimeSessions
  let runtimeIds := sessions.map SessionEntry.sessionId
  { sessions := sessions ++ (l.closedRecords runtimeIds).map l.recordEntry }

def holderEntry (l : Listing) (id : Nat) : Option HolderSessionEntry :=
  if id ∈ l.orphanedSessions then none
  else l.inventorySnapshot.find? (·.sessionId = id)

/-- A session that has the tag, with its record. -/
def taggedEntry (l : Listing) (tagged : Nat × SessionRecord) : SessionEntry :=
  let (id, record) := tagged
  let holder := l.holderEntry id
  let identity := fun entry : HolderSessionEntry => processIdentity (l.proc entry.shellPid)
  { sessionId := id
    name := (l.sessionInfo id).getD record.name
    status :=
      if id ∈ l.attachedSessions then "attached"
      else if holder.any (·.state = .running) then "running"
      else record.status.text
    exitCode := (holder.bind (·.exitCode)).or record.exitCode
    closedAt := record.closedAt
    hasNote := hasText record.note
    hasTags := true
    isPinned := record.pinned
    isLocked := record.locked
    idle := l.idleString id
    foregroundPid := holder.bind fun entry =>
      if (identity entry).1 ≠ "" then some entry.shellPid else none
    foregroundName := (holder.map fun entry => (identity entry).1).getD ""
    foregroundCmd := (holder.map fun entry => (identity entry).2).getD "" }

/-- The records that the tag finds, in the order of their ids. -/
def taggedRecords (l : Listing) (ids : List Nat) : List (Nat × SessionRecord) :=
  ids.filterMap fun id => (l.getSession id).map fun record => (id, record)

/-- The payload that answers `ListSessionsByTag`, where the tag was found at `ids`. -/
def listSessionsByTag (l : Listing) (ids : List Nat) : ListSessionsRespPayload where
  sessions := (l.taggedRecords ids).map l.taggedEntry

end Listing

/-- The client reads one frame and takes it for the listing. -/
def fetchSessions (stream : Bytes) : Except PersistError ListSessionsRespPayload := do
  let (resp, _) ← Frame.readFrame stream
  rejectIf (resp.msgType ≠ .listSessionsResp)
    (PersistError.invalidArgument "expected LIST_SESSIONS_RESP")
  match decodeListSessionsResp resp.payload with
  | none => throw (.invalidArgument "invalid LIST_SESSIONS_RESP payload")
  | some list => return list

namespace ListSessionsRespPayload

/-- The frame that the daemon answers with. -/
def reply (p : ListSessionsRespPayload) : Frame where
  msgType := .listSessionsResp
  payload := encodeListSessionsResp p

/-- The client can read the listing: the payload is not over its limit, and it finds in it one
entry for each session, in order. -/
def Readable (p : ListSessionsRespPayload) : Prop :=
  p.reply.payload.length ≤ maxControlFrame ∧
    ∃ list, decodeListSessionsResp p.reply.payload = some list ∧
      list.sessions.map SessionEntry.sessionId = p.sessions.map SessionEntry.sessionId

/-- The count and the frame have room for the entries. -/
def HasRoom (p : ListSessionsRespPayload) : Prop :=
  p.sessions.length ≤ 65535 ∧ 2 + (p.sessions.map SessionEntry.size).sum ≤ maxControlFrame

theorem readable_iff {p : ListSessionsRespPayload} (h : ∀ entry ∈ p.sessions, entry.sessionId < 2 ^ 32) :
    p.Readable ↔ p.HasRoom := by
  have hdecode := decode_encodeListSessionsResp p
  have hlength := length_encodeListSessionsResp p
  constructor
  · rintro ⟨hlimit, list, hlist, hids⟩
    rw [reply, hdecode] at hlist
    cases hlist
    have hcount := congrArg List.length hids
    rw [List.length_map, List.length_map, List.length_map, List.length_take] at hcount
    rw [reply, hlength] at hlimit
    exact ⟨by omega, hlimit⟩
  · rintro ⟨hcount, hsize⟩
    refine ⟨by rw [reply, hlength]; exact hsize, _, hdecode, ?_⟩
    rw [List.take_of_length_le hcount, List.map_map]
    apply List.map_congr_left
    intro entry hentry
    exact Nat.mod_eq_of_lt (h entry hentry)

/-- What is readable is what the client fetches. -/
theorem Readable.fetch {p : ListSessionsRespPayload} (h : p.Readable) (rest : Bytes) :
    ∃ list, fetchSessions (p.reply.bytes ++ rest) = .ok list ∧
      list.sessions.map SessionEntry.sessionId = p.sessions.map SessionEntry.sessionId := by
  obtain ⟨hlimit, list, hdecode, hids⟩ := h
  have hfits : p.reply.Fits := ⟨Nat.two_pow_pos 16, Nat.two_pow_pos 32, hlimit⟩
  have hread := Frame.readFrame_bytes hfits rest
  refine ⟨list, ?_, hids⟩
  rw [fetchSessions, hread]
  change (match decodeListSessionsResp p.reply.payload with
    | none => _
    | some list => _) = _
  rw [hdecode]
  rfl

end ListSessionsRespPayload

namespace Listing

variable (l : Listing)

/-- The sessions of the holder are listed one by one, as no two have one id. -/
theorem runtimeSessions_eq : l.runtimeSessions = l.inventorySnapshot.map l.runtimeEntry := by
  have hsorted : (l.inventorySnapshot.map HolderSessionEntry.sessionId).Pairwise (· < ·) := by
    unfold inventorySnapshot
    cases l.inventory with
    | none => exact .nil
    | some snapshot => exact snapshot.entries_sorted
  unfold runtimeSessions
  generalize l.inventorySnapshot = runtimes at hsorted
  induction runtimes using List.reverseRecOn with
  | nil => rfl
  | append_singleton runtimes runtime ih =>
    rw [List.map_append, List.pairwise_append] at hsorted
    obtain ⟨hfront, -, hbelow⟩ := hsorted
    have hnew : (runtimes.map l.runtimeEntry).any (·.sessionId = runtime.sessionId) = false := by
      rw [List.any_map, List.any_eq_false]
      intro earlier hearlier
      have hlt := hbelow _ (List.mem_map_of_mem hearlier) runtime.sessionId List.mem_cons_self
      exact fun heq => hlt.ne (of_decide_eq_true heq)
    rw [List.foldl_append, ih hfront, List.foldl_cons, List.foldl_nil, hnew, List.map_append]
    rfl

theorem listSessions_eq : l.listSessions.sessions =
    l.inventorySnapshot.map l.runtimeEntry ++
      (l.closedRecords (l.inventorySnapshot.map HolderSessionEntry.sessionId)).map
        l.recordEntry := by
  have hids : l.runtimeSessions.map SessionEntry.sessionId =
      l.inventorySnapshot.map HolderSessionEntry.sessionId := by
    rw [runtimeSessions_eq, List.map_map]
    rfl
  change l.runtimeSessions ++ (l.closedRecords _).map l.recordEntry = _
  rw [hids, runtimeSessions_eq]

theorem listSessions_fit : ∀ entry ∈ l.listSessions.sessions, entry.sessionId < 2 ^ 32 := by
  intro entry hentry
  rw [listSessions_eq, List.mem_append] at hentry
  rcases hentry with hruntime | hclosed
  · obtain ⟨runtime, hmem, rfl⟩ := List.mem_map.mp hruntime
    unfold inventorySnapshot at hmem
    cases hinventory : l.inventory with
    | none =>
      rw [hinventory] at hmem
      exact absurd hmem List.not_mem_nil
    | some snapshot =>
      rw [hinventory] at hmem
      exact l.inventory_fits snapshot hinventory _ (List.mem_map_of_mem hmem)
  · obtain ⟨record, hrecord, rfl⟩ := List.mem_map.mp hclosed
    exact l.records_fit record (List.mem_of_mem_filter hrecord)

/-- The sessions of the holder and the closed ones fit into one answer. -/
def HasRoom : Prop :=
  let closed := l.closedRecords (l.inventorySnapshot.map HolderSessionEntry.sessionId)
  l.inventorySnapshot.length + closed.length ≤ 65535 ∧
    2 + (l.inventorySnapshot.map fun runtime => (l.runtimeEntry runtime).size).sum +
      (closed.map fun record => (l.recordEntry record).size).sum ≤ maxControlFrame

/-- So do the records that a tag finds. -/
def HasRoomFor (ids : List Nat) : Prop :=
  (l.taggedRecords ids).length ≤ 65535 ∧
    2 + ((l.taggedRecords ids).map fun tagged => (l.taggedEntry tagged).size).sum ≤
      maxControlFrame

theorem hasRoom_listSessions : l.listSessions.HasRoom ↔ l.HasRoom := by
  unfold ListSessionsRespPayload.HasRoom HasRoom
  rw [listSessions_eq]
  simp only [List.length_append, List.length_map, List.map_append, List.map_map,
    List.sum_append, Function.comp_def, Nat.add_assoc]

theorem hasRoom_listSessionsByTag (ids : List Nat) :
    (l.listSessionsByTag ids).HasRoom ↔ l.HasRoomFor ids := by
  simp only [ListSessionsRespPayload.HasRoom, HasRoomFor, listSessionsByTag, List.length_map,
    List.map_map, Function.comp_def]

theorem listSessionsByTag_fit {ids : List Nat} (h : ∀ id ∈ ids, id < 2 ^ 32) :
    ∀ entry ∈ (l.listSessionsByTag ids).sessions, entry.sessionId < 2 ^ 32 := by
  intro entry hentry
  obtain ⟨tagged, htagged, rfl⟩ := List.mem_map.mp hentry
  obtain ⟨id, hid, hsome⟩ := List.mem_filterMap.mp htagged
  obtain ⟨record, -, rfl⟩ := Option.map_eq_some_iff.mp hsome
  exact h id hid

end Listing

/-- **A listing is readable by the client** exactly when its entries fit into one answer. -/
theorem listing_readable_iff (l : Listing) (tagged : List {id : Nat // id < 2 ^ 32}) :
    (l.listSessions.Readable ↔ l.HasRoom) ∧
      ((l.listSessionsByTag (tagged.map Subtype.val)).Readable ↔
        l.HasRoomFor (tagged.map Subtype.val)) := by
  have hids : ∀ id ∈ tagged.map Subtype.val, id < 2 ^ 32 := by
    intro id hid
    obtain ⟨id, -, rfl⟩ := List.mem_map.mp hid
    exact id.property
  constructor
  · rw [ListSessionsRespPayload.readable_iff l.listSessions_fit]
    exact l.hasRoom_listSessions
  · rw [ListSessionsRespPayload.readable_iff (l.listSessionsByTag_fit hids)]
    exact l.hasRoom_listSessionsByTag _

section samples

def closedRow : SessionRecord :=
  { name := "a", status := .closed, createdAt := "", updatedAt := "" }

/-- Nothing runs, and as many sessions were closed. -/
def manyClosed (count : Nat) (h : count ≤ 2 ^ 32) : Listing where
  records := (List.range count).map fun id => (id, closedRow)
  inventory_fits := by
    intro snapshot hnone
    cases hnone
  records_fit := by
    intro record hrecord
    obtain ⟨id, hid, rfl⟩ := List.mem_map.mp hrecord
    exact (List.mem_range.mp hid).trans_le h

theorem manyClosed_full {count : Nat} (h : count ≤ 2 ^ 32) (hover : 65535 < count) :
    ¬ (manyClosed count h).HasRoom := by
  intro hroom
  have hclosed : (manyClosed count h).closedRecords
      ((manyClosed count h).inventorySnapshot.map HolderSessionEntry.sessionId) =
      (manyClosed count h).records := by
    apply List.filter_eq_self.mpr
    intro record hrecord
    obtain ⟨id, -, rfl⟩ := List.mem_map.mp hrecord
    rfl
  have hcount := hroom.1
  rw [hclosed, manyClosed, List.length_map, List.length_range] at hcount
  have hnone : (manyClosed count h).inventorySnapshot.length = 0 := rfl
  omega

/-- **Of as many closed sessions as a `u16` has values, the client reads one less.** -/
theorem closed_session_not_listed :
    ¬ (manyClosed 65536 (by decide)).listSessions.Readable := by
  rw [ListSessionsRespPayload.readable_iff (Listing.listSessions_fit _),
    Listing.hasRoom_listSessions]
  exact manyClosed_full _ (by decide)

end samples

end PersistShell

import PersistShell.Ipc.Lossless
import PersistShell.Program.Indexed

/-! The decoders of the listings as they go through the data, by offsets into it: what they read
is in the data, and they end as the decoders do that take their fields off the front. -/

namespace PersistShell
open Indexed

namespace ByOffset

section decoders

variable (data : Bytes)

/-- `data[offset..offset + len]`, behind a check that it is there. -/
def bytes (len : Nat) : Indexed.Reader Bytes := do
  require data len
  let offset ← get
  let found ← Indexed.slice data offset (offset + len)
  set (offset + len)
  return found

def word (len : Nat) : Indexed.Reader Nat := do return fromBeBytes (← bytes data len)

def i32 : Indexed.Reader Int := do return i32OfBits (← word data 4)

def byte : Indexed.Reader UInt8 := do
  require data 1
  let offset ← get
  let b ← element data offset
  set (offset + 1)
  return b

/-- `decode_str16`: a length, and a check for as many bytes behind it. -/
def str16 : Indexed.Reader String := do
  let len ← word data 2
  return fromUtf8Lossy (← bytes data len)

def given {α : Type} (c : Bool) (field : Indexed.Reader α) : Indexed.Reader (Option α) :=
  if c then do return some (← field) else return none

def foreground : Indexed.Reader (Nat × String × String) := do
  let pid ← word data 4
  let name ← str16 data
  let cmd ← str16 data
  return (pid, name, cmd)

def sessionEntry : Indexed.Reader SessionEntry := do
  let sessionId ← word data 4
  let name ← str16 data
  let status ← str16 data
  let flags ← byte data
  let exitCode ← given (flags &&& 0x01 != 0) (i32 data)
  let closedAt ← given (flags &&& 0x02 != 0) (str16 data)
  let idle ← given (flags &&& 0x20 != 0) (str16 data)
  let foreground ← given (flags &&& 0x80 != 0) (foreground data)
  return {
    sessionId, name, status, exitCode, closedAt
    hasNote := flags &&& 0x04 != 0
    hasTags := flags &&& 0x08 != 0
    isPinned := flags &&& 0x10 != 0
    isLocked := flags &&& 0x40 != 0
    idle := idle.getD ""
    foregroundPid := foreground.map (·.1)
    foregroundName := (foreground.map (·.2.1)).getD ""
    foregroundCmd := (foreground.map (·.2.2)).getD "" }

/-- The numbers of a node are checked for all at once. -/
def processTreeNode : Indexed.Reader ProcessTreeNode := do
  require data 9
  let offset ← get
  let pid ← Indexed.slice data offset (offset + 4)
  let parentPid ← Indexed.slice data (offset + 4) (offset + 8)
  let depth ← element data (offset + 8)
  set (offset + 9)
  return {
    pid := fromBeBytes pid, parentPid := fromBeBytes parentPid, depth, name := ← str16 data
    command := ← str16 data }

def repeated {α : Type} (reader : Indexed.Reader α) : Nat → Indexed.Reader (List α)
  | 0 => return []
  | count + 1 => do
    let value ← reader
    return value :: (← repeated reader count)

def decodeListSessionsResp : Except Stop ListSessionsRespPayload :=
  (do
    let count ← word data 2
    return { sessions := ← repeated (sessionEntry data) count } :
      Indexed.Reader ListSessionsRespPayload).run' 0

def decodeProcessTreeResp : Except Stop ProcessTreeRespPayload :=
  (do
    let count ← word data 2
    return { nodes := ← repeated (processTreeNode data) count } :
      Indexed.Reader ProcessTreeRespPayload).run' 0

end decoders

section simulation

variable {data : Bytes}

theorem simulates_bytes (len : Nat) : Simulates data (bytes data len) (Fields.take len) := by
  refine Simulates.required id (fun l hl => ?_) (fun l hl => ?_) fun offset hfits => ?_
  · rw [Fields.take, if_pos hl]
  · rw [Fields.take, if_neg (Nat.not_lt_of_le hl)]
    rfl
  · change (Indexed.slice data offset (offset + len) >>= fun found => do
      set (offset + len)
      return found : Indexed.Reader Bytes) offset = _
    rw [reader_bind, Indexed.slice_eq ⟨by omega, hfits⟩, Nat.add_sub_cancel_left]
    rfl

theorem simulates_word (len : Nat) :
    Simulates data (word data len) (do return fromBeBytes (← Fields.take len)) :=
  (simulates_bytes len).bind fun _ => .pure _

theorem simulates_i32 : Simulates data (i32 data) Fields.i32 :=
  (simulates_word 4).bind fun _ => .pure _

theorem headD_take {i n : Nat} (h : i < data.length) :
    ((data.drop i).take (n + 1)).headD 0 = data[i] := by
  rw [List.drop_eq_getElem_cons h, List.take_succ_cons, List.headD_cons]

theorem simulates_byte : Simulates data (byte data) Fields.byte := by
  refine Simulates.required (·.headD 0) (fun l hl => ?_) (fun l hl => ?_) fun offset hfits => ?_
  · rw [List.length_eq_zero_iff.mp (Nat.lt_one_iff.mp hl)]
    rfl
  · cases l with
    | nil => cases hl
    | cons b l => rfl
  · change (element data offset >>= fun b => do
      set (offset + 1)
      return b : Indexed.Reader UInt8) offset = _
    rw [reader_bind, element_eq hfits, headD_take hfits]
    rfl

theorem simulates_str16 : Simulates data (str16 data) Fields.str16 :=
  (simulates_word 2).bind fun len => (simulates_bytes len).bind fun _ => .pure _

theorem simulates_given {α : Type} (c : Bool) {reader : Indexed.Reader α} {field : Fields α}
    (h : Simulates data reader field) : Simulates data (given c reader) (Fields.given c field) :=
  .branch (h.bind fun _ => .pure _) (.pure none)

theorem simulates_foreground : Simulates data (foreground data) Fields.foreground :=
  (simulates_word 4).bind fun _ => simulates_str16.bind fun _ => simulates_str16.bind fun _ => .pure _

theorem simulates_sessionEntry : Simulates data (sessionEntry data) Fields.sessionEntry :=
  (simulates_word 4).bind fun _ => simulates_str16.bind fun _ => simulates_str16.bind fun _ =>
    simulates_byte.bind fun _ => (simulates_given _ simulates_i32).bind fun _ =>
    (simulates_given _ simulates_str16).bind fun _ =>
    (simulates_given _ simulates_str16).bind fun _ =>
    (simulates_given _ simulates_foreground).bind fun _ => .pure _

theorem simulates_repeated {α : Type} {reader : Indexed.Reader α} {field : Fields α}
    {fields : Nat → Fields (List α)} (h : Simulates data reader field)
    (hzero : fields 0 = pure [])
    (hsucc : ∀ count, fields (count + 1) = do
      let value ← field
      return value :: (← fields count)) (count : Nat) :
    Simulates data (repeated reader count) (fields count) := by
  induction count with
  | zero =>
    rw [hzero]
    exact .pure []
  | succ count ih =>
    rw [hsucc]
    exact h.bind fun _ => ih.bind fun _ => .pure _

theorem simulates_sessionEntries (count : Nat) :
    Simulates data (repeated (sessionEntry data) count) (Fields.sessionEntries count) :=
  simulates_repeated simulates_sessionEntry rfl (fun _ => rfl) count

theorem decodeListSessionsResp_eq (data : Bytes) :
    decodeListSessionsResp data = answer (PersistShell.decodeListSessionsResp data) := by
  have hread : Simulates data
      (do
        let count ← word data 2
        return { sessions := ← repeated (sessionEntry data) count } :
          Indexed.Reader ListSessionsRespPayload)
      (do
        let count ← Fields.u16
        return { sessions := ← Fields.sessionEntries count } : Fields ListSessionsRespPayload) :=
    (simulates_word 2).bind fun count => (simulates_sessionEntries count).bind fun _ => .pure _
  exact hread.run_eq

theorem u32_apply (l : Bytes) : Fields.u32 l =
    if l.length < 4 then none else some (fromBeBytes (l.take 4), l.drop 4) := by
  change (Fields.take 4 l).bind (fun found => some (fromBeBytes found.1, found.2)) = _
  rw [Fields.take]
  split <;> rfl

/-- Nine bytes are the numbers of a node, one by one. -/
theorem simulates_numbers : Simulates data
    (do
      require data 9
      let offset ← get
      let pid ← Indexed.slice data offset (offset + 4)
      let parentPid ← Indexed.slice data (offset + 4) (offset + 8)
      let depth ← element data (offset + 8)
      set (offset + 9)
      return (fromBeBytes pid, fromBeBytes parentPid, depth) : Indexed.Reader (Nat × Nat × UInt8))
    (do
      let pid ← Fields.u32
      let parentPid ← Fields.u32
      return (pid, parentPid, ← Fields.byte) : Fields (Nat × Nat × UInt8)) := by
  refine Simulates.required
    (fun l => (fromBeBytes (l.take 4), fromBeBytes ((l.drop 4).take 4), (l.drop 8).headD 0))
    (fun l hl => ?_) (fun l hl => ?_) fun offset hfits => ?_
  · rw [front_bind, u32_apply]
    by_cases hfirst : l.length < 4
    · rw [if_pos hfirst]
      rfl
    rw [if_neg hfirst, Option.bind_some, front_bind, u32_apply]
    by_cases hsecond : (l.drop 4).length < 4
    · rw [if_pos hsecond]
      rfl
    have hnone : l.drop (4 + 4) = [] := List.drop_eq_nil_of_le (by omega)
    rw [if_neg hsecond, Option.bind_some, front_bind, List.drop_drop, hnone]
    rfl
  · have hdrop : 8 < l.length := by omega
    rw [front_bind, u32_apply, if_neg (by omega), Option.bind_some, front_bind, u32_apply,
      if_neg (by rw [List.length_drop]; omega), Option.bind_some, front_bind, List.drop_drop,
      List.drop_eq_getElem_cons hdrop]
    rw [List.take_take, List.drop_take, List.take_take, List.drop_take,
      List.drop_eq_getElem_cons hdrop]
    rfl
  · have hdepth : offset + 8 < data.length := by omega
    change (Indexed.slice data offset (offset + 4) >>= fun pid => do
      let parentPid ← Indexed.slice data (offset + 4) (offset + 8)
      let depth ← element data (offset + 8)
      set (offset + 9)
      return (fromBeBytes pid, fromBeBytes parentPid, depth) :
        Indexed.Reader (Nat × Nat × UInt8)) offset = _
    rw [reader_bind, Indexed.slice_eq ⟨by omega, by omega⟩]
    change (Indexed.slice data (offset + 4) (offset + 8) >>= fun parentPid => do
      let depth ← element data (offset + 8)
      set (offset + 9)
      return (_, fromBeBytes parentPid, depth) : Indexed.Reader (Nat × Nat × UInt8)) offset = _
    rw [reader_bind, Indexed.slice_eq ⟨by omega, by omega⟩]
    change (element data (offset + 8) >>= fun depth => do
      set (offset + 9)
      return (_, _, depth) : Indexed.Reader (Nat × Nat × UInt8)) offset = _
    rw [reader_bind, element_eq hdepth]
    dsimp only
    rw [List.take_take, List.drop_take, List.take_take, List.drop_take, List.drop_drop,
      List.drop_drop, headD_take hdepth, Nat.add_sub_cancel_left, Nat.add_sub_add_left]
    rfl

theorem simulates_processTreeNode :
    Simulates data (processTreeNode data) Fields.processTreeNode := by
  have hnode := simulates_numbers.bind fun numbers => (@simulates_str16 data).bind fun name =>
    (@simulates_str16 data).bind fun command => Simulates.pure (⟨numbers.1, numbers.2.1,
      numbers.2.2, name, command⟩ : ProcessTreeNode)
  simp only [bind_assoc, pure_bind] at hnode
  exact hnode

theorem simulates_processTreeNodes (count : Nat) :
    Simulates data (repeated (processTreeNode data) count) (Fields.processTreeNodes count) :=
  simulates_repeated simulates_processTreeNode rfl (fun _ => rfl) count

theorem decodeProcessTreeResp_eq (data : Bytes) :
    decodeProcessTreeResp data = answer (PersistShell.decodeProcessTreeResp data) := by
  have hread : Simulates data
      (do
        let count ← word data 2
        return { nodes := ← repeated (processTreeNode data) count } :
          Indexed.Reader ProcessTreeRespPayload)
      (do
        let count ← Fields.u16
        return { nodes := ← Fields.processTreeNodes count } : Fields ProcessTreeRespPayload) :=
    (simulates_word 2).bind fun count => (simulates_processTreeNodes count).bind fun _ => .pure _
  exact hread.run_eq

end simulation

/-- The listings are read back, each flag says of its own field whether it is there, and no data
makes a decoder read outside of it. -/
theorem listings_roundTrip :
    (∀ p : ListSessionsRespPayload, p.sessions.length ≤ 65535 →
      (∀ entry ∈ p.sessions, entry.Fits) →
      decodeListSessionsResp (encodeListSessionsResp p) = .ok p) ∧
    (∀ entry : SessionEntry,
      (entry.flags &&& 0x01 != 0) = entry.exitCode.isSome ∧
      (entry.flags &&& 0x02 != 0) = entry.closedAt.isSome ∧
      (entry.flags &&& 0x04 != 0) = entry.hasNote ∧ (entry.flags &&& 0x08 != 0) = entry.hasTags ∧
      (entry.flags &&& 0x10 != 0) = entry.isPinned ∧
      (entry.flags &&& 0x40 != 0) = entry.isLocked ∧
      (entry.flags &&& 0x20 != 0) = decide (entry.idle ≠ "") ∧
      (entry.flags &&& 0x80 != 0) = entry.foregroundPid.isSome) ∧
    (∀ payload : ProcessTreeRespPayload, payload.nodes.length ≤ 65535 →
      (∀ node ∈ payload.nodes, node.Fits) →
      decodeProcessTreeResp (encodeProcessTreeResp payload) = .ok payload) ∧
    ∀ data, decodeListSessionsResp data ≠ .error .outside ∧
      decodeProcessTreeResp data ≠ .error .outside := by
  refine ⟨fun p hcount hfits => ?_, SessionEntry.flags_read, fun payload hcount hfits => ?_,
    fun data => ⟨?_, ?_⟩⟩
  · rw [decodeListSessionsResp_eq, decodeListSessionsResp_encode hcount hfits]
    rfl
  · rw [decodeProcessTreeResp_eq, decodeProcessTreeResp_encode hcount hfits]
    rfl
  · rw [decodeListSessionsResp_eq]
    exact answer_ne_outside _
  · rw [decodeProcessTreeResp_eq]
    exact answer_ne_outside _

/-- An entry with all of its flags. -/
def fullEntry : SessionEntry where
  sessionId := 4294967295
  name := "café"
  status := "closed"
  exitCode := some (-1)
  closedAt := some ""
  hasNote := true
  hasTags := true
  isPinned := true
  isLocked := true
  idle := "3m"
  foregroundPid := some 7
  foregroundName := "vi"
  foregroundCmd := "vi notes"

theorem fullEntry_fits : fullEntry.Fits where
  sessionId := by decide
  exitCode := by
    intro code hcode
    cases hcode
    decide
  foregroundPid := by
    intro pid hpid
    cases hpid
    decide
  name := by decide +kernel
  status := by decide +kernel
  closedAt := by
    intro closed hclosed
    cases hclosed
    decide +kernel
  idle := by decide +kernel
  foregroundName := by decide +kernel
  foregroundCmd := by decide +kernel
  unnamed h := by cases h

theorem fullListing_roundTrip :
    decodeListSessionsResp (encodeListSessionsResp { sessions := [fullEntry] }) =
      .ok { sessions := [fullEntry] } :=
  listings_roundTrip.1 { sessions := [fullEntry] } (by decide) fun _ hentry =>
    List.mem_singleton.mp hentry ▸ fullEntry_fits

end ByOffset

end PersistShell

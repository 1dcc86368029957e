import PersistShell.Ipc.SessionList

/-! What the listings carry without a loss: the text of a string is that of its bytes, and an
entry whose fields have room for it is read back as it was. -/

namespace PersistShell

section lossy

theorem isContinuation_ofNat : ∀ n < 64, isContinuation (UInt8.ofNat (n + 128)) = true := by
  decide +kernel

/-- In three bytes there are neither the characters of two nor the surrogates. -/
theorem isSecond_three : ∀ a < 16, ∀ b < 64, (a = 0 → 32 ≤ b) → (a = 13 → b < 32) →
    isSecond (UInt8.ofNat (a + 224)) (UInt8.ofNat (b + 128)) = true := by
  decide +kernel

/-- In four bytes there are neither the characters of three nor more than there are. -/
theorem isSecond_four : ∀ a < 5, ∀ b < 64, (a = 0 → 16 ≤ b) → (a = 4 → b < 16) →
    isSecond (UInt8.ofNat (a + 240)) (UInt8.ofNat (b + 128)) = true := by
  decide +kernel

theorem followers_one : ∀ a < 128, followers (UInt8.ofNat a) = [] := by decide +kernel

theorem followers_two {a : Nat} (h : a < 32) (h' : 2 ≤ a) :
    followers (UInt8.ofNat (a + 192)) = [isContinuation] := by
  have hrange : ∀ a < 32, 2 ≤ a →
      (0xc2 ≤ UInt8.ofNat (a + 192) && UInt8.ofNat (a + 192) ≤ 0xdf) = true := by decide +kernel
  rw [followers, if_pos (hrange a h h')]

theorem followers_three {a : Nat} (h : a < 16) :
    followers (UInt8.ofNat (a + 224)) = [isSecond (UInt8.ofNat (a + 224)), isContinuation] := by
  have hrange : ∀ a < 16,
      (0xc2 ≤ UInt8.ofNat (a + 224) && UInt8.ofNat (a + 224) ≤ 0xdf) = false ∧
      (0xe0 ≤ UInt8.ofNat (a + 224) && UInt8.ofNat (a + 224) ≤ 0xef) = true := by decide +kernel
  rw [followers, if_neg (Bool.not_eq_true _ ▸ (hrange a h).1), if_pos (hrange a h).2]

theorem followers_four {a : Nat} (h : a < 5) : followers (UInt8.ofNat (a + 240)) =
    [isSecond (UInt8.ofNat (a + 240)), isContinuation, isContinuation] := by
  have hrange : ∀ a < 5,
      (0xc2 ≤ UInt8.ofNat (a + 240) && UInt8.ofNat (a + 240) ≤ 0xdf) = false ∧
      (0xe0 ≤ UInt8.ofNat (a + 240) && UInt8.ofNat (a + 240) ≤ 0xef) = false ∧
      (0xf0 ≤ UInt8.ofNat (a + 240) && UInt8.ofNat (a + 240) ≤ 0xf4) = true := by decide +kernel
  obtain ⟨htwo, hthree, hfour⟩ := hrange a h
  rw [followers, if_neg (Bool.not_eq_true _ ▸ htwo), if_neg (Bool.not_eq_true _ ▸ hthree),
    if_pos hfour]

theorem matching_cons {accepts : UInt8 → Bool} {b : UInt8} (h : accepts b = true)
    (later : List (UInt8 → Bool)) (bytes : Bytes) :
    matching (accepts :: later) (b :: bytes) = matching later bytes + 1 := by
  rw [matching, if_pos h]

/-- All that follows the first byte of a character belongs to it. -/
theorem matching_utf8EncodeChar (c : Char) : ∃ first rest,
    String.utf8EncodeChar c = first :: rest ∧
      ∀ more, matching (followers first) (rest ++ more) = rest.length := by
  have hvalid : c.val.toNat < 55296 ∨ 57343 < c.val.toNat ∧ c.val.toNat < 1114112 := c.valid
  unfold String.utf8EncodeChar
  dsimp only
  by_cases hone : c.val.toNat ≤ 127
  · rw [if_pos hone]
    refine ⟨_, _, rfl, fun more => ?_⟩
    rw [followers_one _ (by omega)]
    rfl
  rw [if_neg hone]
  by_cases htwo : c.val.toNat ≤ 2047
  · rw [if_pos htwo]
    refine ⟨_, _, rfl, fun more => ?_⟩
    rw [followers_two (by omega) (by omega), List.cons_append,
      matching_cons (isContinuation_ofNat _ (by omega))]
    rfl
  rw [if_neg htwo]
  by_cases hthree : c.val.toNat ≤ 65535
  · rw [if_pos hthree]
    refine ⟨_, _, rfl, fun more => ?_⟩
    rw [followers_three (by omega), List.cons_append, List.cons_append,
      matching_cons (isSecond_three _ (by omega) _ (by omega) (by omega) (by omega)),
      matching_cons (isContinuation_ofNat _ (by omega))]
    rfl
  · rw [if_neg hthree]
    refine ⟨_, _, rfl, fun more => ?_⟩
    rw [Nat.mod_eq_of_lt (show c.val.toNat / 262144 < 8 by omega),
      followers_four (by omega), List.cons_append, List.cons_append, List.cons_append,
      matching_cons (isSecond_four _ (by omega) _ (by omega) (by omega) (by omega)),
      matching_cons (isContinuation_ofNat _ (by omega)),
      matching_cons (isContinuation_ofNat _ (by omega))]
    rfl

theorem fromUtf8_utf8EncodeChar (c : Char) :
    fromUtf8 (String.utf8EncodeChar c) = some (String.ofList [c]) := by
  rw [fromUtf8_eq_some, utf8_eq_flatMap, String.toList_ofList, List.flatMap_singleton]

theorem firstLossy_utf8EncodeChar (c : Char) (more : Bytes) : ∃ first rest,
    String.utf8EncodeChar c = first :: rest ∧
      firstLossy first (rest ++ more) = (String.ofList [c], more) := by
  obtain ⟨first, rest, hencode, hmatching⟩ := matching_utf8EncodeChar c
  refine ⟨first, rest, hencode, ?_⟩
  rw [firstLossy, hmatching, List.take_left, List.drop_left, ← hencode, fromUtf8_utf8EncodeChar, Option.getD_some]

theorem fromUtf8LossyLoop_flatMap (chars : List Char) {fuel : Nat}
    (h : (chars.flatMap String.utf8EncodeChar).length ≤ fuel) :
    fromUtf8LossyLoop fuel (chars.flatMap String.utf8EncodeChar) = String.ofList chars := by
  induction chars generalizing fuel with
  | nil => cases fuel <;> rfl
  | cons c chars ih =>
    obtain ⟨first, rest, hencode, hfirst⟩ :=
      firstLossy_utf8EncodeChar c (chars.flatMap String.utf8EncodeChar)
    rw [List.flatMap_cons, hencode, List.cons_append] at h ⊢
    cases fuel with
    | zero => cases h
    | succ fuel =>
      rw [List.length_cons, List.length_append] at h
      rw [fromUtf8LossyLoop, hfirst, ih (by omega), ← String.ofList_append]
      rfl

/-- Nothing of a string is lost. -/
theorem fromUtf8Lossy_utf8 (s : String) : fromUtf8Lossy (utf8 s) = s := by
  rw [fromUtf8Lossy, utf8_eq_flatMap, fromUtf8LossyLoop_flatMap s.toList (Nat.le_refl _),
    String.ofList_toList]

theorem fromUtf8Lossy_take {s : String} (h : (utf8 s).length ≤ 65535) :
    fromUtf8Lossy ((utf8 s).take 65535) = s := by
  rw [List.take_of_length_le h, fromUtf8Lossy_utf8]

end lossy

section entries

/-- A string that its field has room for. -/
def FitsStr16 (s : String) : Prop := (utf8 s).length ≤ 65535

instance (s : String) : Decidable (FitsStr16 s) := inferInstanceAs (Decidable (_ ≤ _))

/-- The numbers are of the types of the fields, the strings have room in theirs, and without a
process there is nothing that it is called. -/
structure SessionEntry.Fits (entry : SessionEntry) : Prop where
  sessionId : entry.sessionId < 2 ^ 32
  exitCode : ∀ code ∈ entry.exitCode, -2 ^ 31 ≤ code ∧ code < 2 ^ 31
  foregroundPid : ∀ pid ∈ entry.foregroundPid, pid < 2 ^ 32
  name : FitsStr16 entry.name
  status : FitsStr16 entry.status
  closedAt : ∀ closed ∈ entry.closedAt, FitsStr16 closed
  idle : FitsStr16 entry.idle
  foregroundName : FitsStr16 entry.foregroundName
  foregroundCmd : FitsStr16 entry.foregroundCmd
  unnamed : entry.foregroundPid = none → entry.foregroundName = "" ∧ entry.foregroundCmd = ""

theorem map_eq_self {α : Type} {f : α → α} {a? : Option α} (h : ∀ a ∈ a?, f a = a) :
    a?.map f = a? := by
  cases a? with
  | none => rfl
  | some a => exact congrArg some (h a rfl)

theorem SessionEntry.Fits.onWire_eq {entry : SessionEntry} (h : entry.Fits) :
    entry.onWire = entry := by
  have hexit : entry.exitCode.map (fun code => i32OfBits (i32ToBits code)) = entry.exitCode :=
    map_eq_self fun code hcode =>
      i32OfBits_i32ToBits (h.exitCode code hcode).1 (h.exitCode code hcode).2
  have hclosed : entry.closedAt.map (fun s => fromUtf8Lossy ((utf8 s).take 65535)) =
      entry.closedAt := map_eq_self fun closed hclosed => fromUtf8Lossy_take (h.closedAt closed hclosed)
  have hpid : entry.foregroundPid.map (· % 2 ^ 32) = entry.foregroundPid :=
    map_eq_self fun pid hpid => Nat.mod_eq_of_lt (h.foregroundPid pid hpid)
  have hidle : (if entry.idle ≠ "" then fromUtf8Lossy ((utf8 entry.idle).take 65535) else "") =
      entry.idle := by
    split
    · exact fromUtf8Lossy_take h.idle
    · rename_i hempty
      exact (not_not.mp hempty).symm
  have hforeground : ∀ s, FitsStr16 s → (entry.foregroundPid = none → s = "") →
      (entry.foregroundPid.map fun _ => fromUtf8Lossy ((utf8 s).take 65535)).getD "" = s := by
    intro s hs hnone
    cases hprocess : entry.foregroundPid with
    | none => exact (hnone hprocess).symm
    | some pid => exact fromUtf8Lossy_take hs
  have hname := hforeground _ h.foregroundName fun hnone => (h.unnamed hnone).1
  have hcmd := hforeground _ h.foregroundCmd fun hnone => (h.unnamed hnone).2
  simp only [SessionEntry.onWire, hexit, hclosed, hpid, hidle, hname, hcmd,
    fromUtf8Lossy_take h.name, fromUtf8Lossy_take h.status, Nat.mod_eq_of_lt h.sessionId]

/-- A listing is read back when there are no more entries than the count can say. -/
theorem decodeListSessionsResp_encode {p : ListSessionsRespPayload}
    (hcount : p.sessions.length ≤ 65535) (h : ∀ entry ∈ p.sessions, entry.Fits) :
    decodeListSessionsResp (encodeListSessionsResp p) = some p := by
  have hsame : p.sessions.map SessionEntry.onWire = p.sessions :=
    (List.map_congr_left fun entry hentry => (h entry hentry).onWire_eq).trans (List.map_id' _)
  rw [decode_encodeListSessionsResp, List.take_of_length_le hcount, hsame]

end entries

structure ProcessTreeNode where
  pid : Nat
  parentPid : Nat
  depth : UInt8
  name : String
  command : String
  deriving DecidableEq, Repr

structure ProcessTreeRespPayload where
  nodes : List ProcessTreeNode
  deriving DecidableEq, Repr

section tree

def ProcessTreeNode.encode (node : ProcessTreeNode) : Bytes :=
  putU32 node.pid ++ putU32 node.parentPid ++ [node.depth] ++ encodeStr16 node.name ++
    encodeStr16 node.command

def encodeProcessTreeResp (payload : ProcessTreeRespPayload) : Bytes :=
  let nodes := payload.nodes.take (min payload.nodes.length 65535)
  putU16 nodes.length ++ nodes.flatMap ProcessTreeNode.encode

namespace Fields

def processTreeNode : Fields ProcessTreeNode := do
  return { pid := ← u32, parentPid := ← u32, depth := ← byte, name := ← str16, command := ← str16 }

def processTreeNodes : Nat → Fields (List ProcessTreeNode)
  | 0 => return []
  | count + 1 => do
    let node ← processTreeNode
    return node :: (← processTreeNodes count)

end Fields

def decodeProcessTreeResp (data : Bytes) : Option ProcessTreeRespPayload :=
  (do
    let count ← Fields.u16
    return { nodes := ← Fields.processTreeNodes count } : Fields ProcessTreeRespPayload).run' data

structure ProcessTreeNode.Fits (node : ProcessTreeNode) : Prop where
  pid : node.pid < 2 ^ 32
  parentPid : node.parentPid < 2 ^ 32
  name : FitsStr16 node.name
  command : FitsStr16 node.command

open Fields in
theorem ProcessTreeNode.Fits.reads {node : ProcessTreeNode} (h : node.Fits) :
    processTreeNode.Reads node.encode node := by
  have hpid := reads_u32 node.pid
  have hparent := reads_u32 node.parentPid
  have hname := reads_str16 node.name
  have hcommand := reads_str16 node.command
  rw [Nat.mod_eq_of_lt h.pid] at hpid
  rw [Nat.mod_eq_of_lt h.parentPid] at hparent
  rw [fromUtf8Lossy_take h.name] at hname
  rw [fromUtf8Lossy_take h.command] at hcommand
  simp only [encode, List.append_assoc]
  exact hpid.bind (hparent.bind ((reads_byte _).bind (hname.bind hcommand.map)))

open Fields in
theorem reads_processTreeNodes {nodes : List ProcessTreeNode} (h : ∀ node ∈ nodes, node.Fits) :
    (processTreeNodes nodes.length).Reads (nodes.flatMap ProcessTreeNode.encode) nodes := by
  induction nodes with
  | nil => exact Reads.pure []
  | cons node nodes ih =>
    have hlater := ih fun other hother => h other (List.mem_cons_of_mem _ hother)
    exact (h node List.mem_cons_self).reads.bind hlater.map

open Fields in
theorem decodeProcessTreeResp_encode {payload : ProcessTreeRespPayload}
    (hcount : payload.nodes.length ≤ 65535) (h : ∀ node ∈ payload.nodes, node.Fits) :
    decodeProcessTreeResp (encodeProcessTreeResp payload) = some payload := by
  have hlength := reads_toBeBytes 2 payload.nodes.length
  rw [Nat.mod_eq_of_lt (by omega)] at hlength
  have hread : (do
      let count ← u16
      return { nodes := ← processTreeNodes count } : Fields ProcessTreeRespPayload).Reads
      (putU16 payload.nodes.length ++ payload.nodes.flatMap ProcessTreeNode.encode) payload :=
    hlength.bind (reads_processTreeNodes h).map
  rw [encodeProcessTreeResp, Nat.min_eq_left hcount, List.take_length,
    ← List.append_nil (putU16 _ ++ _), decodeProcessTreeResp, StateT.run', hread]
  rfl

end tree

end PersistShell

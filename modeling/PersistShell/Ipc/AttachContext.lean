import Mathlib.Data.List.Perm.Subperm
import PersistShell.Ipc.Context
import PersistShell.Ipc.Wire

/-! The payload of a public Attach: the id of the session, alone in the legacy form, and with the
variables of the terminal behind it. -/

namespace PersistShell

def attachContextVersion : Nat := 1

structure AttachPayload where
  sessionId : Nat

structure DecodedAttachPayload where
  sessionId : Nat
  connectionEnv : ConnectionEnvironment

def encodeConnectionVariable (entry : String × String) : Bytes :=
  putU8 (utf8 entry.1).length ++ utf8 entry.1 ++ putU16 (utf8 entry.2).length ++ utf8 entry.2

def encodeAttachWithContext (payload : AttachPayload) (context : ConnectionEnvironment) : Bytes :=
  putU32 payload.sessionId ++ putU8 attachContextVersion ++ putU8 context.variables_.length ++
    context.variables_.flatMap encodeConnectionVariable

/-- `data.get(offset..offset + len)`. -/
def slice (data : Bytes) (offset len : Nat) : Option Bytes :=
  if offset + len ≤ data.length then some ((data.drop offset).take len) else none

/-- One pass of the loop of `decode_attach`: a variable, and the offset behind it. -/
def decodeConnectionVariable (data : Bytes) (offset : Nat) : Option ((String × String) × Nat) := do
  let nameLen := fromBeBytes (← slice data offset 1)
  let name ← fromUtf8 (← slice data (offset + 1) nameLen)
  let valueLen := fromBeBytes (← slice data (offset + 1 + nameLen) 2)
  let value ← fromUtf8 (← slice data (offset + 1 + nameLen + 2) valueLen)
  return ((name, value), offset + 1 + nameLen + 2 + valueLen)

def decodeConnectionVariables (data : Bytes) : Nat → Nat → Option (List (String × String) × Nat)
  | 0, offset => some ([], offset)
  | count + 1, offset => do
    let (entry, offset) ← decodeConnectionVariable data offset
    let (entries, offset) ← decodeConnectionVariables data count offset
    return (entry :: entries, offset)

def decodeAttach (data : Bytes) : Option DecodedAttachPayload :=
  let sessionId := fromBeBytes (data.take 4)
  if data.length < 4 then none
  else if data.length = 4 then some { sessionId, connectionEnv := .default }
  else if data.length < 6 ∨ fromBeBytes ((data.drop 4).take 1) ≠ attachContextVersion then none
  else
    let count := fromBeBytes ((data.drop 5).take 1)
    if count > maxConnectionEnvVariables then none
    else do
      let (pairs, offset) ← decodeConnectionVariables data count 6
      if offset ≠ data.length then none
      else return { sessionId, connectionEnv := ← ConnectionEnvironment.fromPairs pairs }

section slices

variable {data more part : Bytes} {offset len : Nat}

theorem slice_eq_some : slice data offset len = some part ↔
    offset + len ≤ data.length ∧ part = (data.drop offset).take len := by
  unfold slice
  split
  · rename_i hfits
    exact ⟨fun h => ⟨hfits, (Option.some.inj h).symm⟩, fun h => congrArg some h.2.symm⟩
  · rename_i hfits
    exact ⟨fun h => (by cases h), fun h => absurd h.1 hfits⟩

/-- What has been found is still found when there are more bytes. -/
theorem slice_append (h : slice data offset len = some part) :
    slice (data ++ more) offset len = some part := by
  obtain ⟨hfits, rfl⟩ := slice_eq_some.mp h
  refine slice_eq_some.mpr ⟨?_, ?_⟩
  · rw [List.length_append]
    omega
  · rw [List.drop_append_of_le_length (by omega), List.take_append_of_le_length]
    rw [List.length_drop]
    omega

theorem slice_middle (front part rest : Bytes) :
    slice (front ++ part ++ rest) front.length part.length = some part := by
  refine slice_eq_some.mpr ⟨?_, ?_⟩
  · simp only [List.length_append]
    omega
  · rw [List.append_assoc, List.drop_left, List.take_left]

theorem decodeConnectionVariable_eq_some {entry : String × String} {next : Nat} :
    decodeConnectionVariable data offset = some (entry, next) ↔
      ∃ nameLen name valueLen value, slice data offset 1 = some nameLen ∧
        slice data (offset + 1) (fromBeBytes nameLen) = some name ∧
        fromUtf8 name = some entry.1 ∧
        slice data (offset + 1 + fromBeBytes nameLen) 2 = some valueLen ∧
        slice data (offset + 1 + fromBeBytes nameLen + 2) (fromBeBytes valueLen) = some value ∧
        fromUtf8 value = some entry.2 ∧
        next = offset + 1 + fromBeBytes nameLen + 2 + fromBeBytes valueLen := by
  obtain ⟨entryName, entryValue⟩ := entry
  simp only [decodeConnectionVariable, Option.bind_eq_bind, Option.bind_eq_some_iff, Option.pure_def,
    Option.some.injEq, Prod.mk.injEq]
  constructor
  · rintro ⟨nameLen, h₁, name, h₂, _, h₃, valueLen, h₄, value, h₅, _, h₆, ⟨rfl, rfl⟩, rfl⟩
    exact ⟨nameLen, name, valueLen, value, h₁, h₂, h₃, h₄, h₅, h₆, rfl⟩
  · rintro ⟨nameLen, name, valueLen, value, h₁, h₂, h₃, h₄, h₅, h₆, rfl⟩
    exact ⟨nameLen, h₁, name, h₂, _, h₃, valueLen, h₄, value, h₅, _, h₆, ⟨rfl, rfl⟩, rfl⟩

theorem decodeConnectionVariable_append {found : (String × String) × Nat}
    (h : decodeConnectionVariable data offset = some found) :
    decodeConnectionVariable (data ++ more) offset = some found := by
  obtain ⟨nameLen, name, valueLen, value, h₁, h₂, h₃, h₄, h₅, h₆, h₇⟩ :=
    decodeConnectionVariable_eq_some.mp h
  exact decodeConnectionVariable_eq_some.mpr ⟨nameLen, name, valueLen, value, slice_append h₁,
    slice_append h₂, h₃, slice_append h₄, slice_append h₅, h₆, h₇⟩

theorem decodeConnectionVariables_append (more : Bytes) {count : Nat}
    {found : List (String × String) × Nat}
    (h : decodeConnectionVariables data count offset = some found) :
    decodeConnectionVariables (data ++ more) count offset = some found := by
  induction count generalizing offset found with
  | zero => exact h
  | succ count ih =>
    simp only [decodeConnectionVariables, Option.bind_eq_bind, Option.bind_eq_some_iff] at h ⊢
    obtain ⟨⟨entry, next⟩, hentry, ⟨entries, last⟩, hentries, h⟩ := h
    exact ⟨_, decodeConnectionVariable_append hentry, _, ih hentries, h⟩

end slices

/-- A variable that fits into the fields of the payload. -/
theorem decodeConnectionVariable_encode (front rest : Bytes) {entry : String × String}
    (h : validConnectionVariable entry.1 entry.2 = true) :
    decodeConnectionVariable (front ++ encodeConnectionVariable entry ++ rest) front.length =
      some (entry, (front ++ encodeConnectionVariable entry).length) := by
  simp only [validConnectionVariable, Bool.and_eq_true, decide_eq_true_eq] at h
  obtain ⟨⟨⟨⟨⟨-, -⟩, hname⟩, -⟩, hvalue⟩, -⟩ := h
  have hnameLen : fromBeBytes (putU8 (utf8 entry.1).length) = (utf8 entry.1).length := by
    rw [putU8, fromBeBytes_toBeBytes]
    exact Nat.mod_eq_of_lt (Nat.lt_of_le_of_lt hname (by decide))
  have hvalueLen : fromBeBytes (putU16 (utf8 entry.2).length) = (utf8 entry.2).length := by
    rw [putU16, fromBeBytes_toBeBytes]
    exact Nat.mod_eq_of_lt (Nat.lt_of_le_of_lt hvalue (by decide))
  have hone : (putU8 (utf8 entry.1).length).length = 1 := length_toBeBytes _ _
  have htwo : (putU16 (utf8 entry.2).length).length = 2 := length_toBeBytes _ _
  -- the four fields, each between what is before and what is behind it
  have h₁ := slice_middle front (putU8 (utf8 entry.1).length)
    (utf8 entry.1 ++ putU16 (utf8 entry.2).length ++ utf8 entry.2 ++ rest)
  have h₂ := slice_middle (front ++ putU8 (utf8 entry.1).length) (utf8 entry.1)
    (putU16 (utf8 entry.2).length ++ utf8 entry.2 ++ rest)
  have h₃ := slice_middle (front ++ putU8 (utf8 entry.1).length ++ utf8 entry.1)
    (putU16 (utf8 entry.2).length) (utf8 entry.2 ++ rest)
  have h₄ := slice_middle (front ++ putU8 (utf8 entry.1).length ++ utf8 entry.1 ++
    putU16 (utf8 entry.2).length) (utf8 entry.2) rest
  simp only [List.append_assoc, List.length_append, hone, htwo] at h₁ h₂ h₃ h₄
  apply decodeConnectionVariable_eq_some.mpr
  simp only [encodeConnectionVariable, List.append_assoc, List.length_append, hone, htwo]
  refine ⟨_, utf8 entry.1, putU16 (utf8 entry.2).length, utf8 entry.2, h₁, ?_, fromUtf8_utf8 _, ?_,
    ?_, fromUtf8_utf8 _, ?_⟩
  · rw [hnameLen]
    exact h₂
  · rw [hnameLen, Nat.add_assoc]
    exact h₃
  · rw [hnameLen, hvalueLen]
    simp only [Nat.add_assoc] at h₄ ⊢
    exact h₄
  · rw [hnameLen, hvalueLen]
    omega

theorem decodeConnectionVariables_encode (front rest : Bytes) {entries : List (String × String)}
    (h : ∀ entry ∈ entries, validConnectionVariable entry.1 entry.2 = true) :
    decodeConnectionVariables (front ++ entries.flatMap encodeConnectionVariable ++ rest)
      entries.length front.length =
      some (entries, (front ++ entries.flatMap encodeConnectionVariable).length) := by
  induction entries generalizing front with
  | nil =>
    rw [List.flatMap_nil, List.append_nil]
    rfl
  | cons entry entries ih =>
    have hfirst := decodeConnectionVariable_encode front
      (entries.flatMap encodeConnectionVariable ++ rest) (h entry List.mem_cons_self)
    have hlater := ih (front ++ encodeConnectionVariable entry)
      fun e he => h e (List.mem_cons_of_mem _ he)
    simp only [List.append_assoc] at hfirst hlater
    simp only [List.length_cons, decodeConnectionVariables, List.flatMap_cons, List.append_assoc,
      Option.bind_eq_bind, hfirst, Option.bind_some, hlater]
    rfl

namespace ConnectionEnvironment

/-- There are no more variables than there are names for them. -/
theorem length_le (env : ConnectionEnvironment) :
    env.variables_.length ≤ maxConnectionEnvVariables := by
  have hnodup : (env.variables_.map Prod.fst).Nodup := env.sorted.imp fun h => ne_of_lt h
  have hsub : env.variables_.map Prod.fst ⊆ connectionNames := by
    intro name hname
    obtain ⟨entry, hentry, rfl⟩ := List.mem_map.mp hname
    exact (env.pairOk hentry).2
  have hle := (hnodup.subperm hsub).length_le
  rw [List.length_map] at hle
  exact hle

theorem insertEntry_last {entry : String × String} {entries : List (String × String)}
    (h : ∀ e ∈ entries, e.1 < entry.1) : insertEntry entry entries = entries ++ [entry] := by
  induction entries with
  | nil => rfl
  | cons e entries ih =>
    have hlt := h e List.mem_cons_self
    rw [insertEntry, if_neg (not_lt_of_gt hlt), ih fun e' he' => h e' (List.mem_cons_of_mem _ he'),
      List.cons_append]

/-- Variables that come in the order of their names are put behind those that are there. -/
theorem foldlM_insert {entries : List (String × String)} {env whole : ConnectionEnvironment}
    (h : whole.variables_ = env.variables_ ++ entries) :
    entries.foldlM insert env = some whole := by
  induction entries generalizing env with
  | nil =>
    rw [List.append_nil] at h
    obtain ⟨variables_, _, _⟩ := env
    obtain ⟨variables_', _, _⟩ := whole
    cases h
    rfl
  | cons entry entries ih =>
    have hcount := whole.length_le
    have hsorted := whole.sorted
    rw [h] at hcount hsorted
    rw [List.map_append, List.pairwise_append] at hsorted
    have hless : ∀ e ∈ env.variables_, e.1 < entry.1 := fun e he =>
      hsorted.2.2 e.1 (List.mem_map_of_mem he) entry.1 List.mem_cons_self
    have hvalid := whole.valid entry (h ▸ List.mem_append_right _ List.mem_cons_self)
    have hnew : ¬ (maxConnectionEnvVariables ≤ env.variables_.length ∨
        validConnectionVariable entry.1 entry.2 = false ∨
        entry.1 ∈ env.variables_.map Prod.fst) := by
      rintro (hfull | hinvalid | hmem)
      · rw [List.length_append, List.length_cons] at hcount
        omega
      · rw [hvalid] at hinvalid
        cases hinvalid
      · obtain ⟨e, he, heq⟩ := List.mem_map.mp hmem
        exact absurd heq (ne_of_lt (hless e he))
    rw [List.foldlM_cons, insert, dif_neg hnew]
    apply ih
    dsimp only
    rw [insertEntry_last hless, h, List.append_assoc, List.singleton_append]

theorem fromPairs_variables (env : ConnectionEnvironment) : fromPairs env.variables_ = some env :=
  foldlM_insert rfl

end ConnectionEnvironment

section attach

variable {sessionId : Nat} {context : ConnectionEnvironment}

/-- What comes before the variables. -/
def attachHeader (sessionId count : Nat) : Bytes :=
  putU32 sessionId ++ putU8 attachContextVersion ++ putU8 count

theorem length_attachHeader (sessionId count : Nat) : (attachHeader sessionId count).length = 6 := by
  simp only [attachHeader, putU32, putU8, List.length_append, length_toBeBytes]

theorem decodeAttach_header {count : Nat} (hid : sessionId < 2 ^ 32)
    (hcount : count ≤ maxConnectionEnvVariables) (body : Bytes) :
    decodeAttach (attachHeader sessionId count ++ body) =
      (decodeConnectionVariables (attachHeader sessionId count ++ body) count 6).bind fun found =>
        if found.2 ≠ (attachHeader sessionId count ++ body).length then none
        else (ConnectionEnvironment.fromPairs found.1).map ({ sessionId, connectionEnv := · }) := by
  have hlength : (attachHeader sessionId count ++ body).length = 6 + body.length := by
    rw [List.length_append, length_attachHeader]
  have hfour : (putU32 sessionId).length = 4 := length_toBeBytes _ _
  have hone : ∀ value, (putU8 value).length = 1 := fun value => length_toBeBytes _ _
  have hsession : fromBeBytes ((attachHeader sessionId count ++ body).take 4) = sessionId := by
    rw [attachHeader, List.append_assoc, List.append_assoc,
      List.take_left' hfour, putU32, fromBeBytes_toBeBytes]
    exact Nat.mod_eq_of_lt hid
  have hversion : fromBeBytes (((attachHeader sessionId count ++ body).drop 4).take 1) =
      attachContextVersion := by
    rw [attachHeader, List.append_assoc, List.append_assoc,
      List.drop_left' hfour, List.take_left' (hone _)]
    rfl
  have hcounted : fromBeBytes (((attachHeader sessionId count ++ body).drop 5).take 1) = count := by
    have hfive : (putU32 sessionId ++ putU8 attachContextVersion).length = 5 := by
      rw [List.length_append, putU32, putU8, length_toBeBytes, length_toBeBytes]
    rw [attachHeader, List.append_assoc, List.drop_left' hfive, List.take_left' (hone _), putU8,
      fromBeBytes_toBeBytes]
    exact Nat.mod_eq_of_lt (Nat.lt_of_le_of_lt hcount (by decide))
  unfold decodeAttach
  dsimp only
  rw [hsession, hversion, hcounted, if_neg (by omega), if_neg (by omega), if_neg (by omega),
    if_neg (by omega)]
  cases decodeConnectionVariables (attachHeader sessionId count ++ body) count 6 with
  | none => rfl
  | some found =>
    change (if found.2 ≠ _ then none else _) = ite _ _ _
    split
    · rfl
    · cases ConnectionEnvironment.fromPairs found.1 with
      | none => rfl
      | some env => rfl

theorem encodeAttachWithContext_eq (sessionId : Nat) (context : ConnectionEnvironment) :
    encodeAttachWithContext ⟨sessionId⟩ context =
      attachHeader sessionId context.variables_.length ++
        context.variables_.flatMap encodeConnectionVariable := rfl

/-- The variables end where the encoding does, whatever comes behind it. -/
theorem decodeConnectionVariables_attach (sessionId : Nat) (context : ConnectionEnvironment)
    (rest : Bytes) :
    decodeConnectionVariables (encodeAttachWithContext ⟨sessionId⟩ context ++ rest)
      context.variables_.length 6 =
      some (context.variables_, (encodeAttachWithContext ⟨sessionId⟩ context).length) := by
  have h := decodeConnectionVariables_encode (attachHeader sessionId context.variables_.length) rest
    context.valid
  rw [length_attachHeader] at h
  exact h

theorem decodeAttach_encode (hid : sessionId < 2 ^ 32) :
    decodeAttach (encodeAttachWithContext ⟨sessionId⟩ context) =
      some { sessionId, connectionEnv := context } := by
  have hvariables := decodeConnectionVariables_attach sessionId context []
  rw [List.append_nil] at hvariables
  rw [encodeAttachWithContext_eq] at hvariables ⊢
  rw [decodeAttach_header hid context.length_le, hvariables, Option.bind_some,
    if_neg (fun h => h rfl), ConnectionEnvironment.fromPairs_variables]
  rfl

theorem decodeAttach_extended (hid : sessionId < 2 ^ 32) {extra : Bytes} (hextra : extra ≠ []) :
    decodeAttach (encodeAttachWithContext ⟨sessionId⟩ context ++ extra) = none := by
  have hvariables := decodeConnectionVariables_attach sessionId context extra
  have hlonger : (encodeAttachWithContext ⟨sessionId⟩ context).length ≠
      (encodeAttachWithContext ⟨sessionId⟩ context ++ extra).length := by
    have := List.length_pos_of_ne_nil hextra
    rw [List.length_append]
    omega
  rw [encodeAttachWithContext_eq, List.append_assoc] at hvariables hlonger ⊢
  rw [decodeAttach_header hid context.length_le, hvariables, Option.bind_some, if_pos hlonger]

/-- A part of an encoding is the legacy form, or it is rejected. -/
theorem decodeAttach_cut (hid : sessionId < 2 ^ 32) {front rest : Bytes}
    (hcut : encodeAttachWithContext ⟨sessionId⟩ context = front ++ rest) (hrest : rest ≠ []) :
    decodeAttach front =
      if front.length = 4 then some { sessionId, connectionEnv := .default } else none := by
  have hpart := List.length_pos_of_ne_nil hrest
  by_cases hlong : 6 ≤ front.length
  · rw [if_neg (by omega)]
    have hcut' := hcut
    rw [encodeAttachWithContext_eq] at hcut'
    obtain ⟨body, rfl⟩ : ∃ body, front = attachHeader sessionId context.variables_.length ++ body := by
      obtain ⟨body, hbody⟩ := List.prefix_of_prefix_length_le (List.prefix_append _ _)
        (hcut' ▸ List.prefix_append front rest) (by rw [length_attachHeader]; exact hlong)
      exact ⟨body, hbody.symm⟩
    rw [decodeAttach_header hid context.length_le]
    cases hfound : decodeConnectionVariables
        (attachHeader sessionId context.variables_.length ++ body) context.variables_.length 6 with
    | none => rfl
    | some found =>
      have hwhole := decodeConnectionVariables_append rest hfound
      have hends := decodeConnectionVariables_attach sessionId context []
      rw [List.append_nil, hcut] at hends
      cases hwhole.symm.trans hends
      rw [Option.bind_some, if_pos]
      rw [List.length_append]
      omega
  · have hfour : (putU32 sessionId).length = 4 := length_toBeBytes _ _
    unfold decodeAttach
    dsimp only
    by_cases hshort : front.length < 4
    · rw [if_pos hshort, if_neg (by omega)]
    rw [if_neg hshort]
    by_cases hexact : front.length = 4
    · have hsession : front = putU32 sessionId := by
        have htake := congrArg (List.take 4) hcut
        rw [List.take_left' hexact] at htake
        rw [← htake, encodeAttachWithContext, List.append_assoc,
          List.append_assoc]
        exact List.take_left' hfour
      rw [if_pos hexact, if_pos hexact, List.take_of_length_le (by omega), hsession, putU32,
        fromBeBytes_toBeBytes]
      exact congrArg (fun sessionId => some (DecodedAttachPayload.mk sessionId .default))
        (Nat.mod_eq_of_lt hid)
    · rw [if_neg hexact, if_neg hexact, if_pos (Or.inl (by omega))]

/-- The two forms of the payload are told apart by their length, and nothing else is read as
one. -/
theorem attach_payload_codec :
    (∀ sessionId, sessionId < 2 ^ 32 → ∀ pairs context,
      ConnectionEnvironment.fromPairs pairs = some context →
      decodeAttach (encodeAttachWithContext ⟨sessionId⟩ context) =
        some { sessionId, connectionEnv := context } ∧
      (∀ front rest, encodeAttachWithContext ⟨sessionId⟩ context = front ++ rest → rest ≠ [] →
        decodeAttach front =
          if front.length = 4 then some { sessionId, connectionEnv := .default } else none) ∧
      ∀ extra, extra ≠ [] →
        decodeAttach (encodeAttachWithContext ⟨sessionId⟩ context ++ extra) = none) ∧
    ∀ data decoded, decodeAttach data = some decoded →
      (decoded.connectionEnv.variables_.map Prod.fst).Nodup ∧
      ∀ entry ∈ decoded.connectionEnv.variables_, entry.1 ∈ connectionNames ∧
        utf8 entry.2 ≠ [] ∧ (utf8 entry.2).length ≤ 4096 ∧ entry.2.toList.any isControl = false := by
  refine ⟨fun sessionId hid pairs context _ => ⟨decodeAttach_encode hid,
    fun front rest hcut hrest => decodeAttach_cut hid hcut hrest,
    fun extra hextra => decodeAttach_extended hid hextra⟩, fun data decoded _ => ⟨?_, ?_⟩⟩
  · exact decoded.connectionEnv.sorted.imp fun h => ne_of_lt h
  · intro entry hentry
    have hvalid := decoded.connectionEnv.valid entry hentry
    simp only [validConnectionVariable, Bool.and_eq_true, decide_eq_true_eq,
      Bool.not_eq_true'] at hvalid
    obtain ⟨⟨⟨⟨⟨hname, -⟩, -⟩, hempty⟩, hsize⟩, hcontrol⟩ := hvalid
    exact ⟨hname, hempty, hsize, hcontrol⟩

theorem attach_payload_codec_term : ∃ context,
    ConnectionEnvironment.fromPairs [("TERM", "screen")] = some context ∧
      decodeAttach (encodeAttachWithContext ⟨9⟩ context) =
        some { sessionId := 9, connectionEnv := context } := by
  have hsome : (ConnectionEnvironment.fromPairs [("TERM", "screen")]).isSome = true := by
    decide +kernel
  obtain ⟨context, hcontext⟩ := Option.isSome_iff_exists.mp hsome
  exact ⟨context, hcontext, (attach_payload_codec.1 9 (by decide) _ context hcontext).1⟩

end attach

end PersistShell

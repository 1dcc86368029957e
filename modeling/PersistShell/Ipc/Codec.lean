import PersistShell.Ipc.Streams

/-! Laws of readers and of the codecs that are made of them: what a reader takes off a payload,
and that a payload which is read to its end is read neither in part nor with more behind it. -/

namespace PersistShell

theorem toBeBytes_fromBeBytes (bytes : Bytes) :
    toBeBytes bytes.length (fromBeBytes bytes) = bytes := by
  induction bytes using List.reverseRecOn with
  | nil => rfl
  | append_singleton bytes b ih =>
    have hbyte : b.toNat < 256 := b.toNat_lt
    have hhigh : (fromBeBytes bytes * 256 + b.toNat) / 256 = fromBeBytes bytes := by omega
    have hlow : (fromBeBytes bytes * 256 + b.toNat) % 256 = b.toNat := by omega
    rw [List.length_append, List.length_singleton, fromBeBytes_append_singleton, toBeBytes, hhigh,
      hlow, ih, UInt8.ofNat_toNat]

theorem i32ToBits_i32OfBits {bits : Nat} (h : bits < 2 ^ 32) : i32ToBits (i32OfBits bits) = bits := by
  unfold i32OfBits i32ToBits
  split <;> omega

namespace Reader

variable {α β : Type} {m : Reader α} {f : α → Reader β}

/-- What comes behind the part that is read does not matter. -/
def Extends (m : Reader α) : Prop :=
  ∀ p a r, m p = .ok (a, r) → ∀ q, m (p ++ q) = .ok (a, r ++ q)

/-- A payload that is accepted is read to its end, and is not accepted with more behind it. -/
def Sealed (m : Reader α) : Prop :=
  ∀ p a r, m p = .ok (a, r) → r = [] ∧ ∀ q, q ≠ [] → ∀ c, m (p ++ q) ≠ .ok c

/-- What is accepted and the bytes it was read from are in `Q`. -/
def Takes (m : Reader α) (Q : α → Bytes → Prop) : Prop :=
  ∀ p a r, m p = .ok (a, r) → ∃ front, p = front ++ r ∧ Q a front

/-- A reader that only checks. -/
def Silent (m : Reader α) : Prop := m.Takes fun _ bytes => bytes = []

section extends_

theorem Extends.bind (hm : m.Extends) (hf : ∀ a, (f a).Extends) : (m >>= f).Extends := by
  intro p b r hrun q
  obtain ⟨a, t, hfirst, hrest⟩ := bind_eq_ok.mp hrun
  exact bind_eq_ok.mpr ⟨a, t ++ q, hm p a t hfirst q, hf a t b r hrest q⟩

theorem Extends.pure (a : α) : (Pure.pure a : Reader α).Extends := by
  intro p b r hrun q
  cases hrun
  rfl

theorem Extends.throw (e : HolderProtocolError) : (throw e : Reader α).Extends :=
  fun _ _ _ hrun => by cases hrun

theorem Extends.convert (r : Except HolderProtocolError α) : (liftM r : Reader α).Extends := by
  cases r with
  | ok a => exact Extends.pure a
  | error e => exact Extends.throw e

theorem Extends.reject (c : Prop) [Decidable c] (e : HolderProtocolError) :
    (rejectIf c e : Reader Unit).Extends := by
  unfold rejectIf
  split
  · exact Extends.throw e
  · exact Extends.pure ()

theorem extends_take (len : Nat) : (take len).Extends := by
  intro p a r hrun q
  unfold take at hrun ⊢
  split at hrun
  · cases hrun
  · rename_i hlen
    cases hrun
    rw [if_neg (by rw [List.length_append]; omega),
      List.take_append_of_le_length (Nat.le_of_not_lt hlen),
      List.drop_append_of_le_length (Nat.le_of_not_lt hlen)]

theorem extends_unsigned (width : Nat) : (unsigned width).Extends :=
  (extends_take width).bind fun _ => .pure _

theorem extends_i32 : i32.Extends := (extends_unsigned 4).bind fun _ => .pure _

theorem extends_string (max : Nat) : (string max).Extends := by
  refine (extends_unsigned 2).bind fun len => (Extends.reject _ _).bind fun _ =>
    (extends_take len).bind fun bytes => ?_
  split
  · exact .throw _
  · exact (Extends.reject _ _).bind fun _ => .pure _

theorem extends_bool : bool.Extends := by
  refine (extends_unsigned 1).bind fun n => ?_
  split
  · exact .pure _
  · exact .pure _
  · exact .throw _

theorem extends_optionalString (max : Nat) : (optionalString max).Extends := by
  refine (extends_unsigned 1).bind fun n => ?_
  split
  · exact .pure _
  · exact (extends_string max).bind fun _ => .pure _
  · exact .throw _

theorem extends_optionalBytesU32 (max : Nat) : (optionalBytesU32 max).Extends := by
  refine (extends_unsigned 1).bind fun n => ?_
  split
  · exact .pure _
  · exact (extends_unsigned 4).bind fun len => (Extends.reject _ _).bind fun _ =>
      (extends_take len).bind fun _ => .pure _
  · exact .throw _

theorem extends_repeated (h : m.Extends) (count : Nat) : (repeated m count).Extends := by
  induction count with
  | zero => exact .pure _
  | succ count ih => exact h.bind fun _ => ih.bind fun _ => .pure _

end extends_

section sealed

theorem Extends.seals (hm : m.Extends) (hf : ∀ a, (f a).Sealed) : (m >>= f).Sealed := by
  intro p b r hrun
  obtain ⟨a, t, hfirst, hrest⟩ := bind_eq_ok.mp hrun
  obtain ⟨hend, hmore⟩ := hf a t b r hrest
  refine ⟨hend, fun q hq c hc => ?_⟩
  obtain ⟨a', t', hfirst', hrest'⟩ := bind_eq_ok.mp hc
  have hsame := (hm p a t hfirst q).symm.trans hfirst'
  cases hsame
  exact hmore q hq c hrest'

/-- Nothing is read behind the end. -/
theorem Sealed.finish {k : Unit → Reader β} (hk : (k ()).Silent) :
    (Reader.finish >>= k).Sealed := by
  intro p b r hrun
  obtain ⟨⟨⟩, t, hfinish, hrest⟩ := bind_eq_ok.mp hrun
  unfold Reader.finish at hfinish
  split at hfinish
  · rename_i hnil
    cases hfinish
    obtain ⟨front, hfront, rfl⟩ := hk _ _ _ hrest
    refine ⟨hfront.symm, fun q hq c hc => ?_⟩
    obtain ⟨_, _, hfinish, -⟩ := bind_eq_ok.mp hc
    unfold Reader.finish at hfinish
    rw [if_neg (by simp [hq])] at hfinish
    cases hfinish
  · cases hfinish

end sealed

section takes

variable {Q : α → Bytes → Prop} {R : β → Bytes → Prop}

theorem Takes.bind (hm : m.Takes Q)
    (hf : ∀ a front, Q a front → (f a).Takes fun b back => R b (front ++ back)) :
    (m >>= f).Takes R := by
  intro p b r hrun
  obtain ⟨a, t, hfirst, hrest⟩ := bind_eq_ok.mp hrun
  obtain ⟨front, rfl, hQ⟩ := hm p a t hfirst
  obtain ⟨back, rfl, hR⟩ := hf a front hQ t b r hrest
  exact ⟨front ++ back, (List.append_assoc ..).symm, hR⟩

theorem Takes.pure {b : β} (h : R b []) : (Pure.pure b : Reader β).Takes R := by
  intro p b' r hrun
  cases hrun
  exact ⟨[], rfl, h⟩

theorem Takes.throw (e : HolderProtocolError) : (throw e : Reader β).Takes R :=
  fun _ _ _ hrun => by cases hrun

theorem Takes.mono {Q' : α → Bytes → Prop} (hm : m.Takes Q) (h : ∀ a bytes, Q a bytes → Q' a bytes) :
    m.Takes Q' := by
  intro p a r hrun
  obtain ⟨front, hp, hQ⟩ := hm p a r hrun
  exact ⟨front, hp, h a front hQ⟩

/-- A conversion takes nothing. -/
theorem takes_convert (r : Except HolderProtocolError α) :
    (liftM r : Reader α).Takes fun a bytes => r = .ok a ∧ bytes = [] := by
  cases r with
  | ok a => exact .pure ⟨rfl, rfl⟩
  | error e => exact .throw e

theorem takes_reject (c : Prop) [Decidable c] (e : HolderProtocolError) :
    (rejectIf c e : Reader Unit).Takes fun _ bytes => ¬ c ∧ bytes = [] := by
  intro p a r hrun
  obtain ⟨hc, rfl⟩ := rejectIf_eq_ok hrun
  exact ⟨[], rfl, hc, rfl⟩

theorem Silent.pure (a : α) : (Pure.pure a : Reader α).Silent := Takes.pure rfl

theorem Silent.reject (c : Prop) [Decidable c] (e : HolderProtocolError) {k : Unit → Reader α}
    (hk : (k ()).Silent) : (rejectIf c e >>= k).Silent := by
  refine (takes_reject c e).bind fun _ front h => ?_
  obtain ⟨-, rfl⟩ := h
  exact hk

theorem Silent.convert (r : Except HolderProtocolError β) {k : β → Reader α}
    (hk : ∀ b, (k b).Silent) : (liftM r >>= k : Reader α).Silent := by
  refine (takes_convert r).bind fun b front h => ?_
  obtain ⟨-, rfl⟩ := h
  exact hk b

theorem takes_finish : finish.Takes fun _ bytes => bytes = [] := by
  intro p a r hrun
  unfold finish at hrun
  split at hrun
  · rename_i hnil
    cases hrun
    exact ⟨[], hnil, rfl⟩
  · cases hrun

theorem takes_take (len : Nat) : (take len).Takes fun a bytes => a = bytes ∧ bytes.length = len := by
  intro p a r hrun
  unfold take at hrun
  split at hrun
  · cases hrun
  · rename_i hlen
    cases hrun
    exact ⟨p.take len, (List.take_append_drop len p).symm, rfl,
      List.length_take_of_le (Nat.le_of_not_lt hlen)⟩

theorem takes_unsigned (width : Nat) : (unsigned width).Takes fun value bytes =>
    value < 256 ^ width ∧ bytes = toBeBytes width value := by
  refine (takes_take width).bind fun field front h => .pure ?_
  obtain ⟨rfl, rfl⟩ := h
  exact ⟨fromBeBytes_lt field, by rw [List.append_nil, toBeBytes_fromBeBytes]⟩

theorem takes_i32 : i32.Takes fun value bytes => bytes = putI32 value := by
  refine (takes_unsigned 4).bind fun bits front h => .pure ?_
  obtain ⟨hlt, rfl⟩ := h
  rw [List.append_nil, putI32, i32ToBits_i32OfBits hlt]
  rfl

theorem takes_string (max : Nat) :
    (string max).Takes fun value bytes => putStringAllowEmpty value max = .ok bytes := by
  refine (takes_unsigned 2).bind fun len front h => ?_
  obtain ⟨hlt, rfl⟩ := h
  refine (takes_reject _ _).bind fun _ front h => ?_
  obtain ⟨hmax, rfl⟩ := h
  refine (takes_take len).bind fun bytes front h => ?_
  obtain ⟨rfl, hlen⟩ := h
  split
  · exact .throw _
  · rename_i value hvalue
    obtain rfl := fromUtf8_eq_some.mp hvalue
    refine (takes_reject _ _).bind fun _ front h => .pure ?_
    obtain ⟨hzero, rfl⟩ := h
    have hfits : ¬ ((utf8 value).length > max ∨ (utf8 value).length > 65535) := by omega
    simp only [List.nil_append, List.append_nil]
    rw [putStringAllowEmpty, if_neg hfits, if_neg hzero, hlen]
    rfl

theorem putString_of_allowEmpty {value : String} {max : Nat} {bytes : Bytes}
    (hne : utf8 value ≠ []) (h : putStringAllowEmpty value max = .ok bytes) :
    putString value max = .ok bytes := by
  rw [putStringAllowEmpty] at h
  rw [putString]
  split at h
  · cases h
  · rename_i hfits
    rw [if_neg (not_or.mpr ⟨hne, hfits⟩)]
    exact h

/-- A string that is there and not empty, or none. -/
theorem takes_optionalString (max : Nat) : (optionalString max).Takes fun value bytes =>
    (∀ s ∈ value, utf8 s ≠ []) → putOptionalString value max = .ok bytes := by
  refine (takes_unsigned 1).bind fun n front h => ?_
  obtain ⟨-, rfl⟩ := h
  split
  · exact .pure fun _ => rfl
  · refine (takes_string max).bind fun value front h => .pure fun hne => ?_
    rw [List.append_nil]
    exact PersistShell.bind_eq_ok.mpr ⟨front, putString_of_allowEmpty (hne value rfl) h, rfl⟩
  · exact .throw _

theorem takes_repeated {put : α → Except HolderProtocolError Bytes}
    (h : m.Takes fun a bytes => put a = .ok bytes) (count : Nat) :
    (repeated m count).Takes fun as bytes => as.length = count ∧
      ∃ fields, as.mapM put = .ok fields ∧ bytes = fields.flatten := by
  induction count with
  | zero => exact .pure ⟨rfl, [], rfl, rfl⟩
  | succ count ih =>
    refine h.bind fun a front hput => ih.bind fun as back hrest => .pure ?_
    obtain ⟨hlen, fields, hfields, rfl⟩ := hrest
    refine ⟨by rw [List.length_cons, hlen], front :: fields, ?_, by simp⟩
    rw [List.mapM_cons]
    exact PersistShell.bind_eq_ok.mpr ⟨front, hput, PersistShell.bind_eq_ok.mpr
      ⟨fields, hfields, rfl⟩⟩

end takes

/-- A conversion between two fields. -/
theorem decode_convert {r : Except HolderProtocolError α} {a : α} (h : r = .ok a) (bytes : Bytes) :
    decode (liftM r >>= f : Reader β) bytes = decode (f a) bytes := by
  rw [h]
  rfl

theorem decode_eq_ok {payload : Bytes} {a : α} :
    decode m payload = .ok a ↔ ∃ r, m payload = .ok (a, r) := by
  unfold decode
  cases hrun : m payload with
  | error e => exact ⟨fun h => (by cases h), fun ⟨_, h⟩ => (by cases h)⟩
  | ok p => exact ⟨fun h => by cases h; exact ⟨p.2, rfl⟩, fun ⟨_, h⟩ => by cases h; rfl⟩

end Reader

/-- An encoder with a decoder that reads back, for the values in `P`, what was encoded, and
neither a part of it nor more. -/
structure Codec {α : Type} (encode : α → Except HolderProtocolError Bytes)
    (decode : Bytes → Except HolderProtocolError α) (P : α → Prop) : Prop where
  round_trip : ∀ a bytes, P a → encode a = .ok bytes → decode bytes = .ok a
  no_part : ∀ a p q, P a → encode a = .ok (p ++ q) → q ≠ [] → ∀ b, decode p ≠ .ok b
  no_more : ∀ a bytes q, P a → encode a = .ok bytes → q ≠ [] → ∀ b, decode (bytes ++ q) ≠ .ok b

/-- Every payload that is accepted is the encoding of what it is read as. -/
def Canonical {α : Type} (encode : α → Except HolderProtocolError Bytes)
    (decode : Bytes → Except HolderProtocolError α) : Prop :=
  ∀ payload a, decode payload = .ok a → encode a = .ok payload

/-- An encoder that answers a value it does not accept with no bytes at all. -/
def orInvalid {α : Type} (encode : α → Bytes) (a : α) : Except HolderProtocolError Bytes :=
  if encode a = [] then .error .invalidField else .ok (encode a)

section codec

variable {α : Type} {encode : α → Except HolderProtocolError Bytes} {reader : Reader α}
  {P : α → Prop}

theorem Codec.of_sealed (hsealed : reader.Sealed)
    (hround : ∀ a bytes, P a → encode a = .ok bytes → Reader.decode reader bytes = .ok a) :
    Codec encode (Reader.decode reader) P where
  round_trip := hround
  no_part a p q ha hencode hq b hb := by
    obtain ⟨r, hrun⟩ := Reader.decode_eq_ok.mp hb
    obtain ⟨t, hwhole⟩ := Reader.decode_eq_ok.mp (hround a (p ++ q) ha hencode)
    exact (hsealed p b r hrun).2 q hq _ hwhole
  no_more a bytes q ha hencode hq b hb := by
    obtain ⟨r, hrun⟩ := Reader.decode_eq_ok.mp (hround a bytes ha hencode)
    obtain ⟨t, hmore⟩ := Reader.decode_eq_ok.mp hb
    exact (hsealed bytes a r hrun).2 q hq _ hmore

theorem Canonical.of_takes (hsealed : reader.Sealed)
    (htakes : reader.Takes fun a bytes => encode a = .ok bytes) :
    Canonical encode (Reader.decode reader) := by
  intro payload a h
  obtain ⟨r, hrun⟩ := Reader.decode_eq_ok.mp h
  obtain ⟨front, hfront, hencode⟩ := htakes payload a r hrun
  rw [(hsealed payload a r hrun).1, List.append_nil] at hfront
  rw [hfront]
  exact hencode

theorem orInvalid_eq_ok {encode : α → Bytes} {a : α} {bytes : Bytes} :
    orInvalid encode a = .ok bytes ↔ encode a = bytes ∧ bytes ≠ [] := by
  unfold orInvalid
  split
  · rename_i hnil
    exact ⟨fun h => (by cases h), fun ⟨h, hne⟩ => absurd (h.symm.trans hnil) hne⟩
  · rename_i hne
    constructor
    · intro h
      cases h
      exact ⟨rfl, hne⟩
    · rintro ⟨rfl, -⟩
      rfl

end codec

namespace Reader

section fields

theorem reads_string {value : String} {max : Nat} {bytes : Bytes}
    (h : putStringAllowEmpty value max = .ok bytes) : (string max).Reads bytes value := by
  rw [putStringAllowEmpty] at h
  split at h
  · cases h
  · rename_i hfits
    rw [not_or, Nat.not_lt, Nat.not_lt] at hfits
    split at h
    · cases h
    · rename_i hzero
      cases h
      unfold string
      refine (reads_u16 (by omega)).bind ?_
      have hmax : (rejectIf ((utf8 value).length > max) .payloadTooLarge : Reader Unit).Reads [] () :=
        fun rest => by rw [rejectIf, if_neg (Nat.not_lt.mpr hfits.1)]; rfl
      change Reads _ ([] ++ utf8 value) value
      refine hmax.bind ((reads_take (utf8 value)).andThen ?_)
      rw [fromUtf8_utf8]
      have hno : (rejectIf ((utf8 value).contains 0 = true) .invalidField : Reader Unit).Reads [] () :=
        fun rest => by rw [rejectIf, if_neg hzero]; rfl
      change Reads _ ([] ++ []) value
      exact hno.bind (Reads.pure value)

theorem allowEmpty_of_putString {value : String} {max : Nat} {bytes : Bytes}
    (h : putString value max = .ok bytes) : putStringAllowEmpty value max = .ok bytes := by
  rw [putString] at h
  rw [putStringAllowEmpty]
  split at h
  · cases h
  · rename_i hfits
    rw [if_neg (not_or.mp hfits).2]
    exact h

theorem reads_optionalString {value : Option String} {max : Nat} {bytes : Bytes}
    (h : putOptionalString value max = .ok bytes) :
    (optionalString max).Reads bytes value := by
  cases value with
  | none =>
    cases h
    exact (reads_u8 (by decide)).andThen (Reads.pure none)
  | some value =>
    obtain ⟨field, hfield, h⟩ := PersistShell.bind_eq_ok.mp h
    cases h
    refine (reads_u8 (by decide)).bind ?_
    exact (reads_string (allowEmpty_of_putString hfield)).andThen (Reads.pure (some value))

theorem reads_optionalBytesU32 {value : Option Bytes} {max : Nat} {bytes : Bytes}
    (hmax : max < 2 ^ 32) (h : putOptionalBytesU32 value max = .ok bytes) :
    (optionalBytesU32 max).Reads bytes value := by
  cases value with
  | none =>
    cases h
    exact (reads_u8 (by decide)).andThen (Reads.pure none)
  | some value =>
    simp only [putOptionalBytesU32] at h
    split at h
    · rename_i hle
      cases h
      rw [List.append_assoc]
      refine (reads_u8 (by decide)).bind ((reads_u32 (by omega)).bind ?_)
      have hfits : (rejectIf (value.length > max) .payloadTooLarge : Reader Unit).Reads [] () :=
        fun rest => by rw [rejectIf, if_neg (Nat.not_lt.mpr hle)]; rfl
      change Reads _ ([] ++ value) (some value)
      exact hfits.bind ((reads_take value).andThen (Reads.pure (some value)))
    · cases h

end fields

end Reader

end PersistShell

import PersistShell.Core.Validity

/-! How long the JSON text of a state envelope is, and which envelopes can be encoded. -/

namespace PersistShell

/-- The library writes the text of an envelope. -/
class Json.WritesStates [SerdeState] : Prop where
  envelopeToVec (state : ShellStateEnvelope) :
    SerdeState.envelopeToVec state = .ok (utf8 (Json.envelopeText state))

namespace Json

/-- The library on envelopes that are written, and on texts that are not JSON. -/
abbrev serdeEnvelopes : SerdeState where
  envelopeToVec state := .ok (utf8 (envelopeText state))
  envelopeFromSlice _ := .error "expected value at line 1 column 1"

theorem size_hexString (width value : Nat) : size (String.ofList (hexString width value)) = width := by
  rw [size, utf8_eq_flatMap, String.toList_ofList]
  exact (hexString_valid width value).1

theorem size_escape_le (c : Char) : size (escape c) ≤ 6 * c.utf8Size := by
  have hpos := c.utf8Size_pos
  unfold escape
  split
  case h_8 =>
    split
    · have hslash : size "\\u" = 2 := rfl
      rw [size_append, size_hexString, hslash]
      omega
    · rw [size_singleton]
      omega
  all_goals exact Nat.le_trans (by decide : _ ≤ 6) (Nat.le_mul_of_pos_right 6 hpos)

/-- An escape takes at most six bytes. -/
theorem size_quoted_le (s : String) : size (quoted s) ≤ 2 + 6 * size s := by
  rw [size_quoted, size_eq]
  refine Nat.add_le_add_left ?_ 2
  induction s.toList with
  | nil => exact Nat.zero_le _
  | cons c cs ih =>
    have hfirst := size_escape_le c
    rw [List.map_cons, List.sum_cons, List.map_cons, List.sum_cons, String.length_utf8EncodeChar]
    omega

/-- Digits are ASCII. -/
theorem size_toString (n : Nat) : size (toString n) = (Nat.toDigits 10 n).length := by
  rw [size_eq, Nat.toString_eq_ofList_toDigits, String.toList_ofList]
  have hone : ∀ c ∈ Nat.toDigits 10 n, (String.utf8EncodeChar c).length = 1 := by
    intro c hc
    have hdigit := Nat.isDigit_of_mem_toDigits (by decide) (by decide) hc
    have hascii : c.toNat ≤ 57 := (Char.isDigit_iff_toNat.mp hdigit).2
    rw [String.length_utf8EncodeChar, Char.utf8Size_eq_one_iff, UInt32.le_iff_toNat_le]
    exact Nat.le_trans hascii (by decide)
  rw [List.map_congr_left hone, List.map_const', List.sum_replicate_nat, Nat.mul_one]

theorem size_toString_le {n k : Nat} (hk : 0 < k) (h : n < 10 ^ k) : size (toString n) ≤ k := by
  rw [size_toString]
  exact (Nat.length_toDigits_le_iff (by decide) hk).mpr h

end Json

section incarnation

theorem utf8_encodeIncarnation (incarnation : Bytes) :
    utf8 (encodeIncarnation incarnation) =
      incarnation.flatMap fun b => (hexString 2 b.toNat).flatMap String.utf8EncodeChar := by
  rw [utf8_eq_flatMap, encodeIncarnation, String.toList_ofList, List.flatMap_assoc]

theorem length_encodeIncarnation (incarnation : Bytes) :
    (utf8 (encodeIncarnation incarnation)).length = 2 * incarnation.length := by
  rw [utf8_encodeIncarnation]
  induction incarnation with
  | nil => rfl
  | cons b rest ih =>
    rw [List.flatMap_cons, List.length_append, (hexString_valid 2 b.toNat).1, ih, List.length_cons]
    omega

theorem hex_encodeIncarnation (incarnation : Bytes) :
    (utf8 (encodeIncarnation incarnation)).all
      (fun b => isAsciiDigit b || (97 ≤ b && b ≤ 102)) = true := by
  rw [utf8_encodeIncarnation, List.all_flatMap, List.all_eq_true]
  exact fun b _ => (hexString_valid 2 b.toNat).2

theorem zero_of_hexString {b : UInt8}
    (h : ((hexString 2 b.toNat).flatMap String.utf8EncodeChar).all (· == 48) = true) : b = 0 := by
  have hall : ∀ i : Fin 256, ((hexString 2 i.val).flatMap String.utf8EncodeChar).all (· == 48) =
      true → i = 0 := by
    decide +kernel
  have hzero := hall ⟨b.toNat, b.toNat_lt⟩ h
  exact UInt8.toNat_inj.mp (congrArg Fin.val hzero)

/-- Only the digits of the zero incarnation are all zero. -/
theorem zero_of_encodeIncarnation {incarnation : Bytes}
    (h : (utf8 (encodeIncarnation incarnation)).all (· == 48) = true) :
    incarnation = List.replicate incarnation.length 0 := by
  rw [utf8_encodeIncarnation, List.all_flatMap, List.all_eq_true] at h
  exact List.eq_replicate_iff.mpr ⟨rfl, fun b hb => zero_of_hexString (h b hb)⟩

end incarnation

/-- Identities that a helper can be started with. -/
structure ShellStateIdentity.Valid (identity : ShellStateIdentity) : Prop where
  sessionId_pos : identity.sessionId ≠ 0
  sessionId_lt : identity.sessionId < 2 ^ 32
  incarnation_length : identity.incarnation.length = 16
  incarnation_ne : identity.incarnation ≠ List.replicate 16 0

/-- An absolute path that is no longer than a directory may be. -/
structure ValidCwd (cwd : String) : Prop where
  length_le : (utf8 cwd).length ≤ maxShellCwdBytes
  no_zero : (0 : UInt8) ∉ utf8 cwd
  absolute : isAbsolutePath (utf8 cwd) = true

section envelope

variable {identity : ShellStateIdentity} {sequence : Nat} {cwd : String}

/-- The envelope of a commit, with its environment or without. -/
def envelopeOf (identity : ShellStateIdentity) (sequence : Nat) (cwd : String)
    (environment : Option EnvironmentSnapshot) : ShellStateEnvelope where
  version := if environment.isSome then shellStateVersion else shellStateLegacyVersion
  sessionId := identity.sessionId
  incarnation := encodeIncarnation identity.incarnation
  sequence := sequence
  cwd := cwd
  environment := environment

/-- How long the text of the envelope is: what always stands there, and what varies. -/
def envelopeSize (identity : ShellStateIdentity) (sequence : Nat) (cwd : String)
    (environment : Option EnvironmentSnapshot) : Nat :=
  95 + Json.size (toString identity.sessionId) + Json.size (toString sequence) +
    Json.size (Json.quoted cwd) +
    environment.elim 0 fun snapshot => 15 + Json.size (Json.snapshotText snapshot)

theorem size_envelopeText (hidentity : identity.Valid) (environment : Option EnvironmentSnapshot) :
    Json.size (Json.envelopeText (envelopeOf identity sequence cwd environment)) =
      envelopeSize identity sequence cwd environment := by
  have hincarnation : Json.size (Json.quoted (encodeIncarnation identity.incarnation)) = 34 := by
    have hall := hex_encodeIncarnation identity.incarnation
    rw [Json.size_quoted_plain, Json.size, length_encodeIncarnation, hidentity.incarnation_length]
    intro b hb
    exact Json.plain_of_hex (List.all_eq_true.mp hall b hb)
  have hversion : Json.size (toString (envelopeOf identity sequence cwd environment).version) = 1 := by
    have hone : Json.size (toString 1) = 1 := by decide
    have htwo : Json.size (toString 2) = 1 := by decide
    cases environment with
    | none => exact hone
    | some _ => exact htwo
  have h₁ : Json.size "\x7b\"version\":" = 11 := rfl
  have h₂ : Json.size ",\"session_id\":" = 14 := rfl
  have h₃ : Json.size ",\"incarnation\":" = 15 := rfl
  have h₄ : Json.size ",\"sequence\":" = 12 := rfl
  have h₅ : Json.size ",\"cwd\":" = 7 := rfl
  have h₆ : Json.size ",\"environment\":" = 15 := rfl
  have h₇ : Json.size "\x7d" = 1 := rfl
  have henvironment : Json.size (environment.elim "" (",\"environment\":" ++ Json.snapshotText ·)) =
      environment.elim 0 fun snapshot => 15 + Json.size (Json.snapshotText snapshot) := by
    cases environment with
    | none => rfl
    | some snapshot => rw [Option.elim_some, Option.elim_some, Json.size_append, h₆]
  unfold Json.envelopeText envelopeSize
  simp only [Json.size_append, hversion, h₁, h₂, h₃, h₄, h₅, h₇]
  unfold envelopeOf
  dsimp only
  rw [hincarnation, henvironment]
  omega

variable [SerdeJson]

/-- With a valid identity and directory, the fields are as valid as the environment. -/
theorem validateStateFields_envelopeOf (hidentity : identity.Valid) (hsequence : sequence ≠ 0)
    (hcwd : ValidCwd cwd) (environment : Option EnvironmentSnapshot) :
    validateStateFields (envelopeOf identity sequence cwd environment) = .ok () ↔
      ∀ snapshot, environment = some snapshot → snapshot.validateHardLimits = .ok () := by
  have hfields : ¬ (¬ (((envelopeOf identity sequence cwd environment).version =
        shellStateLegacyVersion ∧ environment = none) ∨
        ((envelopeOf identity sequence cwd environment).version = shellStateVersion ∧
          environment.isSome)) ∨
      identity.sessionId = 0 ∨ (utf8 (encodeIncarnation identity.incarnation)).length ≠ 32 ∨
      sequence = 0 ∨
      ¬ (utf8 (encodeIncarnation identity.incarnation)).all
        (fun b => isAsciiDigit b || (97 ≤ b && b ≤ 102)) ∨
      (utf8 (encodeIncarnation identity.incarnation)).all (· == 48)) := by
    rw [length_encodeIncarnation, hidentity.incarnation_length, hex_encodeIncarnation]
    rintro (hversion | hsession | hlength | hzero | hhex | hzeros)
    · cases environment with
      | none => exact hversion (.inl ⟨rfl, rfl⟩)
      | some _ => exact hversion (.inr ⟨rfl, rfl⟩)
    · exact hidentity.sessionId_pos hsession
    · exact hlength rfl
    · exact hsequence hzero
    · exact hhex rfl
    · exact hidentity.incarnation_ne
        (hidentity.incarnation_length ▸ zero_of_encodeIncarnation hzeros)
  have hdirectory : ¬ ((utf8 cwd).length > maxShellCwdBytes ∨ (utf8 cwd).contains 0 ∨
      ¬ isAbsolutePath (utf8 cwd)) := by
    rintro (hlong | hzero | hrelative)
    · exact Nat.not_lt.mpr hcwd.length_le hlong
    · exact hcwd.no_zero (List.contains_iff_mem.mp hzero)
    · exact hrelative hcwd.absolute
  constructor
  · intro h snapshot hsnapshot
    obtain ⟨_, -, h⟩ := bind_eq_ok.mp h
    obtain ⟨_, -, h⟩ := bind_eq_ok.mp h
    subst hsnapshot
    exact h
  · intro h
    refine bind_eq_ok.mpr ⟨(), rejectIf_eq_ok.mpr hfields,
      bind_eq_ok.mpr ⟨(), rejectIf_eq_ok.mpr hdirectory, ?_⟩⟩
    cases environment with
    | none => rfl
    | some snapshot => exact h snapshot rfl

variable [SerdeState] [Json.WritesStates]

/-- A valid envelope is encoded when its text is within the limit. -/
theorem encodeEnvelope_eq_ok {state : ShellStateEnvelope}
    (hstate : validateStateFields state = .ok ()) :
    (∃ encoded, encodeEnvelope state = .ok encoded) ↔
      Json.size (Json.envelopeText state) ≤ maxShellStateBytes := by
  unfold encodeEnvelope
  rw [hstate, Json.WritesStates.envelopeToVec]
  constructor
  · rintro ⟨encoded, h⟩
    obtain ⟨_, -, h⟩ := bind_eq_ok.mp h
    obtain ⟨_, hsize, -⟩ := bind_eq_ok.mp h
    exact Nat.le_of_not_lt (rejectIf_eq_ok.mp hsize)
  · intro hsize
    exact ⟨_, bind_eq_ok.mpr ⟨(), rfl, bind_eq_ok.mpr
      ⟨(), rejectIf_eq_ok.mpr (Nat.not_lt.mpr hsize), rfl⟩⟩⟩

end envelope

end PersistShell

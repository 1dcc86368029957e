import Mathlib.Algebra.GroupWithZero.Nat
import PersistShell.Core.Json

/-! How long the JSON text of a snapshot is. -/

namespace PersistShell.Json

def size (text : String) : Nat := (utf8 text).length

theorem size_eq (text : String) :
    size text = (text.toList.map fun c => (String.utf8EncodeChar c).length).sum := by
  rw [size, utf8_eq_flatMap, List.length_flatMap]

theorem size_append (a b : String) : size (a ++ b) = size a + size b := by
  rw [size_eq, size_eq, size_eq, String.toList_append, List.map_append, List.sum_append]

theorem size_join (texts : List String) : size (String.join texts) = (texts.map size).sum := by
  rw [size_eq, String.toList_join]
  induction texts with
  | nil => rfl
  | cons first texts ih =>
    rw [List.flatMap_cons, List.map_append, List.sum_append, ih, List.map_cons, List.sum_cons,
      size_eq]

/-- Entries with a comma between them. -/
def listSize (sizes : List Nat) : Nat := sizes.sum + (sizes.length - 1)

theorem size_intercalate (texts : List String) :
    size (",".intercalate texts) = listSize (texts.map size) := by
  induction texts with
  | nil => rfl
  | cons first texts ih =>
    cases texts with
    | nil =>
      rw [String.intercalate_singleton]
      simp [listSize]
    | cons second texts =>
      have hcomma : size "," = 1 := rfl
      rw [String.intercalate_cons_cons, size_append, size_append, ih, hcomma]
      simp only [listSize, List.map_cons, List.sum_cons, List.length_cons]
      omega

/-- A part of the entries takes no more. -/
theorem listSize_filter_le {α : Type} (f : α → Nat) (p : α → Bool) (as : List α) :
    listSize ((as.filter p).map f) ≤ listSize (as.map f) := by
  have hsum : ((as.filter p).map f).sum ≤ (as.map f).sum := by
    induction as with
    | nil => exact Nat.le_refl _
    | cons a as ih =>
      rw [List.filter_cons]
      split
      · exact Nat.add_le_add_left ih _
      · exact Nat.le_trans ih (Nat.le_add_left _ _)
  have hle := List.length_filter_le p as
  rw [listSize, listSize, List.length_map, List.length_map]
  omega

section escape

theorem size_singleton (c : Char) : size (String.singleton c) = c.utf8Size := by
  rw [size_eq, String.toList_singleton, List.map_singleton, List.sum_singleton,
    String.length_utf8EncodeChar]

theorem size_escape_plain {c : Char} (hlow : 32 ≤ c.toNat) (hhigh : c.toNat < 127)
    (hquote : c.toNat ≠ 34) (hslash : c.toNat ≠ 92) : size (escape c) = 1 := by
  unfold escape
  split
  case h_8 =>
    rw [if_neg (by omega), size_singleton, Char.utf8Size]
    have hval : c.val.toNat < 127 := hhigh
    rw [if_pos]
    rw [UInt32.le_iff_toNat_le]
    exact Nat.le_of_lt hval
  all_goals omega

theorem size_quoted (s : String) :
    size (quoted s) = 2 + (s.toList.map fun c => size (escape c)).sum := by
  have hquote : size "\"" = 1 := rfl
  rw [quoted, size_append, size_append, size_join, List.map_map, hquote, Nat.add_assoc,
    Nat.add_comm _ 1, ← Nat.add_assoc]
  rfl

/-- A character with bytes of ASCII only is one of them. -/
theorem ascii_char {c : Char} (h : ∀ b ∈ String.utf8EncodeChar c, b.toNat < 128) :
    ∃ b, String.utf8EncodeChar c = [b] ∧ b.toNat = c.toNat := by
  have hbyte : ∀ n, (UInt8.ofNat n).toNat = n % 256 := fun n => UInt8.toNat_ofNat'
  unfold String.utf8EncodeChar at h ⊢
  change ∃ b : UInt8, _ ∧ b.toNat = c.val.toNat
  dsimp only at h ⊢
  split at h
  · refine ⟨_, by rw [if_pos ‹_›], ?_⟩
    rw [hbyte]
    omega
  · split at h
    · have := h _ List.mem_cons_self
      rw [hbyte] at this
      omega
    · split at h
      · have := h _ List.mem_cons_self
        rw [hbyte] at this
        omega
      · have := h _ List.mem_cons_self
        rw [hbyte] at this
        omega

/-- A byte that is written as it is. -/
def PlainByte (b : UInt8) : Prop :=
  32 ≤ b.toNat ∧ b.toNat < 127 ∧ b.toNat ≠ 34 ∧ b.toNat ≠ 92

/-- Text that needs no escapes. -/
theorem size_quoted_plain {s : String} (h : ∀ b ∈ utf8 s, PlainByte b) :
    size (quoted s) = 2 + size s := by
  have hchar : ∀ c ∈ s.toList, size (escape c) = (String.utf8EncodeChar c).length := by
    intro c hc
    have hbytes : ∀ b ∈ String.utf8EncodeChar c, PlainByte b := fun b hb =>
      h b (by rw [utf8_eq_flatMap]; exact List.mem_flatMap.mpr ⟨c, hc, hb⟩)
    obtain ⟨b, hb, hsame⟩ := ascii_char fun b hb =>
      Nat.lt_of_lt_of_le (hbytes b hb).2.1 (by decide : 127 ≤ 128)
    obtain ⟨hlow, hhigh, hquote, hslash⟩ := hbytes b (hb ▸ List.mem_singleton_self b)
    rw [hsame] at hlow hhigh hquote hslash
    rw [size_escape_plain hlow hhigh hquote hslash, hb]
    rfl
  rw [size_quoted, size_eq, List.map_congr_left hchar]

end escape

section snapshot

theorem plain_of_hex {b : UInt8} (h : (isAsciiDigit b || (97 ≤ b && b ≤ 102)) = true) :
    PlainByte b := by
  simp only [isAsciiDigit, Bool.or_eq_true, Bool.and_eq_true, decide_eq_true_eq,
    UInt8.le_iff_toNat_le] at h
  change ((48 ≤ b.toNat ∧ b.toNat ≤ 57) ∨ (97 ≤ b.toNat ∧ b.toNat ≤ 102)) at h
  unfold PlainByte
  omega

theorem size_fingerprint {fingerprint : String} (h : validFingerprint fingerprint = true) :
    size (quoted fingerprint) = 18 := by
  simp only [validFingerprint, Bool.and_eq_true, decide_eq_true_eq, List.all_eq_true,
    Bool.or_eq_true] at h
  rw [size_quoted_plain, size, h.1]
  exact fun b hb => plain_of_hex (by
    simpa only [Bool.or_eq_true, Bool.and_eq_true, decide_eq_true_eq] using h.2 b hb)

def entrySize (entry : String × String) : Nat := size (quoted entry.1) + 1 + size (quoted entry.2)

def nameSize (name : String) : Nat := size (quoted name)

def statusSize (status : EnvironmentCaptureStatus) : Nat := size (quoted (statusText status))

/-- The text of a snapshot is as long as its parts, and what stands between them. -/
theorem size_snapshotText {s : EnvironmentSnapshot}
    (hformat : s.formatVersion = shellEnvironmentFormatVersion)
    (hpolicy : s.policyVersion = shellEnvironmentPolicyVersion)
    (hfingerprint : validFingerprint s.policyFingerprint = true) :
    size (snapshotText s) = 125 + listSize (s.envSet.map entrySize) +
      listSize (s.envUnset.map nameSize) + statusSize s.captureStatus := by
  have hset : (fun entry : String × String =>
      size (quoted entry.1) + size ":" + size (quoted entry.2)) = entrySize := rfl
  have hunset : (fun name => size (quoted name)) = nameSize := rfl
  have hone : size (toString 1) = 1 := by decide
  have h₁ : size "\x7b\"format_version\":" = 18 := rfl
  have h₂ : size ",\"policy_version\":" = 18 := rfl
  have h₃ : size ",\"policy_fingerprint\":" = 22 := rfl
  have h₄ : size ",\"env_set\":\x7b" = 12 := rfl
  have h₅ : size "\x7d,\"env_unset\":[" = 15 := rfl
  have h₆ : size "],\"capture_status\":" = 19 := rfl
  have h₇ : size "\x7d" = 1 := rfl
  unfold snapshotText
  simp only [size_append, size_intercalate, List.map_map, Function.comp_def, hset, hunset, hformat,
    hpolicy, shellEnvironmentFormatVersion, shellEnvironmentPolicyVersion, hone,
    size_fingerprint hfingerprint, h₁, h₂, h₃, h₄, h₅, h₆, h₇, statusSize]
  omega

end snapshot

end PersistShell.Json

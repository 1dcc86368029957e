import PersistShell.Core.RingBuffer
import PersistShell.Program.Outcome

/-! Errors of the program and of the system calls under it, and byte-level predicates on
strings as the source uses them. -/

namespace PersistShell

/-- What a failed system call reports. -/
inductive Errno where
  | wouldBlock
  | io
  | pipe
  | connectionReset
  | unexpectedEof
  | other (code : Nat)
  deriving DecidableEq, Repr

inductive PersistError where
  | invalidArgument (message : String)
  | internalError (message : String)
  | io (operation : String) (source : Errno)
  | metadata (operation message : String)
  | configValidation (message : String)
  deriving DecidableEq, Repr

/-- The text of an error; what the system says of a failed call is left out. -/
def PersistError.text : PersistError → String
  | .invalidArgument message => "invalid argument: " ++ message
  | .internalError message => "internal error: " ++ message
  | .io operation _ => operation ++ " failed"
  | .metadata operation message => operation ++ " failed: " ++ message
  | .configValidation message => "config validation error: " ++ message

@[simp] theorem rejectIf_eq_ok {ε : Type} {c : Prop} [Decidable c] {error : ε} {u : Unit} :
    (rejectIf c error : Except ε Unit) = .ok u ↔ ¬ c := by
  unfold rejectIf
  split
  · exact ⟨fun h => (nomatch h), fun h => absurd ‹c› h⟩
  · exact ⟨fun _ => ‹¬ c›, fun _ => rfl⟩

theorem bind_eq_ok {ε α β : Type} {x : Except ε α} {f : α → Except ε β} {b : β} :
    (x >>= f) = .ok b ↔ ∃ a, x = .ok a ∧ f a = .ok b := by
  cases x with
  | ok a =>
    refine ⟨fun h => ⟨a, rfl, h⟩, ?_⟩
    rintro ⟨a', ha, h⟩
    cases ha
    exact h
  | error e => exact ⟨fun h => (nomatch h), fun ⟨_, h, _⟩ => (nomatch h)⟩

/-- A loop of checks passes when each of them does. -/
theorem forM_eq_ok {ε α : Type} {xs : List α} {f : α → Except ε Unit} :
    xs.forM f = .ok () ↔ ∀ x ∈ xs, f x = .ok () := by
  induction xs with
  | nil => exact ⟨fun _ _ hx => (by cases hx), fun _ => rfl⟩
  | cons x xs ih =>
    change (f x >>= fun _ => xs.forM f) = .ok () ↔ _
    rw [bind_eq_ok, List.forall_mem_cons]
    constructor
    · rintro ⟨_, hx, hxs⟩
      exact ⟨hx, ih.mp hxs⟩
    · rintro ⟨hx, hxs⟩
      exact ⟨(), hx, ih.mpr hxs⟩

/-- The UTF-8 bytes of a string. -/
def utf8 (s : String) : Bytes := s.toUTF8.data.toList

theorem utf8_eq_flatMap (s : String) : utf8 s = s.toList.flatMap String.utf8EncodeChar := by
  have h : s.toByteArray = (s.toList.flatMap String.utf8EncodeChar).toByteArray :=
    String.utf8Encode_toList.symm
  rw [utf8, String.toUTF8_eq_toByteArray, h]
  simp

/-- `str::from_utf8`. -/
def fromUtf8 (bytes : Bytes) : Option String := String.fromUTF8? ⟨bytes.toArray⟩

@[simp] theorem fromUtf8_utf8 (s : String) : fromUtf8 (utf8 s) = some s := by
  have hvalid : (⟨(utf8 s).toArray⟩ : ByteArray).IsValidUTF8 := s.isValidUTF8
  rw [fromUtf8, String.fromUTF8?, dif_pos hvalid]
  rfl

theorem utf8_of_fromUtf8 {bytes : Bytes} {s : String} (h : fromUtf8 bytes = some s) :
    utf8 s = bytes := by
  rw [fromUtf8, String.fromUTF8?] at h
  split at h
  · cases h
    rfl
  · cases h

theorem utf8_inj {s t : String} : utf8 s = utf8 t ↔ s = t := by
  refine ⟨fun h => Option.some.inj ?_, fun h => by rw [h]⟩
  rw [← fromUtf8_utf8 s, h, fromUtf8_utf8]

theorem fromUtf8_eq_some {bytes : Bytes} {s : String} :
    fromUtf8 bytes = some s ↔ bytes = utf8 s :=
  ⟨fun h => (utf8_of_fromUtf8 h).symm, fun h => by rw [h, fromUtf8_utf8]⟩

def isAsciiDigit (b : UInt8) : Bool := 48 ≤ b && b ≤ 57

def isAsciiLower (b : UInt8) : Bool := 97 ≤ b && b ≤ 122

def isAsciiUpper (b : UInt8) : Bool := 65 ≤ b && b ≤ 90

def isAsciiAlphabetic (b : UInt8) : Bool := isAsciiLower b || isAsciiUpper b

def isAsciiAlphanumeric (b : UInt8) : Bool := isAsciiAlphabetic b || isAsciiDigit b

def toAsciiUppercase (b : UInt8) : UInt8 := if isAsciiLower b then b - 32 else b

/-- `str::starts_with` on the encoded bytes. -/
def startsWith (s start : Bytes) : Bool := start.isPrefixOf s

/-- `str::contains` on the encoded bytes. -/
def containsBytes (s part : Bytes) : Bool := s.tails.any fun tail => part.isPrefixOf tail

/-- `Path::is_absolute` on Unix. -/
def isAbsolutePath (s : Bytes) : Bool := startsWith s [47]

/-- `to_be_bytes` of a value of the given width in bytes. -/
def toBeBytes : Nat → Nat → Bytes
  | 0, _ => []
  | width + 1, value => toBeBytes width (value / 256) ++ [UInt8.ofNat (value % 256)]

def hexDigit (n : Nat) : Char := "0123456789abcdef".toList.getD n '0'

/-- `format!("{value:0width$x}")` for a value that fits. -/
def hexString : Nat → Nat → List Char
  | 0, _ => []
  | width + 1, value => hexString width (value / 16) ++ [hexDigit (value % 16)]

def encodeIncarnation (incarnation : Bytes) : String :=
  String.ofList (incarnation.flatMap fun b => hexString 2 b.toNat)

end PersistShell

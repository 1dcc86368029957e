import Mathlib.Tactic.Ring
import PersistShell.Core.Environment

/-! The primitive fields of the holder protocol: a reader that consumes a payload from the
front, and the functions that append to one. -/

namespace PersistShell

inductive HolderProtocolError where
  | truncated
  | trailing
  | invalidMagic
  | versionMismatch
  | unknownMessageType
  | payloadTooLarge
  | invalidField
  deriving DecidableEq, Repr

/-- The name that the source formats with `{:?}`. -/
def HolderProtocolError.debug : HolderProtocolError → String
  | truncated => "Truncated"
  | trailing => "Trailing"
  | invalidMagic => "InvalidMagic"
  | versionMismatch => "VersionMismatch"
  | unknownMessageType => "UnknownMessageType"
  | payloadTooLarge => "PayloadTooLarge"
  | invalidField => "InvalidField"

/-- `from_be_bytes`. -/
def fromBeBytes (bytes : Bytes) : Nat := bytes.foldl (fun value b => value * 256 + b.toNat) 0

/-- The two's complement of an `i32`. -/
def i32ToBits (value : Int) : Nat := (value % 2 ^ 32).toNat

def i32OfBits (bits : Nat) : Int := if bits < 2 ^ 31 then bits else (bits : Int) - 2 ^ 32

section bigEndian

theorem length_toBeBytes (width value : Nat) : (toBeBytes width value).length = width := by
  induction width generalizing value with
  | zero => rfl
  | succ width ih => rw [toBeBytes, List.length_append, ih, List.length_singleton]

theorem fromBeBytes_append_singleton (bytes : Bytes) (b : UInt8) :
    fromBeBytes (bytes ++ [b]) = fromBeBytes bytes * 256 + b.toNat := by
  rw [fromBeBytes, List.foldl_append]
  rfl

theorem fromBeBytes_toBeBytes (width value : Nat) :
    fromBeBytes (toBeBytes width value) = value % 256 ^ width := by
  induction width generalizing value with
  | zero => rw [pow_zero, Nat.mod_one]; rfl
  | succ width ih =>
    have hbyte : (UInt8.ofNat (value % 256)).toNat = value % 256 := by
      rw [UInt8.toNat_ofNat']
      omega
    rw [toBeBytes, fromBeBytes_append_singleton, ih, hbyte, pow_succ', Nat.mod_mul]
    ring

theorem fromBeBytes_lt (bytes : Bytes) : fromBeBytes bytes < 256 ^ bytes.length := by
  induction bytes using List.reverseRecOn with
  | nil => exact Nat.one_pos
  | append_singleton bytes b ih =>
    have hbyte : b.toNat < 256 := b.toNat_lt
    rw [fromBeBytes_append_singleton, List.length_append, List.length_singleton, pow_succ]
    omega

theorem i32OfBits_i32ToBits {value : Int} (hlow : -2 ^ 31 ≤ value) (hhigh : value < 2 ^ 31) :
    i32OfBits (i32ToBits value) = value := by
  unfold i32OfBits i32ToBits
  split <;> omega

end bigEndian

/-- A reader consumes the front of a payload. -/
abbrev Reader := StateT Bytes (Except HolderProtocolError)

namespace Reader

def take (len : Nat) : Reader Bytes := fun bytes =>
  if bytes.length < len then .error .truncated else .ok (bytes.take len, bytes.drop len)

def unsigned (width : Nat) : Reader Nat := do
  return fromBeBytes (← take width)

def u8 : Reader Nat := unsigned 1
def u16 : Reader Nat := unsigned 2
def u32 : Reader Nat := unsigned 4
def u64 : Reader Nat := unsigned 8

def i32 : Reader Int := do
  return i32OfBits (← u32)

def fixed (len : Nat) : Reader Bytes := take len

def string (max : Nat) : Reader String := do
  let len ← u16
  rejectIf (len > max) .payloadTooLarge
  let bytes ← take len
  match fromUtf8 bytes with
  | none => throw .invalidField
  | some value =>
    rejectIf (bytes.contains 0) .invalidField
    return value

def optionalString (max : Nat) : Reader (Option String) := do
  match ← u8 with
  | 0 => return none
  | 1 => return some (← string max)
  | _ => throw .invalidField

def optionalBytesU32 (max : Nat) : Reader (Option Bytes) := do
  match ← u8 with
  | 0 => return none
  | 1 =>
    let len ← u32
    rejectIf (len > max) .payloadTooLarge
    return some (← take len)
  | _ => throw .invalidField

def bool : Reader Bool := do
  match ← u8 with
  | 0 => return false
  | 1 => return true
  | _ => throw .invalidField

def finish : Reader Unit := fun bytes =>
  if bytes = [] then .ok ((), []) else .error .trailing

/-- A field that is read `count` times. -/
def repeated {α : Type} (reader : Reader α) : Nat → Reader (List α)
  | 0 => return []
  | count + 1 => do
    let value ← reader
    return value :: (← repeated reader count)

/-- What a reader makes of a whole payload. -/
def decode {α : Type} (reader : Reader α) (payload : Bytes) : Except HolderProtocolError α :=
  (reader payload).map Prod.fst

/-- Whatever the reader accepts is in `Q`. -/
def Yields {α : Type} (reader : Reader α) (Q : α → Prop) : Prop :=
  ∀ bytes a rest, reader bytes = .ok (a, rest) → Q a

section yields
variable {α β : Type} {Q : β → Prop}

theorem Yields.bind {m : Reader α} {f : α → Reader β} (h : ∀ a, (f a).Yields Q) :
    (m >>= f).Yields Q := by
  intro bytes b rest hrun
  change (m bytes).bind (fun p => f p.1 p.2) = .ok (b, rest) at hrun
  cases hm : m bytes with
  | error e => rw [hm] at hrun; cases hrun
  | ok p => rw [hm] at hrun; exact h p.1 p.2 b rest hrun

/-- What is known of the first part helps with the rest. -/
theorem Yields.known {m : Reader α} {f : α → Reader β} {P : α → Prop} (hm : m.Yields P)
    (h : ∀ a, P a → (f a).Yields Q) : (m >>= f).Yields Q := by
  intro bytes b rest hrun
  change (m bytes).bind (fun p => f p.1 p.2) = .ok (b, rest) at hrun
  cases hfirst : m bytes with
  | error e => rw [hfirst] at hrun; cases hrun
  | ok p => rw [hfirst] at hrun; exact h p.1 (hm bytes p.1 p.2 hfirst) p.2 b rest hrun

theorem Yields.pure {b : β} (h : Q b) : (Pure.pure b : Reader β).Yields Q := by
  intro bytes b' rest hrun
  cases hrun
  exact h

theorem yields_unsigned (width : Nat) : (unsigned width).Yields (· < 256 ^ width) := by
  refine .known (P := fun bytes => bytes.length = width) ?_ fun bytes hlength => .pure ?_
  · intro bytes taken rest hrun
    unfold take at hrun
    split at hrun
    · cases hrun
    · cases hrun
      rw [List.length_take]
      omega
  · rw [← hlength]
    exact fromBeBytes_lt bytes

theorem Yields.ite {c : Prop} [Decidable c] {m m' : Reader β} (h : m.Yields Q)
    (h' : m'.Yields Q) : (if c then m else m').Yields Q := by
  split
  · exact h
  · exact h'

theorem Yields.throw (e : HolderProtocolError) : (throw e : Reader β).Yields Q :=
  fun _ _ _ h => nomatch h

/-- A value that is checked before it is returned. -/
theorem Yields.checked {check : β → Except HolderProtocolError Unit} (b : β) :
    (do let () ← (check b : Reader Unit); return b : Reader β).Yields
      fun b => check b = .ok () := by
  intro bytes b' rest hrun
  cases hcheck : check b with
  | error e => rw [hcheck] at hrun; cases hrun
  | ok u =>
    rw [hcheck] at hrun
    cases hrun
    exact hcheck

theorem Yields.decode {reader : Reader β} (h : reader.Yields Q) {payload : Bytes} {b : β}
    (hdecode : Reader.decode reader payload = .ok b) : Q b := by
  rw [Reader.decode] at hdecode
  cases hrun : reader payload with
  | error e => rw [hrun] at hdecode; cases hdecode
  | ok p =>
    rw [hrun] at hdecode
    cases hdecode
    exact h payload p.1 p.2 hrun

end yields

/-- The reader takes `bytes` off the front of a payload and makes `a` of them. -/
def Reads {α : Type} (reader : Reader α) (bytes : Bytes) (a : α) : Prop :=
  ∀ rest, reader (bytes ++ rest) = .ok (a, rest)

section reads
variable {α β : Type} {m : Reader α} {f : α → Reader β} {front back : Bytes} {a : α} {b : β}

theorem Reads.pure (a : α) : (Pure.pure a : Reader α).Reads [] a := fun _ => rfl

theorem Reads.bind (h : m.Reads front a) (h' : (f a).Reads back b) :
    (m >>= f).Reads (front ++ back) b := by
  intro rest
  rw [List.append_assoc]
  change (m (front ++ (back ++ rest))).bind (fun p => f p.1 p.2) = .ok (b, rest)
  rw [h]
  exact h' rest

/-- A reader that checks what it read, or converts it, and takes nothing more. -/
theorem Reads.andThen (h : m.Reads front a) (h' : (f a).Reads [] b) :
    (m >>= f).Reads front b := by
  rw [← List.append_nil front]
  exact h.bind h'

/-- A conversion between two fields. -/
theorem Reads.convert {r : Except HolderProtocolError α} (h : r = .ok a)
    (h' : (f a).Reads back b) : (liftM r >>= f : Reader β).Reads back b := by
  intro rest
  rw [h]
  exact h' rest

theorem Reads.decode_bind (h : m.Reads front a) :
    decode (m >>= f) (front ++ back) = decode (f a) back := by
  change ((m (front ++ back)).bind fun p => f p.1 p.2).map Prod.fst = _
  rw [h]
  rfl

theorem Reads.decode_last (h : m.Reads front a) :
    decode (m >>= f) front = decode (f a) [] := by
  rw [← List.append_nil front]
  exact h.decode_bind

theorem decode_reject {c : Prop} [Decidable c] {e : HolderProtocolError} {k : Unit → Reader β}
    (h : ¬ c) : decode (rejectIf c e >>= k) back = decode (k ()) back := by
  rw [rejectIf, if_neg h]
  rfl

theorem decode_finish {k : Unit → Reader β} : decode (finish >>= k) [] = decode (k ()) [] := rfl

theorem reads_take (bytes : Bytes) : (take bytes.length).Reads bytes bytes := by
  intro rest
  unfold take
  rw [if_neg (by rw [List.length_append]; omega), List.take_left, List.drop_left]

theorem reads_unsigned {width value : Nat} (h : value < 256 ^ width) :
    (unsigned width).Reads (toBeBytes width value) value := by
  have htake : (take width).Reads (toBeBytes width value) (toBeBytes width value) := by
    have := reads_take (toBeBytes width value)
    rw [length_toBeBytes] at this
    exact this
  have hvalue : fromBeBytes (toBeBytes width value) = value := by
    rw [fromBeBytes_toBeBytes, Nat.mod_eq_of_lt h]
  refine htake.andThen ?_
  rw [hvalue]
  exact Reads.pure value

end reads

end Reader

def putU8 (value : Nat) : Bytes := toBeBytes 1 value
def putU16 (value : Nat) : Bytes := toBeBytes 2 value
def putU32 (value : Nat) : Bytes := toBeBytes 4 value
def putU64 (value : Nat) : Bytes := toBeBytes 8 value
def putI32 (value : Int) : Bytes := putU32 (i32ToBits value)
def putBool (value : Bool) : Bytes := putU8 (if value then 1 else 0)

def putOptionalBytesU32 (value : Option Bytes) (max : Nat) :
    Except HolderProtocolError Bytes :=
  match value with
  | some value =>
    if value.length ≤ max then .ok (putU8 1 ++ putU32 value.length ++ value)
    else .error .payloadTooLarge
  | none => .ok (putU8 0)

def putString (value : String) (max : Nat) : Except HolderProtocolError Bytes :=
  let bytes := utf8 value
  if bytes = [] ∨ bytes.length > max ∨ bytes.length > 65535 then
    .error (if bytes.length > max then .payloadTooLarge else .invalidField)
  else if bytes.contains 0 then .error .invalidField
  else .ok (putU16 bytes.length ++ bytes)

def putStringAllowEmpty (value : String) (max : Nat) : Except HolderProtocolError Bytes :=
  let bytes := utf8 value
  if bytes.length > max ∨ bytes.length > 65535 then .error .payloadTooLarge
  else if bytes.contains 0 then .error .invalidField
  else .ok (putU16 bytes.length ++ bytes)

def putOptionalString (value : Option String) (max : Nat) :
    Except HolderProtocolError Bytes :=
  match value with
  | none => .ok (putU8 0)
  | some value => return putU8 1 ++ (← putString value max)

namespace Reader

section puts
variable {value : Nat}

theorem reads_u8 (h : value < 2 ^ 8) : u8.Reads (putU8 value) value := reads_unsigned h

theorem reads_u16 (h : value < 2 ^ 16) : u16.Reads (putU16 value) value := reads_unsigned h

theorem reads_u32 (h : value < 2 ^ 32) : u32.Reads (putU32 value) value := reads_unsigned h

theorem reads_u64 (h : value < 2 ^ 64) : u64.Reads (putU64 value) value := reads_unsigned h

theorem reads_i32 {value : Int} (hlow : -2 ^ 31 ≤ value) (hhigh : value < 2 ^ 31) :
    i32.Reads (putI32 value) value := by
  have hbits : i32ToBits value < 2 ^ 32 := by
    unfold i32ToBits
    omega
  refine (reads_u32 hbits).andThen ?_
  rw [i32OfBits_i32ToBits hlow hhigh]
  exact Reads.pure value

theorem reads_bool (value : Bool) : bool.Reads (putBool value) value := by
  cases value with
  | false => exact (reads_u8 (by decide)).andThen (Reads.pure false)
  | true => exact (reads_u8 (by decide)).andThen (Reads.pure true)

/-- A list of fields, each of them written by `put`. -/
theorem reads_repeated {α : Type} {reader : Reader α}
    {put : α → Except HolderProtocolError Bytes} {as : List α} {fields : List Bytes}
    (hreads : ∀ a ∈ as, ∀ bytes, put a = .ok bytes → reader.Reads bytes a)
    (hput : as.mapM put = .ok fields) : (repeated reader as.length).Reads fields.flatten as := by
  induction as generalizing fields with
  | nil =>
    cases hput
    exact Reads.pure []
  | cons a as ih =>
    rw [List.mapM_cons] at hput
    cases hfirst : put a with
    | error e => rw [hfirst] at hput; cases hput
    | ok bytes =>
      rw [hfirst] at hput
      cases hrest : as.mapM put with
      | error e => rw [hrest] at hput; cases hput
      | ok rest =>
        rw [hrest] at hput
        cases hput
        refine (hreads a List.mem_cons_self bytes hfirst).bind ?_
        exact (ih (fun b hb => hreads b (List.mem_cons_of_mem _ hb)) hrest).andThen
          (Reads.pure (a :: as))

end puts

end Reader

end PersistShell

import Mathlib.Data.String.Basic
import PersistShell.Core.Launch

/-! The context of a public Attach: the variables of the terminal that a client attaches
from. -/

namespace PersistShell

def maxConnectionEnvVariables : Nat := 8
def maxConnectionEnvName : Nat := 32
def maxConnectionEnvValue : Nat := 4096

/-- `char::is_control`. -/
def isControl (c : Char) : Bool := c.toNat < 32 || (127 ≤ c.toNat && c.toNat < 160)

def validConnectionVariable (name value : String) : Bool :=
  decide (name ∈ connectionNames) && utf8 name ≠ [] &&
    decide ((utf8 name).length ≤ maxConnectionEnvName) && utf8 value ≠ [] &&
    decide ((utf8 value).length ≤ maxConnectionEnvValue) && !value.toList.any isControl

/-- The map is its entries in key order. -/
structure ConnectionEnvironment where
  variables_ : List (String × String) := []
  sorted : (variables_.map Prod.fst).Pairwise (· < ·) := by decide
  valid : ∀ entry ∈ variables_, validConnectionVariable entry.1 entry.2 = true := by decide

/-- `BTreeMap::insert` of a key that is not there. -/
def insertEntry (entry : String × String) : List (String × String) → List (String × String)
  | [] => [entry]
  | e :: entries =>
    if entry.1 < e.1 then entry :: e :: entries else e :: insertEntry entry entries

theorem mem_insertEntry {entry e : String × String} {entries : List (String × String)} :
    e ∈ insertEntry entry entries ↔ e = entry ∨ e ∈ entries := by
  induction entries with
  | nil => simp [insertEntry]
  | cons a entries ih =>
    rw [insertEntry]
    split
    · exact List.mem_cons
    · rw [List.mem_cons, ih, List.mem_cons, or_left_comm]

theorem sorted_insertEntry {entry : String × String} {entries : List (String × String)}
    (h : (entries.map Prod.fst).Pairwise (· < ·)) (hnew : entry.1 ∉ entries.map Prod.fst) :
    ((insertEntry entry entries).map Prod.fst).Pairwise (· < ·) := by
  induction entries with
  | nil => exact List.pairwise_singleton _ _
  | cons a entries ih =>
    rw [List.map_cons, List.pairwise_cons] at h
    rw [List.map_cons, List.mem_cons, not_or] at hnew
    obtain ⟨hfirst, hrest⟩ := h
    rw [insertEntry]
    split
    · rename_i hlt
      refine List.pairwise_cons.mpr ⟨fun name hname => ?_, List.pairwise_cons.mpr ⟨hfirst, hrest⟩⟩
      rcases List.mem_cons.mp hname with rfl | hname
      · exact hlt
      · exact hlt.trans (hfirst name hname)
    · rename_i hlt
      refine List.pairwise_cons.mpr ⟨fun name hname => ?_, ih hrest hnew.2⟩
      obtain ⟨e, he, rfl⟩ := List.mem_map.mp hname
      rcases mem_insertEntry.mp he with rfl | he
      · exact lt_of_le_of_ne (not_lt.mp hlt) (Ne.symm hnew.1)
      · exact hfirst e.1 (List.mem_map_of_mem he)

namespace ConnectionEnvironment

protected def default : ConnectionEnvironment := {}

def insert (env : ConnectionEnvironment) (entry : String × String) : Option ConnectionEnvironment :=
  if h : maxConnectionEnvVariables ≤ env.variables_.length ∨
      validConnectionVariable entry.1 entry.2 = false ∨ entry.1 ∈ env.variables_.map Prod.fst then
    none
  else
    some {
      variables_ := insertEntry entry env.variables_
      sorted := sorted_insertEntry env.sorted fun hmem => h (.inr (.inr hmem))
      valid := fun e he => (mem_insertEntry.mp he).elim
        (fun heq => heq ▸ eq_true_of_ne_false fun hfalse => h (.inr (.inl hfalse)))
        (env.valid e) }

def fromPairs (pairs : List (String × String)) : Option ConnectionEnvironment :=
  pairs.foldlM insert {}

end ConnectionEnvironment

/-- `validate_connection_environment`: an agent socket that is not one of the user's is left
out. -/
def validateConnectionEnvironment (validAgentSocket : String → Bool)
    (context : ConnectionEnvironment) : ConnectionEnvironment :=
  (ConnectionEnvironment.fromPairs (context.variables_.filter fun entry =>
    entry.1 ≠ "SSH_AUTH_SOCK" || validAgentSocket entry.2)).getD {}

/-- Only the zero character has a zero byte. -/
theorem zero_mem_utf8EncodeChar {c : Char} (h : 0 ∈ String.utf8EncodeChar c) : c.toNat = 0 := by
  have hbyte : ∀ n, (0 : UInt8) = UInt8.ofNat n → n % 256 = 0 := by
    intro n hn
    have := congrArg UInt8.toNat hn
    rw [UInt8.toNat_ofNat'] at this
    exact this.symm
  unfold String.utf8EncodeChar at h
  change c.val.toNat = 0
  dsimp only at h
  split at h
  · have := hbyte _ (List.mem_singleton.mp h)
    omega
  · split at h
    · rcases List.mem_pair.mp h with h | h <;> have := hbyte _ h <;> omega
    · split at h
      · simp only [List.mem_cons, List.not_mem_nil, or_false] at h
        rcases h with h | h | h <;> have := hbyte _ h <;> omega
      · simp only [List.mem_cons, List.not_mem_nil, or_false] at h
        rcases h with h | h | h | h <;> have := hbyte _ h <;> omega

theorem contains_zero_of_not_control {s : String} (h : s.toList.any isControl = false) :
    (utf8 s).contains 0 = false := by
  rw [← Bool.not_eq_true, List.contains_iff_mem, utf8_eq_flatMap]
  intro hzero
  obtain ⟨c, hc, hzero⟩ := List.mem_flatMap.mp hzero
  have hcontrol := List.any_eq_false.mp h c hc
  simp [isControl, zero_mem_utf8EncodeChar hzero] at hcontrol

/-- What a launch environment asks of its connection layer holds of every context. -/
theorem ConnectionEnvironment.pairOk (env : ConnectionEnvironment) {entry : String × String}
    (h : entry ∈ env.variables_) : PairOk entry ∧ entry.1 ∈ connectionNames := by
  have hvalid := env.valid entry h
  simp only [validConnectionVariable, Bool.and_eq_true, decide_eq_true_eq, Bool.not_eq_true'] at hvalid
  obtain ⟨⟨⟨⟨⟨hname, -⟩, -⟩, -⟩, hsize⟩, hcontrol⟩ := hvalid
  refine ⟨⟨?_, hsize.trans (by decide), contains_zero_of_not_control hcontrol⟩, hname⟩
  have hnames : ∀ name ∈ connectionNames, validName name = true := by decide
  exact hnames entry.1 hname

end PersistShell

import PersistShell.Core.Config
import Mathlib.Tactic.IntervalCases

/-! Sizes and durations as they are written in the configuration: a number and a unit, with
whitespace around them. Sizes are in bytes, durations in milliseconds. -/

namespace PersistShell

/-- The number is multiplied by `multiplier` in 64 bits, and counts what is `scale` long. -/
structure ValueUnit where
  multiplier : Nat
  scale : Nat := 1
  deriving DecidableEq, Repr

def sizeUnit (name : String) : Option ValueUnit :=
  if name ∈ ["", "b"] then some ⟨1, 1⟩
  else if name ∈ ["k", "kb", "kib"] then some ⟨1024, 1⟩
  else if name ∈ ["m", "mb", "mib"] then some ⟨1024 * 1024, 1⟩
  else if name ∈ ["g", "gb", "gib"] then some ⟨1024 * 1024 * 1024, 1⟩
  else if name ∈ ["t", "tb", "tib"] then some ⟨1024 ^ 4, 1⟩
  else none

/-- `Duration` holds the seconds of any 64-bit number. -/
def durationUnit (name : String) : Option ValueUnit :=
  if name ∈ ["", "s", "sec", "secs", "second", "seconds"] then some ⟨1, 1000⟩
  else if name ∈ ["ms", "millisecond", "milliseconds"] then some ⟨1, 1⟩
  else if name ∈ ["m", "min", "mins", "minute", "minutes"] then some ⟨60, 1000⟩
  else if name ∈ ["h", "hr", "hrs", "hour", "hours"] then some ⟨60 * 60, 1000⟩
  else none

/-- `from_str` of a size or a duration. -/
def parseValue (what : String) (units : String → Option ValueUnit) (text : String) :
    Except String Nat := do
  let value := trim text
  rejectIf (value = "") (what ++ " value cannot be empty")
  let number := value.toList.takeWhile Char.isDigit
  rejectIf (number = []) (what ++ " value must start with a number: " ++ value)
  let n := Nat.ofDigitChars 10 number 0
  rejectIf (2 ^ 64 ≤ n) ("invalid " ++ what ++ " number " ++ String.ofList number ++
    ": number too large to fit in target type")
  let unit := trim (String.ofList (value.toList.dropWhile Char.isDigit))
  let name := String.ofList (unit.toList.map Char.toLower)
  match units name with
  | none => throw ("unsupported " ++ what ++ " unit: " ++ name)
  | some unit =>
    rejectIf (2 ^ 64 ≤ n * unit.multiplier) (what ++ " value is too large: " ++ value)
    return n * unit.multiplier * unit.scale

def ByteSize.fromStr : String → Except String Nat := parseValue "size" sizeUnit

def DurationValue.fromStr : String → Except String Nat := parseValue "duration" durationUnit

/-- `Display` of a size. -/
def ByteSize.text (bytes : Nat) : String :=
  if 1024 ^ 3 ≤ bytes ∧ bytes % 1024 ^ 3 = 0 then toString (bytes / 1024 ^ 3) ++ "GB"
  else if 1024 ^ 2 ≤ bytes ∧ bytes % 1024 ^ 2 = 0 then toString (bytes / 1024 ^ 2) ++ "MB"
  else if 1024 ≤ bytes ∧ bytes % 1024 = 0 then toString (bytes / 1024) ++ "KB"
  else toString bytes ++ "B"

/-- `Display` of a duration. -/
def DurationValue.text (ms : Nat) : String :=
  let seconds := ms / 1000
  if ms % 1000 ≠ 0 then toString ms ++ "ms"
  else if 3600 ≤ seconds ∧ seconds % 3600 = 0 then toString (seconds / 3600) ++ "h"
  else if 60 ≤ seconds ∧ seconds % 60 = 0 then toString (seconds / 60) ++ "m"
  else toString seconds ++ "s"

section trimming

theorem isDigit_bounds {c : Char} (h : c.isDigit = true) : 48 ≤ c.toNat ∧ c.toNat ≤ 57 := by
  rw [Char.isDigit, Bool.and_eq_true, decide_eq_true_eq, decide_eq_true_eq] at h
  exact ⟨h.1, h.2⟩

theorem not_isWhitespace_of_isDigit {c : Char} (h : c.isDigit = true) : isWhitespace c = false := by
  obtain ⟨hlow, hhigh⟩ := isDigit_bounds h
  unfold isWhitespace
  generalize c.toNat = n at hlow hhigh ⊢
  interval_cases n <;> decide

/-- A list that neither starts nor ends with whitespace. -/
def Trimmed (l : List Char) : Prop :=
  (∀ c ∈ l.head?, isWhitespace c = false) ∧ ∀ c ∈ l.getLast?, isWhitespace c = false

def Blank (l : List Char) : Prop := ∀ c ∈ l, isWhitespace c = true

theorem dropWhile_blank {w l : List Char} (hw : Blank w) (hl : ∀ c ∈ l.head?, isWhitespace c = false) :
    (w ++ l).dropWhile isWhitespace = l := by
  induction w with
  | nil =>
    cases l with
    | nil => rfl
    | cons c l =>
      rw [List.nil_append, List.dropWhile_cons_of_neg]
      rw [hl c rfl]
      exact Bool.false_ne_true
  | cons c w ih =>
    rw [List.cons_append, List.dropWhile_cons_of_pos (hw c List.mem_cons_self)]
    exact ih fun d hd => hw d (List.mem_cons_of_mem _ hd)

theorem not_isWhitespace_of_head_dropWhile {l : List Char} :
    ∀ c ∈ (l.dropWhile isWhitespace).head?, isWhitespace c = false := by
  intro c hc
  have h := List.head?_dropWhile_not isWhitespace l
  rw [hc] at h
  exact h

theorem blank_takeWhile (l : List Char) : Blank (l.takeWhile isWhitespace) := fun c hc => by
  have h := List.all_takeWhile (l := l) (p := isWhitespace)
  exact List.all_eq_true.mp h c hc

theorem Blank.reverse {l : List Char} (h : Blank l) : Blank l.reverse := fun c hc =>
  h c (List.mem_reverse.mp hc)

/-- What `trim` takes off is whitespace, on both sides. -/
theorem trim_split (text : String) :
    ∃ before after, text.toList = before ++ (trim text).toList ++ after ∧ Blank before ∧
      Blank after ∧ Trimmed (trim text).toList := by
  set front := text.toList.dropWhile isWhitespace with hfront
  have hcore : (trim text).toList = (front.reverse.dropWhile isWhitespace).reverse := by
    rw [trim, String.toList_ofList]
  have hsplit : front = (trim text).toList ++ (front.reverse.takeWhile isWhitespace).reverse := by
    rw [hcore, ← List.reverse_append, List.takeWhile_append_dropWhile, List.reverse_reverse]
  refine ⟨text.toList.takeWhile isWhitespace, (front.reverse.takeWhile isWhitespace).reverse, ?_,
    blank_takeWhile _, (blank_takeWhile _).reverse, fun c hc => ?_, fun c hc => ?_⟩
  · rw [List.append_assoc, ← hsplit, hfront, List.takeWhile_append_dropWhile]
  · refine not_isWhitespace_of_head_dropWhile (l := text.toList) c ?_
    rw [← hfront, hsplit, List.head?_append, hc]
    rfl
  · rw [hcore, List.getLast?_reverse] at hc
    exact not_isWhitespace_of_head_dropWhile c hc

theorem trim_eq {text : String} (before core after : List Char)
    (htext : text.toList = before ++ core ++ after) (hbefore : Blank before) (hafter : Blank after)
    (hcore : Trimmed core) : trim text = String.ofList core := by
  have hblank : ∀ {w : List Char}, Blank w → w.dropWhile isWhitespace = [] := fun {w} hw => by
    simpa using dropWhile_blank (l := []) hw (by simp)
  unfold trim
  rcases List.eq_nil_or_concat core with rfl | ⟨start, last, rfl⟩
  · have hall : Blank text.toList := fun c hc => by
      rw [htext, List.append_nil] at hc
      exact (List.mem_append.mp hc).elim (hbefore c) (hafter c)
    rw [hblank hall]
    rfl
  · dsimp only
    rw [htext, List.append_assoc, dropWhile_blank hbefore, List.reverse_append,
      dropWhile_blank hafter.reverse, List.reverse_reverse]
    · intro c hc
      rw [List.head?_reverse] at hc
      exact hcore.2 c hc
    · intro c hc
      rw [List.head?_append_of_ne_nil _ (by simp)] at hc
      exact hcore.1 c hc

end trimming

section grammar

/-- The text is a number and a unit of that name, in any case, with whitespace around them. -/
def Written (text number name : List Char) : Prop :=
  ∃ before between spelled after, text = before ++ number ++ between ++ spelled ++ after ∧
    Blank before ∧ Blank between ∧ Blank after ∧ number ≠ [] ∧
    (∀ c ∈ number, c.isDigit = true) ∧ spelled.map Char.toLower = name

/-- The names of units are lower case letters. -/
def Lettered (units : String → Option ValueUnit) : Prop :=
  ∀ name unit, units name = some unit → 1 ≤ unit.multiplier ∧ ∀ c ∈ name.toList, c.isLower = true

theorem lower_of_mem {name : String} {names : List String} (hname : name ∈ names)
    (hlower : (names.all fun n => n.toList.all Char.isLower) = true) :
    ∀ c ∈ name.toList, c.isLower = true :=
  List.all_eq_true.mp (List.all_eq_true.mp hlower name hname)

theorem sizeUnit_lettered : Lettered sizeUnit := by
  intro name unit h
  unfold sizeUnit at h
  iterate 5
    split at h
    · rename_i hname
      cases h
      exact ⟨by decide, lower_of_mem hname (by decide +kernel)⟩
  cases h

theorem durationUnit_lettered : Lettered durationUnit := by
  intro name unit h
  unfold durationUnit at h
  iterate 4
    split at h
    · rename_i hname
      cases h
      exact ⟨by decide, lower_of_mem hname (by decide +kernel)⟩
  cases h

theorem letter_of_toLower {c : Char} (h : c.toLower.isLower = true) :
    isWhitespace c = false ∧ c.isDigit = false := by
  have hletter : 65 ≤ c.toNat ∧ c.toNat ≤ 122 := by
    unfold Char.toLower at h
    split at h
    · rename_i hupper
      exact ⟨hupper.1, le_trans hupper.2 (show (90 : Nat) ≤ 122 by decide)⟩
    · have hboth : (decide (c.val ≥ 'a'.val) && decide (c.val ≤ 'z'.val)) = true := h
      rw [Bool.and_eq_true, decide_eq_true_eq, decide_eq_true_eq] at hboth
      exact ⟨le_trans (show (65 : Nat) ≤ 97 by decide) hboth.1, hboth.2⟩
  refine ⟨?_, ?_⟩
  · unfold isWhitespace
    obtain ⟨hlow, hhigh⟩ := hletter
    generalize c.toNat = n at hlow hhigh ⊢
    interval_cases n <;> decide
  · rw [Bool.eq_false_iff]
    intro hdigit
    have := isDigit_bounds hdigit
    omega

theorem toList_ofList_toLower {spelled : List Char} {units : String → Option ValueUnit}
    {unit : ValueUnit} (hunits : Lettered units)
    (h : units (String.ofList (spelled.map Char.toLower)) = some unit) :
    ∀ c ∈ spelled, isWhitespace c = false ∧ c.isDigit = false := fun c hc => by
  refine letter_of_toLower ((hunits _ _ h).2 _ ?_)
  rw [String.toList_ofList]
  exact List.mem_map_of_mem hc

theorem takeWhile_digits {number rest : List Char} (hnumber : ∀ c ∈ number, c.isDigit = true)
    (hrest : ∀ c ∈ rest.head?, c.isDigit = false) :
    (number ++ rest).takeWhile Char.isDigit = number ∧
      (number ++ rest).dropWhile Char.isDigit = rest := by
  rw [List.takeWhile_append_of_pos hnumber, List.dropWhile_append_of_pos hnumber]
  cases rest with
  | nil => simp
  | cons c rest => simp [hrest c rfl]

theorem not_isDigit_of_isWhitespace {c : Char} (h : isWhitespace c = true) : c.isDigit = false := by
  rw [Bool.eq_false_iff]
  intro hdigit
  rw [not_isWhitespace_of_isDigit hdigit] at h
  cases h

theorem trimmed_of_all {l : List Char} (h : ∀ c ∈ l, isWhitespace c = false) : Trimmed l :=
  ⟨fun c hc => h c (List.mem_of_mem_head? hc), fun c hc => h c (List.mem_of_mem_getLast? hc)⟩

/-- The number in front of a text and what is left of it. -/
theorem parseValue_ok {what text : String} {units : String → Option ValueUnit} {v : Nat} :
    parseValue what units text = .ok v ↔ ∃ number rest unit,
      number = (trim text).toList.takeWhile Char.isDigit ∧
      rest = (trim text).toList.dropWhile Char.isDigit ∧ number ≠ [] ∧
      units (String.ofList ((trim (String.ofList rest)).toList.map Char.toLower)) = some unit ∧
      Nat.ofDigitChars 10 number 0 < 2 ^ 64 ∧
      Nat.ofDigitChars 10 number 0 * unit.multiplier < 2 ^ 64 ∧
      v = Nat.ofDigitChars 10 number 0 * unit.multiplier * unit.scale := by
  unfold parseValue
  constructor
  · intro h
    obtain ⟨_, -, h⟩ := bind_eq_ok.mp h
    obtain ⟨_, hnumber, h⟩ := bind_eq_ok.mp h
    obtain ⟨_, hfits, h⟩ := bind_eq_ok.mp h
    dsimp only at h
    split at h
    · cases h
    · rename_i unit hunit
      obtain ⟨_, hsmall, h⟩ := bind_eq_ok.mp h
      cases h
      exact ⟨_, _, unit, rfl, rfl, rejectIf_eq_ok.mp hnumber, hunit,
        not_le.mp (rejectIf_eq_ok.mp hfits), not_le.mp (rejectIf_eq_ok.mp hsmall), rfl⟩
  · rintro ⟨number, rest, unit, rfl, rfl, hnumber, hunit, hfits, hsmall, rfl⟩
    have hvalue : trim text ≠ "" := fun hempty => hnumber (by rw [hempty]; rfl)
    refine bind_eq_ok.mpr ⟨(), rejectIf_eq_ok.mpr hvalue, ?_⟩
    refine bind_eq_ok.mpr ⟨(), rejectIf_eq_ok.mpr hnumber, ?_⟩
    refine bind_eq_ok.mpr ⟨(), rejectIf_eq_ok.mpr (not_le.mpr hfits), ?_⟩
    dsimp only
    rw [hunit]
    exact bind_eq_ok.mpr ⟨(), rejectIf_eq_ok.mpr (not_le.mpr hsmall), rfl⟩

/-- The value of a text is that of its number and unit, and every other text is refused. -/
theorem parseValue_eq_ok {what text : String} {units : String → Option ValueUnit} {v : Nat}
    (hunits : Lettered units) : parseValue what units text = .ok v ↔
      ∃ number name unit, Written text.toList number name ∧ units (String.ofList name) = some unit ∧
        Nat.ofDigitChars 10 number 0 * unit.multiplier < 2 ^ 64 ∧
        v = Nat.ofDigitChars 10 number 0 * unit.multiplier * unit.scale := by
  rw [parseValue_ok]
  constructor
  · rintro ⟨number, rest, unit, hnumber, hrest, hne, hunit, -, hsmall, hv⟩
    obtain ⟨before, after, htext, hbefore, hafter, -⟩ := trim_split text
    obtain ⟨between, after', hsplit, hbetween, hafter', -⟩ := trim_split (String.ofList rest)
    rw [String.toList_ofList] at hsplit
    generalize (trim (String.ofList rest)).toList = spelled at hsplit hunit
    have hbody : (trim text).toList = number ++ rest := by
      rw [hnumber, hrest, List.takeWhile_append_dropWhile]
    refine ⟨number, _, unit, ⟨before, between, spelled, after' ++ after, ?_, hbefore, hbetween, fun c hc => (List.mem_append.mp hc).elim (hafter' c) (hafter c), hne,
      fun c hc => ?_, rfl⟩, hunit, hsmall, hv⟩
    · rw [htext, hbody, hsplit]
      simp only [List.append_assoc]
    · rw [hnumber] at hc
      exact List.all_eq_true.mp List.all_takeWhile c hc
  · rintro ⟨number, _, unit, ⟨before, between, spelled, after, htext, hbefore, hbetween, hafter, hne,
      hdigits, rfl⟩, hunit, hsmall, hv⟩
    have hletters := toList_ofList_toLower hunits hunit
    have hspace : ∀ c ∈ number, isWhitespace c = false := fun c hc =>
      not_isWhitespace_of_isDigit (hdigits c hc)
    have hcore : ∃ rest, trim text = String.ofList (number ++ rest) ∧
        (∀ c ∈ rest.head?, c.isDigit = false) ∧
        trim (String.ofList rest) = String.ofList spelled := by
      by_cases hempty : spelled = []
      · subst hempty
        refine ⟨[], trim_eq before (number ++ []) (between ++ after) ?_ hbefore ?_ ?_, ?_, rfl⟩
        · simpa using htext
        · exact fun c hc => (List.mem_append.mp hc).elim (hbetween c) (hafter c)
        · rw [List.append_nil]
          exact trimmed_of_all hspace
        · simp
      · refine ⟨between ++ spelled, trim_eq before (number ++ (between ++ spelled)) after ?_ hbefore hafter
          ⟨fun c hc => ?_, fun c hc => ?_⟩, fun c hc => ?_, trim_eq between spelled []
            ?_ hbetween (by simp [Blank]) (trimmed_of_all fun c hc => (hletters c hc).1)⟩
        · simpa using htext
        · rw [List.head?_append_of_ne_nil _ hne] at hc
          exact hspace c (List.mem_of_mem_head? hc)
        · rw [← List.append_assoc, List.getLast?_append_of_ne_nil _ hempty] at hc
          exact (hletters c (List.mem_of_mem_getLast? hc)).1
        · cases between with
          | nil => exact (hletters c (List.mem_of_mem_head? hc)).2
          | cons d between =>
            cases hc
            exact not_isDigit_of_isWhitespace (hbetween _ List.mem_cons_self)
        · rw [String.toList_ofList, List.append_nil]
    obtain ⟨rest, htrim, hrest, hname⟩ := hcore
    obtain ⟨htake, hdrop⟩ := takeWhile_digits hdigits hrest
    have hlarge : Nat.ofDigitChars 10 number 0 ≤ Nat.ofDigitChars 10 number 0 * unit.multiplier :=
      Nat.le_mul_of_pos_right _ (hunits _ _ hunit).1
    refine ⟨number, rest, unit, ?_, ?_, hne, ?_, lt_of_le_of_lt hlarge hsmall, hsmall, hv⟩
    · rw [htrim, String.toList_ofList, htake]
    · rw [htrim, String.toList_ofList, hdrop]
    · rw [hname, String.toList_ofList]
      exact hunit

/-- A size is read from exactly the texts that are a number and a unit of sizes, and so is a
duration; what does not fit 64 bits is refused. -/
theorem values_read_iff (text : String) (v : Nat) :
    (ByteSize.fromStr text = .ok v ↔
      ∃ number name unit, Written text.toList number name ∧ sizeUnit (String.ofList name) = some unit ∧
        Nat.ofDigitChars 10 number 0 * unit.multiplier < 2 ^ 64 ∧
        v = Nat.ofDigitChars 10 number 0 * unit.multiplier) ∧
    (DurationValue.fromStr text = .ok v ↔
      ∃ number name unit, Written text.toList number name ∧
        durationUnit (String.ofList name) = some unit ∧
        Nat.ofDigitChars 10 number 0 * unit.multiplier < 2 ^ 64 ∧
        v = Nat.ofDigitChars 10 number 0 * unit.multiplier * unit.scale) := by
  have hscale : ∀ {name : String} {unit : ValueUnit}, sizeUnit name = some unit → unit.scale = 1 := by
    intro name unit h
    unfold sizeUnit at h
    iterate 5
      split at h
      · cases h
        rfl
    cases h
  refine ⟨(parseValue_eq_ok sizeUnit_lettered).trans ?_, parseValue_eq_ok durationUnit_lettered⟩
  refine exists_congr fun number => exists_congr fun name => exists_congr fun unit => ?_
  refine and_congr_right fun _ => and_congr_right fun hunit => and_congr_right fun _ => ?_
  rw [hscale hunit, Nat.mul_one]

end grammar

section texts

/-- A number with a unit behind it is read as it says. -/
theorem parseValue_text {what : String} {units : String → Option ValueUnit} {unit : ValueUnit}
    (hunits : Lettered units) {n : Nat} {suffix : String}
    (hunit : units (String.ofList (suffix.toList.map Char.toLower)) = some unit)
    (hfits : n * unit.multiplier < 2 ^ 64) :
    parseValue what units (toString n ++ suffix) = .ok (n * unit.multiplier * unit.scale) := by
  have hlist : (toString n).toList = Nat.toDigits 10 n := by
    rw [Nat.toString_eq_ofList_toDigits, String.toList_ofList]
  have hvalue : Nat.ofDigitChars 10 (Nat.toDigits 10 n) 0 = n := Nat.ofDigitChars_ten_toDigits
  refine (parseValue_eq_ok hunits).mpr ⟨Nat.toDigits 10 n, _, unit,
    ⟨[], [], suffix.toList, [], ?_, ?_, ?_, ?_, Nat.toDigits_ne_nil, fun c hc => ?_, rfl⟩, hunit, ?_, ?_⟩
  · rw [String.toList_append, hlist]
    simp
  · exact fun c hc => by cases hc
  · exact fun c hc => by cases hc
  · exact fun c hc => by cases hc
  · exact Nat.isDigit_of_mem_toDigits (by decide) (by decide) hc
  · rw [hvalue]
    exact hfits
  · rw [hvalue]

theorem ByteSize.fromStr_text {bytes : Nat} (h : bytes < 2 ^ 64) :
    ByteSize.fromStr (ByteSize.text bytes) = .ok bytes := by
  have hread : ∀ {n m k : Nat} {suffix : String},
      sizeUnit (String.ofList (suffix.toList.map Char.toLower)) = some ⟨m, k⟩ →
      n * m * k = bytes → n * m < 2 ^ 64 →
      ByteSize.fromStr (toString n ++ suffix) = .ok bytes := fun hunit hvalue hfits =>
    hvalue ▸ parseValue_text sizeUnit_lettered hunit hfits
  unfold ByteSize.text
  split
  · exact hread (m := 1024 * 1024 * 1024) (k := 1) (by decide) (by omega) (by omega)
  · split
    · exact hread (m := 1024 * 1024) (k := 1) (by decide) (by omega) (by omega)
    · split
      · exact hread (m := 1024) (k := 1) (by decide) (by omega) (by omega)
      · exact hread (m := 1) (k := 1) (by decide) (by omega) (by omega)

/-- What `Duration::from_secs` and `from_millis` make. -/
def DurationValue.Valid (ms : Nat) : Prop := ms < 2 ^ 64 ∨ ms % 1000 = 0 ∧ ms / 1000 < 2 ^ 64

theorem DurationValue.fromStr_text {ms : Nat} (h : DurationValue.Valid ms) :
    DurationValue.fromStr (DurationValue.text ms) = .ok ms := by
  have hread : ∀ {n m k : Nat} {suffix : String},
      durationUnit (String.ofList (suffix.toList.map Char.toLower)) = some ⟨m, k⟩ →
      n * m * k = ms → n * m < 2 ^ 64 →
      DurationValue.fromStr (toString n ++ suffix) = .ok ms := fun hunit hvalue hfits =>
    hvalue ▸ parseValue_text durationUnit_lettered hunit hfits
  unfold DurationValue.Valid at h
  unfold DurationValue.text
  dsimp only
  split
  · exact hread (m := 1) (k := 1) (by decide) (by omega) (by omega)
  · split
    · exact hread (m := 60 * 60) (k := 1000) (by decide) (by omega) (by omega)
    · split
      · exact hread (m := 60) (k := 1000) (by decide) (by omega) (by omega)
      · exact hread (m := 1) (k := 1000) (by decide) (by omega) (by omega)

theorem DurationValue.valid_of_fromStr {text : String} {ms : Nat}
    (h : DurationValue.fromStr text = .ok ms) : DurationValue.Valid ms := by
  obtain ⟨number, name, unit, -, hunit, hfits, rfl⟩ :=
    (parseValue_eq_ok durationUnit_lettered).mp h
  generalize Nat.ofDigitChars 10 number 0 * unit.multiplier = n at hfits ⊢
  have hscale : unit.scale = 1 ∨ unit.scale = 1000 := by
    unfold durationUnit at hunit
    iterate 4
      split at hunit
      · cases hunit
        decide
    cases hunit
  unfold DurationValue.Valid
  rcases hscale with hscale | hscale
  · rw [hscale]
    omega
  · rw [hscale]
    omega

/-- Any size or duration that is read is read again from the text it is shown as. -/
theorem values_shown_are_read :
    (∀ bytes, bytes < 2 ^ 64 → ByteSize.fromStr (ByteSize.text bytes) = .ok bytes) ∧
    (∀ text bytes, ByteSize.fromStr text = .ok bytes → bytes < 2 ^ 64) ∧
    (∀ ms, DurationValue.Valid ms → DurationValue.fromStr (DurationValue.text ms) = .ok ms) ∧
    ∀ text ms, DurationValue.fromStr text = .ok ms → DurationValue.Valid ms := by
  refine ⟨fun _ => ByteSize.fromStr_text, fun text bytes h => ?_,
    fun _ => DurationValue.fromStr_text, fun _ _ => DurationValue.valid_of_fromStr⟩
  obtain ⟨_, _, _, _, _, hfits, rfl⟩ := (values_read_iff text bytes).1.mp h
  exact hfits

theorem values_shown_sample : ByteSize.text 8388608 = "8MB" ∧
    ByteSize.fromStr "8MB" = .ok 8388608 ∧ DurationValue.fromStr "500ms" = .ok 500 :=
  ⟨by decide +kernel, values_shown_are_read.1 8388608 (by decide),
    values_shown_are_read.2.2.1 500 (.inl (by decide))⟩

end texts

end PersistShell

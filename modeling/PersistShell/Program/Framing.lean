import Mathlib.Algebra.GroupWithZero.Nat
import Mathlib.Data.List.Induction

/-! Streams of bytes that are cut into items. A reader looks at the bytes that have arrived and
takes an item off the front, finds that more bytes are needed, or fails. -/

/-- A reader of items. What it makes of the bytes does not depend on what comes after them. -/
structure Framing (ε α : Type) where
  tryRead : List UInt8 → Except ε (Option (α × List UInt8))
  /-- How many bytes an item takes. -/
  size : α → Nat
  size_pos : ∀ a, 0 < size a
  whole : ∀ {bytes rest a}, tryRead bytes = .ok (some (a, rest)) →
    ∃ front, bytes = front ++ rest ∧ front.length = size a ∧ tryRead front = .ok (some (a, []))
  item_append : ∀ {bytes rest a}, tryRead bytes = .ok (some (a, rest)) →
    ∀ more, tryRead (bytes ++ more) = .ok (some (a, rest ++ more))
  error_append : ∀ {bytes e}, tryRead bytes = .error e →
    ∀ more, tryRead (bytes ++ more) = .error e

/-- The items at the front of some bytes, what is left after them, and the error that ended
the reading, when one did. -/
structure Cut (ε α : Type) where
  items : List α
  rest : List UInt8
  stopped : Option ε

def Cut.cons {ε α : Type} (a : α) (later : Cut ε α) : Cut ε α :=
  { later with items := a :: later.items }

def Cut.after {ε α : Type} (items : List α) (later : Cut ε α) : Cut ε α :=
  { later with items := items ++ later.items }

namespace Framing

variable {ε α : Type} (F : Framing ε α)

def cutLoop : Nat → List UInt8 → Cut ε α
  | 0, bytes => ⟨[], bytes, none⟩
  | fuel + 1, bytes =>
    match F.tryRead bytes with
    | .error e => ⟨[], bytes, some e⟩
    | .ok none => ⟨[], bytes, none⟩
    | .ok (some (a, rest)) => (cutLoop fuel rest).cons a

/-- Reads items until none is whole. An item takes a byte at least, so that there are no more
items than bytes. -/
def cut (bytes : List UInt8) : Cut ε α := F.cutLoop (bytes.length + 1) bytes

variable {F}

theorem length_of_item {bytes rest : List UInt8} {a : α}
    (h : F.tryRead bytes = .ok (some (a, rest))) : bytes.length = F.size a + rest.length := by
  obtain ⟨front, rfl, hsize, -⟩ := F.whole h
  rw [List.length_append, hsize]

theorem length_lt_of_item {bytes rest : List UInt8} {a : α}
    (h : F.tryRead bytes = .ok (some (a, rest))) : rest.length < bytes.length := by
  have hlength := length_of_item h
  have hpos := F.size_pos a
  omega

theorem cutLoop_fuel {fuel : Nat} {bytes : List UInt8} (h : bytes.length < fuel) :
    F.cutLoop fuel bytes = F.cut bytes := by
  have key : ∀ n bytes, bytes.length < n → ∀ fuel, bytes.length < fuel →
      F.cutLoop fuel bytes = F.cutLoop n bytes := by
    intro n
    induction n with
    | zero => intro bytes h; omega
    | succ n ih =>
      intro bytes hn fuel hfuel
      obtain ⟨fuel, rfl⟩ : ∃ k, fuel = k + 1 := ⟨fuel - 1, by omega⟩
      rw [cutLoop, cutLoop]
      cases hread : F.tryRead bytes with
      | error e => rfl
      | ok found =>
        rcases found with _ | ⟨a, rest⟩
        · rfl
        · have hlt := length_lt_of_item hread
          exact congrArg (Cut.cons a) (ih rest (by omega) fuel (by omega))
  exact key (bytes.length + 1) bytes (by omega) fuel h

section equations

theorem cut_error {bytes : List UInt8} {e : ε} (h : F.tryRead bytes = .error e) :
    F.cut bytes = ⟨[], bytes, some e⟩ := by
  rw [cut, cutLoop, h]

theorem cut_none {bytes : List UInt8} (h : F.tryRead bytes = .ok none) :
    F.cut bytes = ⟨[], bytes, none⟩ := by
  rw [cut, cutLoop, h]

theorem cut_item {bytes rest : List UInt8} {a : α}
    (h : F.tryRead bytes = .ok (some (a, rest))) : F.cut bytes = (F.cut rest).cons a := by
  rw [cut, cutLoop, h]
  exact congrArg (Cut.cons a) (cutLoop_fuel (length_lt_of_item h))

end equations

/-- The items of a stream are taken off one by one. -/
theorem cut_induction {P : List UInt8 → Prop}
    (error : ∀ bytes e, F.tryRead bytes = .error e → P bytes)
    (none : ∀ bytes, F.tryRead bytes = .ok none → P bytes)
    (item : ∀ bytes a rest, F.tryRead bytes = .ok (some (a, rest)) → P rest → P bytes)
    (bytes : List UInt8) : P bytes := by
  induction hlength : bytes.length using Nat.strongRecOn generalizing bytes with
  | _ n ih =>
    subst hlength
    cases hread : F.tryRead bytes with
    | error e => exact error bytes e hread
    | ok found =>
      rcases found with _ | ⟨a, rest⟩
      · exact none bytes hread
      · exact item bytes a rest hread (ih rest.length (length_lt_of_item hread) rest rfl)

/-- What is left when no error ended the reading waits for more bytes. -/
theorem tryRead_rest {bytes : List UInt8} (h : (F.cut bytes).stopped = none) :
    F.tryRead (F.cut bytes).rest = .ok none := by
  induction bytes using cut_induction (F := F) with
  | error bytes e hread =>
    rw [cut_error hread] at h
    cases h
  | none bytes hread =>
    rw [cut_none hread]
    exact hread
  | item bytes a rest hread ih =>
    rw [cut_item hread] at h ⊢
    exact ih h

/-- Bytes that arrive later are read after the items that were there before. -/
theorem cut_append {bytes : List UInt8} (h : (F.cut bytes).stopped = none)
    (more : List UInt8) :
    F.cut (bytes ++ more) = (F.cut ((F.cut bytes).rest ++ more)).after (F.cut bytes).items := by
  induction bytes using cut_induction (F := F) with
  | error bytes e hread =>
    rw [cut_error hread] at h
    cases h
  | none bytes hread =>
    rw [cut_none hread]
    rfl
  | item bytes a rest hread ih =>
    rw [cut_item hread] at h ⊢
    rw [cut_item (F.item_append hread more), ih h]
    rfl

/-- After an error nothing more is read. -/
theorem cut_append_stopped {bytes : List UInt8} {e : ε} (h : (F.cut bytes).stopped = some e)
    (more : List UInt8) :
    F.cut (bytes ++ more) = ⟨(F.cut bytes).items, (F.cut bytes).rest ++ more, some e⟩ := by
  induction bytes using cut_induction (F := F) with
  | error bytes e' hread =>
    rw [cut_error hread] at h ⊢
    cases h
    exact cut_error (F.error_append hread more)
  | none bytes hread =>
    rw [cut_none hread] at h
    cases h
  | item bytes a rest hread ih =>
    rw [cut_item hread] at h ⊢
    rw [cut_item (F.item_append hread more), ih h]
    rfl

theorem tryRead_rest_stopped {bytes : List UInt8} {e : ε} (h : (F.cut bytes).stopped = some e) :
    F.tryRead (F.cut bytes).rest = .error e := by
  induction bytes using cut_induction (F := F) with
  | error bytes e' hread =>
    rw [cut_error hread] at h ⊢
    cases h
    exact hread
  | none bytes hread =>
    rw [cut_none hread] at h
    cases h
  | item bytes a rest hread ih =>
    rw [cut_item hread] at h ⊢
    exact ih h

/-- Bytes that arrive later are read after what is left, also when that is an error. -/
theorem cut_append_rest (bytes more : List UInt8) :
    F.cut (bytes ++ more) = (F.cut ((F.cut bytes).rest ++ more)).after (F.cut bytes).items := by
  cases h : (F.cut bytes).stopped with
  | none => exact cut_append h more
  | some e =>
    have hrest := F.error_append (tryRead_rest_stopped h) more
    rw [cut_append_stopped h, cut_error hrest, Cut.after, List.append_nil]

section agree

variable {ε' : Type} {G : Framing ε' α}

/-- A second framing that finds the items of the first cuts the stream in the same way as far
as the first gets. -/
theorem cut_of_agree
    (hitem : ∀ bytes found, F.tryRead bytes = .ok (some found) → G.tryRead bytes = .ok (some found))
    (bytes : List UInt8) :
    G.cut bytes = (G.cut (F.cut bytes).rest).after (F.cut bytes).items := by
  induction bytes using cut_induction (F := F) with
  | error bytes e hread =>
    rw [cut_error hread]
    rfl
  | none bytes hread =>
    rw [cut_none hread]
    rfl
  | item bytes a rest hread ih =>
    rw [cut_item hread, cut_item (hitem _ _ hread), ih]
    rfl

end agree

/-- The chunks of a stream that come one by one: what was left is read again with each. -/
def feedAll (chunks : List (List UInt8)) : Cut ε α :=
  chunks.foldl (fun c chunk => (F.cut (c.rest ++ chunk)).after c.items) (F.cut [])

theorem feedAll_concat (chunks : List (List UInt8)) (chunk : List UInt8) :
    F.feedAll (chunks ++ [chunk]) =
      (F.cut ((F.feedAll chunks).rest ++ chunk)).after (F.feedAll chunks).items := by
  rw [feedAll, List.foldl_append]
  rfl

/-- It does not matter where the stream is split. -/
theorem feedAll_eq (chunks : List (List UInt8)) : F.feedAll chunks = F.cut chunks.flatten := by
  induction chunks using List.reverseRecOn with
  | nil => rfl
  | append_singleton chunks chunk ih =>
    rw [feedAll_concat, ih, List.flatten_append, List.flatten_singleton, ← cut_append_rest]

/-- The items were made of the bytes before what is left. -/
theorem exists_eaten (bytes : List UInt8) :
    ∃ eaten, bytes = eaten ++ (F.cut bytes).rest ∧
      ∀ more, F.cut (eaten ++ more) = (F.cut more).after (F.cut bytes).items := by
  induction bytes using cut_induction (F := F) with
  | error bytes e hread =>
    rw [cut_error hread]
    exact ⟨[], rfl, fun _ => rfl⟩
  | none bytes hread =>
    rw [cut_none hread]
    exact ⟨[], rfl, fun _ => rfl⟩
  | item bytes a rest hread ih =>
    obtain ⟨front, rfl, -, hfront⟩ := F.whole hread
    obtain ⟨eaten, hrest, heaten⟩ := ih
    rw [cut_item hread]
    refine ⟨front ++ eaten, ?_, ?_⟩
    · rw [List.append_assoc]
      exact congrArg (front ++ ·) hrest
    · intro more
      rw [List.append_assoc, cut_item (F.item_append hfront _), List.nil_append]
      exact congrArg (fun cut => cut.after [a]) (heaten more)

/-- The items that are there stay when more bytes arrive. -/
theorem items_mono (bytes more : List UInt8) :
    (F.cut bytes).items <+: (F.cut (bytes ++ more)).items := by
  cases h : (F.cut bytes).stopped with
  | none =>
    rw [cut_append h]
    exact List.prefix_append _ _
  | some e =>
    have hsame : (F.cut (bytes ++ more)).items = (F.cut bytes).items := by
      rw [cut_append_stopped h]
    exact ⟨[], (List.append_nil _).trans hsame.symm⟩

/-- Every item was read from some bytes. -/
theorem read_of_mem {bytes : List UInt8} {a : α} (h : a ∈ (F.cut bytes).items) :
    ∃ front rest, F.tryRead front = .ok (some (a, rest)) := by
  induction bytes using cut_induction (F := F) with
  | error bytes e hread =>
    rw [cut_error hread] at h
    cases h
  | none bytes hread =>
    rw [cut_none hread] at h
    cases h
  | item bytes b rest hread ih =>
    rw [cut_item hread] at h
    rcases List.mem_cons.mp h with rfl | hlater
    · exact ⟨bytes, rest, hread⟩
    · exact ih hlater

section items

variable {encode : α → List UInt8}

/-- How many of the first `n` bytes of the items belong to one that is not whole. -/
def unfinished (F : Framing ε α) : List α → Nat → Nat
  | [], n => n
  | a :: as, n => if n < F.size a then n else unfinished F as (n - F.size a)

theorem unfinished_le (as : List α) (n : Nat) : F.unfinished as n ≤ n := by
  induction as generalizing n with
  | nil => exact Nat.le_refl n
  | cons a as ih =>
    rw [unfinished]
    split
    · exact Nat.le_refl n
    · exact Nat.le_trans (ih _) (Nat.sub_le _ _)

/-- A part of an item is no item and no error. -/
theorem tryRead_part {front more : List UInt8} {a : α}
    (h : F.tryRead (front ++ more) = .ok (some (a, []))) (hmore : more ≠ []) :
    F.tryRead front = .ok none := by
  cases hread : F.tryRead front with
  | error e =>
    have hlater := F.error_append hread more
    rw [h] at hlater
    cases hlater
  | ok found =>
    rcases found with _ | ⟨b, rest⟩
    · rfl
    · have hlater := F.item_append hread more
      rw [h] at hlater
      have hnil := (Prod.mk.inj (Option.some.inj (Except.ok.inj hlater))).2
      exact absurd (List.append_eq_nil_iff.mp hnil.symm).2 hmore

section whole

variable {as : List α} (hempty : F.tryRead [] = .ok none)
  (h : ∀ a ∈ as, F.tryRead (encode a) = .ok (some (a, [])))
include hempty h

theorem cut_items : F.cut (as.flatMap encode) = ⟨as, [], none⟩ := by
  induction as with
  | nil => exact cut_none hempty
  | cons a as ih =>
    have hitem := F.item_append (h a List.mem_cons_self) (as.flatMap encode)
    rw [List.flatMap_cons, cut_item hitem, List.nil_append,
      ih fun b hb => h b (List.mem_cons_of_mem a hb)]
    rfl

/-- The first bytes of some items hold no error, and end in an item that is not whole. -/
theorem cut_take {n : Nat} (hn : n ≤ (as.flatMap encode).length) :
    (F.cut ((as.flatMap encode).take n)).stopped = none ∧
      (F.cut ((as.flatMap encode).take n)).rest.length = F.unfinished as n := by
  induction as generalizing n with
  | nil =>
    have hzero : n = 0 := Nat.le_zero.mp hn
    subst hzero
    rw [List.flatMap_nil, List.take_nil, cut_none hempty]
    exact ⟨rfl, rfl⟩
  | cons a as ih =>
    have hitem := h a List.mem_cons_self
    have hsize : F.size a = (encode a).length := by
      have hlength := length_of_item hitem
      rw [List.length_nil] at hlength
      omega
    rw [List.flatMap_cons, List.length_append] at hn
    rw [List.flatMap_cons, List.take_append, unfinished]
    split
    · rename_i hshort
      have hsplit : F.tryRead ((encode a).take n ++ (encode a).drop n) = .ok (some (a, [])) := by
        rw [List.take_append_drop]
        exact hitem
      have hmore : (encode a).drop n ≠ [] := by
        apply List.ne_nil_of_length_pos
        rw [List.length_drop]
        omega
      have hpart := tryRead_part hsplit hmore
      have hnothing : n - (encode a).length = 0 := by omega
      rw [hnothing, List.take_zero, List.append_nil, cut_none hpart]
      refine ⟨rfl, ?_⟩
      rw [List.length_take]
      omega
    · rename_i hwhole
      have hlater := F.item_append hitem ((as.flatMap encode).take (n - (encode a).length))
      have hrest := ih (fun b hb => h b (List.mem_cons_of_mem a hb))
        (n := n - (encode a).length) (by omega)
      rw [List.take_of_length_le (by omega), cut_item hlater, List.nil_append, hsize]
      exact hrest

end whole

end items

section weight

variable {weight : α → Nat}

/-- Items that weigh no more than their bytes weigh no more together than all the bytes. -/
theorem sum_weight_le (hsize : ∀ a, weight a ≤ F.size a) (bytes : List UInt8) :
    ((F.cut bytes).items.map weight).sum ≤ bytes.length := by
  induction bytes using cut_induction (F := F) with
  | error bytes e hread =>
    rw [cut_error hread]
    exact Nat.zero_le _
  | none bytes hread =>
    rw [cut_none hread]
    exact Nat.zero_le _
  | item bytes a rest hread ih =>
    rw [cut_item hread, length_of_item hread]
    exact Nat.add_le_add (hsize a) ih

/-- Only the first item takes bytes of those that were waiting. -/
theorem sum_weight_append_le {limit : Nat} (hsize : ∀ a, weight a ≤ F.size a)
    (hlimit : ∀ bytes rest a, F.tryRead bytes = .ok (some (a, rest)) → weight a ≤ limit)
    {waiting : List UInt8} (hwaiting : F.tryRead waiting = .ok none) (more : List UInt8) :
    ((F.cut (waiting ++ more)).items.map weight).sum ≤ limit + more.length := by
  cases hread : F.tryRead (waiting ++ more) with
  | error e =>
    rw [cut_error hread]
    exact Nat.zero_le _
  | ok found =>
    rcases found with _ | ⟨a, rest⟩
    · rw [cut_none hread]
      exact Nat.zero_le _
    · obtain ⟨front, heq, hfront, hitem⟩ := F.whole hread
      have hlonger : waiting.length < front.length := by
        apply Nat.lt_of_not_le
        intro hshort
        have hsplit := List.append_eq_append_iff.mp heq
        rcases hsplit with ⟨tail, rfl, -⟩ | ⟨tail, rfl, -⟩
        · have htail : tail = [] := by
            apply List.eq_nil_of_length_eq_zero
            rw [List.length_append] at hshort
            omega
          subst htail
          rw [List.append_nil] at hitem
          rw [hwaiting] at hitem
          cases hitem
        · have hlater := F.item_append hitem tail
          rw [hwaiting] at hlater
          cases hlater
      have hlength := congrArg List.length heq
      rw [List.length_append, List.length_append] at hlength
      have hrest : ((F.cut rest).items.map weight).sum ≤ more.length :=
        Nat.le_trans (sum_weight_le hsize rest) (by omega)
      rw [cut_item hread]
      exact Nat.add_le_add (hlimit _ _ a hread) hrest

end weight

end Framing

/-- Items that begin with a header of a fixed length, from which their own length is read. -/
structure HeaderFormat (ε α : Type) where
  header : Nat
  length : List UInt8 → Except ε Nat
  header_le : ∀ {bytes n}, length bytes = .ok n → header ≤ n
  /-- What the bytes of one item say. -/
  decode : List UInt8 → Except ε α
  size : α → Nat
  size_pos : ∀ a, 0 < size a
  size_decode : ∀ {bytes a}, length (bytes.take header) = .ok bytes.length →
    decode bytes = .ok a → size a = bytes.length

namespace HeaderFormat

variable {ε α : Type} (H : HeaderFormat ε α)

def tryRead (bytes : List UInt8) : Except ε (Option (α × List UInt8)) :=
  if bytes.length < H.header then .ok none
  else match H.length (bytes.take H.header) with
    | .error e => .error e
    | .ok n =>
      if bytes.length < n then .ok none
      else match H.decode (bytes.take n) with
        | .error e => .error e
        | .ok a => .ok (some (a, bytes.drop n))

variable {H}

section equations

variable {bytes : List UInt8} {n : Nat}

theorem tryRead_short (h : bytes.length < H.header) : H.tryRead bytes = .ok none := if_pos h

theorem tryRead_fault {e : ε} (hheader : ¬ bytes.length < H.header)
    (hlength : H.length (bytes.take H.header) = .error e) : H.tryRead bytes = .error e := by
  rw [tryRead, if_neg hheader, hlength]

theorem tryRead_partial (hheader : ¬ bytes.length < H.header)
    (hlength : H.length (bytes.take H.header) = .ok n) (h : bytes.length < n) :
    H.tryRead bytes = .ok none := by
  rw [tryRead, if_neg hheader, hlength]
  exact if_pos h

theorem tryRead_whole (hheader : ¬ bytes.length < H.header)
    (hlength : H.length (bytes.take H.header) = .ok n) (h : ¬ bytes.length < n) :
    H.tryRead bytes = (H.decode (bytes.take n)).map fun a => some (a, bytes.drop n) := by
  rw [tryRead, if_neg hheader, hlength]
  dsimp only
  rw [if_neg h]
  cases H.decode (bytes.take n) with
  | error e => rfl
  | ok a => rfl

end equations

/-- A reading that found an item saw its header, and as many bytes as the header says. -/
theorem tryRead_item {bytes rest : List UInt8} {a : α} :
    H.tryRead bytes = .ok (some (a, rest)) ↔
      H.header ≤ bytes.length ∧ ∃ n, H.length (bytes.take H.header) = .ok n ∧
        n ≤ bytes.length ∧ H.decode (bytes.take n) = .ok a ∧ bytes.drop n = rest := by
  unfold tryRead
  split
  · refine ⟨nofun, ?_⟩
    rintro ⟨hheader, -⟩
    omega
  · rename_i hheader
    cases hlength : H.length (bytes.take H.header) with
    | error e => exact ⟨nofun, fun ⟨_, n, hn, _⟩ => (nomatch hn)⟩
    | ok n =>
      dsimp only
      split
      · refine ⟨nofun, ?_⟩
        rintro ⟨-, n', hn, hle, -⟩
        cases hn
        omega
      · rename_i hn
        cases hdecode : H.decode (bytes.take n) with
        | error e =>
          refine ⟨nofun, ?_⟩
          rintro ⟨-, n', hn', -, hok, -⟩
          cases hn'
          rw [hdecode] at hok
          cases hok
        | ok b =>
          constructor
          · intro h
            cases h
            exact ⟨by omega, n, rfl, by omega, hdecode, rfl⟩
          · rintro ⟨-, n', hn', -, hok, hrest⟩
            cases hn'
            rw [hdecode] at hok
            cases hok
            rw [hrest]

theorem tryRead_error {bytes : List UInt8} {e : ε} :
    H.tryRead bytes = .error e ↔
      H.header ≤ bytes.length ∧ (H.length (bytes.take H.header) = .error e ∨
        ∃ n, H.length (bytes.take H.header) = .ok n ∧ n ≤ bytes.length ∧
          H.decode (bytes.take n) = .error e) := by
  unfold tryRead
  split
  · refine ⟨nofun, ?_⟩
    rintro ⟨hheader, -⟩
    omega
  · rename_i hheader
    cases hlength : H.length (bytes.take H.header) with
    | error e' =>
      constructor
      · intro h
        cases h
        exact ⟨by omega, .inl rfl⟩
      · rintro ⟨-, h | ⟨n, hn, -⟩⟩
        · cases h
          rfl
        · cases hn
    | ok n =>
      dsimp only
      split
      · refine ⟨nofun, ?_⟩
        rintro ⟨-, h | ⟨n', hn, hle, -⟩⟩
        · cases h
        · cases hn
          omega
      · rename_i hn
        cases hdecode : H.decode (bytes.take n) with
        | error e' =>
          constructor
          · intro h
            cases h
            exact ⟨by omega, .inr ⟨n, rfl, by omega, hdecode⟩⟩
          · rintro ⟨-, h | ⟨n', hn', -, herr⟩⟩
            · cases h
            · cases hn'
              rw [hdecode] at herr
              cases herr
              rfl
        | ok b =>
          refine ⟨nofun, ?_⟩
          rintro ⟨-, h | ⟨n', hn', -, herr⟩⟩
          · cases h
          · cases hn'
            rw [hdecode] at herr
            cases herr

variable (H)

/-- The length in the header makes the reading of an item independent of what follows. -/
def framing : Framing ε α where
  tryRead := H.tryRead
  size := H.size
  size_pos := H.size_pos
  whole := by
    intro bytes rest a h
    obtain ⟨hheader, n, hlength, hn, hdecode, hrest⟩ := tryRead_item.mp h
    have hle := H.header_le hlength
    have hfront : (bytes.take n).length = n := List.length_take_of_le hn
    have htake : (bytes.take n).take H.header = bytes.take H.header := by
      rw [List.take_take, Nat.min_eq_left hle]
    have hwhole : H.length ((bytes.take n).take H.header) = .ok (bytes.take n).length := by
      rw [htake, hfront]
      exact hlength
    refine ⟨bytes.take n, ?_, ?_, ?_⟩
    · rw [← hrest, List.take_append_drop]
    · exact (H.size_decode hwhole hdecode).symm
    · apply tryRead_item.mpr
      refine ⟨by omega, n, htake ▸ hlength, by omega, ?_, ?_⟩
      · rw [List.take_of_length_le (by omega)]
        exact hdecode
      · exact List.drop_of_length_le (by omega)
  item_append := by
    intro bytes rest a h more
    obtain ⟨hheader, n, hlength, hn, hdecode, hrest⟩ := tryRead_item.mp h
    apply tryRead_item.mpr
    rw [List.take_append_of_le_length hheader, List.length_append]
    refine ⟨by omega, n, hlength, by omega, ?_, ?_⟩
    · rw [List.take_append_of_le_length hn]
      exact hdecode
    · rw [List.drop_append_of_le_length hn, hrest]
  error_append := by
    intro bytes e h more
    obtain ⟨hheader, hfault⟩ := tryRead_error.mp h
    apply tryRead_error.mpr
    rw [List.take_append_of_le_length hheader, List.length_append]
    refine ⟨by omega, ?_⟩
    rcases hfault with hlength | ⟨n, hlength, hn, hdecode⟩
    · exact .inl hlength
    · refine .inr ⟨n, hlength, by omega, ?_⟩
      rw [List.take_append_of_le_length hn]
      exact hdecode

end HeaderFormat

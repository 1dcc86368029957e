import PersistShell.Program.Outcome

/-! Readers that go through an input by an offset into it. A place outside of the input must not
be read; such a reader is compared with one that takes what it reads off the front. -/

namespace Indexed

/-- How a reader ends early: it does not take the input, or it reads outside of it. -/
inductive Stop where
  | refused
  | outside
  deriving DecidableEq, Repr

/-- The state is the offset. -/
abbrev Reader := StateT Nat (Except Stop)

variable {σ α β : Type} (input : List σ)

/-- `input[start..stop]`. -/
def slice (start stop : Nat) : Reader (List σ) :=
  if start ≤ stop ∧ stop ≤ input.length then return (input.drop start).take (stop - start)
  else throw .outside

/-- `input[i]`. -/
def element (i : Nat) : Reader σ :=
  match input[i]? with
  | some a => return a
  | none => throw .outside

/-- `if offset + len > input.len() { return None }`. -/
def require (len : Nat) : Reader Unit := do rejectIf ((← get) + len > input.length) .refused

/-- The reader ends as the one that takes from the front does, and never outside of the input. -/
def Simulates (reader : Reader α) (front : StateT (List σ) Option α) : Prop :=
  ∀ offset ≤ input.length,
    front (input.drop offset) = none ∧ reader offset = .error .refused ∨
    ∃ a next, next ≤ input.length ∧ front (input.drop offset) = some (a, input.drop next) ∧
      reader offset = .ok (a, next)

/-- What a decoder answers that reads nothing outside of its input. -/
def answer : Option α → Except Stop α
  | some a => .ok a
  | none => .error .refused

theorem answer_ne_outside (a? : Option α) : answer a? ≠ .error .outside := by
  cases a? <;> exact fun h => by cases h

variable {input} {reader : Reader α} {front : StateT (List σ) Option α}
  {laterReader : α → Reader β} {later : α → StateT (List σ) Option β} {a : α}

theorem reader_bind (offset : Nat) : (reader >>= laterReader) offset =
    (reader offset).bind fun found => laterReader found.1 found.2 := rfl

theorem front_bind (l : List σ) : (front >>= later) l =
    (front l).bind fun found => later found.1 found.2 := rfl

theorem Simulates.pure (a : α) :
    Simulates input (Pure.pure a : Reader α) (Pure.pure a) :=
  fun offset hoffset => .inr ⟨a, offset, hoffset, rfl, rfl⟩

theorem Simulates.bind (h : Simulates input reader front)
    (hlater : ∀ a, Simulates input (laterReader a) (later a)) :
    Simulates input (reader >>= laterReader) (front >>= later) := by
  intro offset hoffset
  rw [reader_bind, front_bind]
  rcases h offset hoffset with ⟨hfront, hreader⟩ | ⟨a, next, hnext, hfront, hreader⟩
  · rw [hfront, hreader]
    exact .inl ⟨rfl, rfl⟩
  · rw [hfront, hreader]
    exact hlater a next hnext

theorem Simulates.branch {c : Prop} [Decidable c] {reader' : Reader α}
    {front' : StateT (List σ) Option α} (h : Simulates input reader front)
    (h' : Simulates input reader' front') :
    Simulates input (if c then reader else reader') (if c then front else front') := by
  split
  · exact h
  · exact h'

/-- Elements read behind a check that they are there. -/
theorem Simulates.required {len : Nat} (value : List σ → α)
    (hshort : ∀ l : List σ, l.length < len → front l = none)
    (hfront : ∀ l : List σ, len ≤ l.length → front l = some (value (l.take len), l.drop len))
    (hreader : ∀ offset, offset + len ≤ input.length →
      reader offset = .ok (value ((input.drop offset).take len), offset + len)) :
    Simulates input (require input len >>= fun _ => reader) front := by
  intro offset hoffset
  have hlength : (input.drop offset).length = input.length - offset := List.length_drop
  have hrequire : (require input len >>= fun _ => reader) offset =
      (rejectIf (offset + len > input.length) Stop.refused >>= fun _ => reader : Reader α) offset := rfl
  rw [hrequire]
  by_cases hfits : offset + len > input.length
  · left
    rw [rejectIf, if_pos hfits]
    exact ⟨hshort _ (by omega), rfl⟩
  · right
    rw [rejectIf, if_neg hfits]
    refine ⟨_, offset + len, by omega, ?_, hreader offset (by omega)⟩
    rw [hfront _ (by omega), List.drop_drop]

theorem slice_eq {start stop : Nat} (h : start ≤ stop ∧ stop ≤ input.length) (offset : Nat) :
    slice input start stop offset = .ok ((input.drop start).take (stop - start), offset) := by
  rw [slice, if_pos h]
  rfl

theorem element_eq {i : Nat} (h : i < input.length) (offset : Nat) :
    element input i offset = .ok (input[i], offset) := by
  rw [element, List.getElem?_eq_getElem h]
  rfl

/-- What a reader that starts at the front says, whatever the input is. -/
theorem Simulates.run_eq (h : Simulates input reader front) :
    reader.run' 0 = answer (front.run' input) := by
  have hrun : reader.run' 0 = (reader 0).map (·.1) := rfl
  have hfrontRun : front.run' input = (front input).map (·.1) := rfl
  rw [hrun, hfrontRun]
  rcases h 0 (Nat.zero_le _) with ⟨hfront, hreader⟩ | ⟨a, next, -, hfront, hreader⟩
  · rw [List.drop_zero] at hfront
    rw [hfront, hreader]
    rfl
  · rw [List.drop_zero] at hfront
    rw [hfront, hreader]
    rfl

end Indexed

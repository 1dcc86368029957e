import PersistShell.Program.ByteQueue

/-! A queue over its life: chunks are put in, and writes take bytes out, more or fewer of them. -/

namespace ByteQueue

/-- The bytes that wait. -/
def pending (q : ByteQueue) : List UInt8 := q.chunks.flatten.drop q.offset

section flushed

variable {τ : Type}

/-- Writes the queue out, each answer to one write, until a write takes nothing: the bytes that
were taken, and the queue that is left. -/
def flushed (takes : τ → List UInt8 → Nat) (last : τ) :
    Nat → List τ → ByteQueue → List UInt8 × ByteQueue
  | 0, _, q => ([], q)
  | fuel + 1, answers, q =>
    match q.front with
    | none => ([], q)
    | some front =>
      let count := takes (answers.headD last) front
      if count = 0 then ([], q)
      else
        let later := flushed takes last fuel answers.tail (q.advance count)
        (front.take count ++ later.1, later.2)

end flushed

/-- The accepted chunks are those that are written and those that wait. -/
def Carried (q : ByteQueue) (accepted : List (List UInt8)) (written : List UInt8) : Prop :=
  ∃ done waiting, accepted = done ++ waiting ∧ q.Carries id done waiting written

namespace Carried

variable {q : ByteQueue} {accepted : List (List UInt8)} {written : List UInt8}

theorem empty : Carried {} [] [] := ⟨[], [], rfl, Carries.empty⟩

theorem sound (h : q.Carried accepted written) : q.Sound :=
  let ⟨_, _, _, hcarries⟩ := h
  hcarries.sound

theorem push (h : q.Carried accepted written) {chunk : List UInt8} (hne : chunk ≠ []) :
    (q.push chunk).Carried (accepted ++ [chunk]) written := by
  obtain ⟨done, waiting, rfl, hcarries⟩ := h
  exact ⟨done, waiting ++ [chunk], (List.append_assoc _ _ _), hcarries.push (a := chunk) hne⟩

theorem advance (h : q.Carried accepted written) {front : List UInt8} (hfront : q.front = some front)
    {count : Nat} (hcount : count ≤ front.length) :
    (q.advance count).Carried accepted (written ++ front.take count) := by
  obtain ⟨done, waiting, rfl, hcarries⟩ := h
  obtain ⟨finished, waiting', rfl, hadvanced⟩ := hcarries.advance hfront hcount
  exact ⟨done ++ finished, waiting', (List.append_assoc _ _ _).symm, hadvanced⟩

/-- Nothing is lost: what is written and what waits is what was accepted. -/
theorem written_pending (h : q.Carried accepted written) :
    written ++ q.pending = accepted.flatten := by
  obtain ⟨done, waiting, rfl, hcarries⟩ := h
  rw [pending, hcarries.written, List.append_assoc, List.take_append_drop, hcarries.chunks,
    List.map_id, List.flatMap_id, List.flatten_append]

/-- The count of bytes is exact. -/
theorem bytes_eq (h : q.Carried accepted written) : q.bytes = q.pending.length := by
  have hbytes := h.sound.bytes
  rw [pending, List.length_drop]
  omega

theorem front_ne (h : q.Carried accepted written) {front : List UInt8}
    (hfront : q.front = some front) : front ≠ [] := by
  obtain ⟨chunk, hchunk, rfl⟩ := Option.map_eq_some_iff.mp hfront
  have hlt := h.sound.offset_lt chunk hchunk
  intro hnil
  have hlength := congrArg List.length hnil
  rw [List.length_drop, List.length_nil] at hlength
  omega

end Carried

theorem pending_of_front {q : ByteQueue} (hfront : q.front = none) : q.pending = [] := by
  have hchunks : q.chunks = [] := by
    cases hq : q.chunks with
    | nil => rfl
    | cons chunk rest =>
      rw [ByteQueue.front, hq] at hfront
      cases hfront
  rw [pending, hchunks]
  exact List.drop_nil

section answers

variable {τ : Type} {takes : τ → List UInt8 → Nat} {last : τ} {q : ByteQueue}
  {accepted : List (List UInt8)} {written : List UInt8}

theorem flushed_succ {front : List UInt8} (hfront : q.front = some front) (fuel : Nat)
    (answers : List τ) (hcount : takes (answers.headD last) front ≠ 0) :
    q.flushed takes last (fuel + 1) answers =
      (front.take (takes (answers.headD last) front) ++
        ((q.advance (takes (answers.headD last) front)).flushed takes last fuel answers.tail).1,
      ((q.advance (takes (answers.headD last) front)).flushed takes last fuel answers.tail).2) := by
  rw [flushed, hfront]
  exact if_neg hcount

theorem flushed_stops {fuel : Nat} {answers : List τ}
    (h : ∀ front, q.front = some front → takes (answers.headD last) front = 0) :
    q.flushed takes last fuel answers = ([], q) := by
  cases fuel with
  | zero => rfl
  | succ fuel =>
    rw [flushed]
    cases hfront : q.front with
    | none => rfl
    | some front => exact if_pos (h front hfront)

/-- However many of the writes go through, what they take is added to what was written. -/
theorem Carried.flushed (htakes : ∀ answer front, takes answer front ≤ front.length)
    (h : q.Carried accepted written) (fuel : Nat) (answers : List τ) :
    (q.flushed takes last fuel answers).2.Carried accepted
      (written ++ (q.flushed takes last fuel answers).1) := by
  induction fuel generalizing q written answers with
  | zero =>
    rw [ByteQueue.flushed, List.append_nil]
    exact h
  | succ fuel ih =>
    by_cases hstops : ∀ front, q.front = some front → takes (answers.headD last) front = 0
    · rw [flushed_stops hstops, List.append_nil]
      exact h
    · obtain ⟨front, hstops⟩ := Classical.not_forall.mp hstops
      obtain ⟨hfront, hcount⟩ := Classical.not_imp.mp hstops
      rw [flushed_succ hfront fuel answers hcount, ← List.append_assoc]
      exact ih (h.advance hfront (htakes _ _)) answers.tail

/-- A flush whose first write goes through gets on. -/
theorem flushed_progress (fuel : Nat) {answers : List τ} (h : q.Carried accepted written)
    (hpending : q.pending ≠ []) (hfirst : ∀ front, front ≠ [] → takes (answers.headD last) front ≠ 0) :
    (q.flushed takes last (fuel + 1) answers).1 ≠ [] := by
  cases hfront : q.front with
  | none => exact absurd (pending_of_front hfront) hpending
  | some front =>
    have hne := h.front_ne hfront
    have hcount := hfirst front hne
    rw [flushed_succ hfront fuel answers hcount]
    intro hnil
    obtain ⟨htake, -⟩ := List.append_eq_nil_iff.mp hnil
    exact (List.take_eq_nil_iff.mp htake).elim hcount hne

end answers

end ByteQueue

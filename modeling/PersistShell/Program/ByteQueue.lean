/-! A queue of byte chunks that is written out from the front, possibly a part of a chunk at a
time. -/

structure ByteQueue where
  chunks : List (List UInt8) := []
  /-- How much of the first chunk is already written. -/
  offset : Nat := 0
  /-- How many bytes are still to be written. -/
  bytes : Nat := 0
  deriving DecidableEq, Repr

namespace ByteQueue

def push (q : ByteQueue) (chunk : List UInt8) : ByteQueue :=
  { q with chunks := q.chunks ++ [chunk], bytes := q.bytes + chunk.length }

def isEmpty (q : ByteQueue) : Bool := q.chunks.isEmpty

/-- The bytes that the next write is given. -/
def front (q : ByteQueue) : Option (List UInt8) := q.chunks.head?.map fun chunk => chunk.drop q.offset

/-- After `count` bytes of the first chunk went out. -/
def advance (q : ByteQueue) (count : Nat) : ByteQueue :=
  match q.chunks with
  | [] => q
  | chunk :: rest =>
    if q.offset + count = chunk.length then
      { chunks := rest, offset := 0, bytes := q.bytes - count }
    else { q with offset := q.offset + count, bytes := q.bytes - count }

/-- How many bytes the chunks still hold. -/
def left (q : ByteQueue) : Nat := q.chunks.flatten.length - q.offset

theorem left_advance_lt {q : ByteQueue} {front : List UInt8} {count : Nat}
    (hfront : q.front = some front) (hpos : 0 < count) (hle : count ≤ front.length) :
    (q.advance count).left < q.left := by
  obtain ⟨chunks, offset, bytes⟩ := q
  cases chunks with
  | nil => cases hfront
  | cons chunk rest =>
    cases hfront
    simp only [List.length_drop] at hle
    simp only [advance, left, List.flatten_cons, List.length_append]
    split
    · simp only [Nat.sub_zero]
      omega
    · simp only [List.flatten_cons, List.length_append]
      omega

/-- What a queue says about the items that were put into it: those that are written whole,
those that wait, and the bytes that came out. -/
structure Carries {α : Type} (encode : α → List UInt8) (q : ByteQueue) (done waiting : List α)
    (written : List UInt8) : Prop where
  chunks : q.chunks = waiting.map encode
  filled : ∀ chunk ∈ q.chunks, chunk ≠ []
  written : written = done.flatMap encode ++ q.chunks.flatten.take q.offset
  offset_lt : ∀ chunk ∈ q.chunks.head?, q.offset < chunk.length
  offset_nil : q.chunks = [] → q.offset = 0
  bytes : q.bytes + q.offset = q.chunks.flatten.length

namespace Carries

variable {α : Type} {encode : α → List UInt8} {q : ByteQueue} {done waiting : List α}
  {written : List UInt8}

theorem empty : Carries encode {} [] [] [] := by
  constructor
  · rfl
  · intro chunk hchunk
    cases hchunk
  · rfl
  · intro chunk hchunk
    cases hchunk
  · exact fun _ => rfl
  · rfl

/-- What came out is the front of what was put in. -/
theorem written_prefix (h : Carries encode q done waiting written) :
    written <+: (done ++ waiting).flatMap encode := by
  refine ⟨q.chunks.flatten.drop q.offset, ?_⟩
  rw [h.written, List.append_assoc, List.take_append_drop, h.chunks, List.flatMap_append,
    List.flatMap_def (l := waiting)]

theorem waiting_nil (h : Carries encode q done waiting written) (hempty : q.chunks = []) :
    waiting = [] := by
  rw [h.chunks, List.map_eq_nil_iff] at hempty
  exact hempty

theorem bytes_nil (h : Carries encode q done waiting written) (hempty : q.chunks = []) :
    q.bytes = 0 := by
  have hbytes := h.bytes
  rw [hempty, List.flatten_nil, List.length_nil] at hbytes
  omega

theorem chunks_nil (h : Carries encode q done waiting written) (hempty : q.bytes = 0) :
    q.chunks = [] := by
  rcases hq : q.chunks with _ | ⟨first, rest⟩
  · rfl
  · have hbytes := h.bytes
    have hlt := h.offset_lt first (by rw [hq]; rfl)
    rw [hq, List.flatten_cons, List.length_append] at hbytes
    omega

/-- The items that are written whole are there whole. -/
theorem done_prefix (h : Carries encode q done waiting written) :
    done.flatMap encode <+: written := by
  rw [h.written]
  exact List.prefix_append _ _

theorem push (h : Carries encode q done waiting written) {a : α} (ha : encode a ≠ []) :
    Carries encode (q.push (encode a)) done (waiting ++ [a]) written := by
  have hpos : 0 < (encode a).length := List.length_pos_iff.mpr ha
  have hwithin : q.offset ≤ q.chunks.flatten.length := by
    have := h.bytes
    omega
  constructor
  · rw [ByteQueue.push, List.map_append, h.chunks]
    rfl
  · intro chunk hchunk
    rcases List.mem_append.mp hchunk with hold | hnew
    · exact h.filled chunk hold
    · rw [List.mem_singleton.mp hnew]
      exact ha
  · simp only [ByteQueue.push, List.flatten_append]
    rw [List.take_append_of_le_length hwithin]
    exact h.written
  · intro chunk hchunk
    rcases hq : q.chunks with _ | ⟨first, rest⟩
    · have hoffset := h.offset_nil hq
      simp only [ByteQueue.push, hq, List.nil_append, List.head?_cons, Option.mem_def,
        Option.some.injEq] at hchunk
      subst hchunk
      simp only [ByteQueue.push, hoffset]
      exact hpos
    · simp only [ByteQueue.push, hq, List.cons_append, List.head?_cons, Option.mem_def,
        Option.some.injEq] at hchunk
      subst hchunk
      exact h.offset_lt first (by rw [hq]; rfl)
  · intro hnil
    simp only [ByteQueue.push, List.append_eq_nil_iff, List.cons_ne_nil, and_false] at hnil
  · have := h.bytes
    simp only [ByteQueue.push, List.flatten_append, List.length_append, List.flatten_cons,
      List.flatten_nil, List.append_nil]
    omega

/-- A write moves the items that it finishes from those that wait to those that are done. -/
theorem advance (h : Carries encode q done waiting written) {front : List UInt8}
    (hfront : q.front = some front) {count : Nat} (hcount : count ≤ front.length) :
    ∃ finished waiting', waiting = finished ++ waiting' ∧
      Carries encode (q.advance count) (done ++ finished) waiting'
        (written ++ front.take count) := by
  rcases waiting with _ | ⟨a, waiting⟩
  · have hchunks := h.chunks
    rw [List.map_nil] at hchunks
    rw [ByteQueue.front, hchunks] at hfront
    cases hfront
  · have hchunks := h.chunks
    rw [List.map_cons] at hchunks
    have hbytes := h.bytes
    have hlt := h.offset_lt (encode a) (by rw [hchunks]; rfl)
    have hwritten := h.written
    rw [ByteQueue.front, hchunks] at hfront
    cases hfront
    rw [hchunks, List.flatten_cons, List.take_append_of_le_length (Nat.le_of_lt hlt)] at hwritten
    rw [hchunks, List.flatten_cons, List.length_append] at hbytes
    rw [List.length_drop] at hcount
    have htake : (encode a).take q.offset ++ ((encode a).drop q.offset).take count =
        (encode a).take (q.offset + count) := by
      rw [List.take_add]
    by_cases hend : q.offset + count = (encode a).length
    · refine ⟨[a], waiting, rfl, ?_⟩
      have hqueue : q.advance count =
          { chunks := waiting.map encode, offset := 0, bytes := q.bytes - count } := by
        rw [ByteQueue.advance, hchunks]
        exact if_pos hend
      rw [hqueue]
      have hfilled : ∀ chunk ∈ waiting.map encode, chunk ≠ [] := by
        intro chunk hchunk
        apply h.filled chunk
        rw [hchunks]
        exact List.mem_cons_of_mem _ hchunk
      constructor
      · rfl
      · exact hfilled
      · rw [hwritten, List.append_assoc, htake, hend, List.take_length, List.take_zero,
          List.append_nil, List.flatMap_append, List.flatMap_cons, List.flatMap_nil,
          List.append_nil]
      · intro chunk hchunk
        exact List.length_pos_iff.mpr (hfilled chunk (List.mem_of_mem_head? hchunk))
      · exact fun _ => rfl
      · show q.bytes - count + 0 = (waiting.map encode).flatten.length
        omega
    · refine ⟨[], a :: waiting, rfl, ?_⟩
      have hqueue : q.advance count =
          { q with offset := q.offset + count, bytes := q.bytes - count } := by
        rw [ByteQueue.advance, hchunks]
        exact if_neg hend
      rw [hqueue]
      constructor
      · rw [List.map_cons]
        exact hchunks
      · exact h.filled
      · rw [hwritten, hchunks, List.append_assoc, htake, List.append_nil, List.flatten_cons,
          List.take_append_of_le_length (i := q.offset + count) (by omega)]
      · intro chunk hchunk
        rw [hchunks] at hchunk
        cases hchunk
        show q.offset + count < _
        omega
      · intro hnil
        rw [hchunks] at hnil
        cases hnil
      · rw [hchunks, List.flatten_cons, List.length_append]
        show q.bytes - count + (q.offset + count) = _
        omega

end Carries

/-- The counts fit the chunks. -/
structure Sound (q : ByteQueue) : Prop where
  filled : ∀ chunk ∈ q.chunks, chunk ≠ []
  offset_lt : ∀ chunk ∈ q.chunks.head?, q.offset < chunk.length
  offset_nil : q.chunks = [] → q.offset = 0
  bytes : q.bytes + q.offset = q.chunks.flatten.length

section sound

variable {q : ByteQueue}

theorem Carries.sound {α : Type} {encode : α → List UInt8} {done waiting : List α}
    {written : List UInt8} (h : Carries encode q done waiting written) : q.Sound :=
  ⟨h.filled, h.offset_lt, h.offset_nil, h.bytes⟩

/-- A queue carries its own chunks. -/
theorem Sound.carries (h : q.Sound) :
    Carries id q [] q.chunks (q.chunks.flatten.take q.offset) :=
  ⟨(List.map_id _).symm, h.filled, rfl, h.offset_lt, h.offset_nil, h.bytes⟩

theorem Sound.empty : Sound {} := by
  have hempty : Carries id {} [] [] [] := Carries.empty
  exact hempty.sound

theorem Sound.push (h : q.Sound) {chunk : List UInt8} (hne : chunk ≠ []) : (q.push chunk).Sound :=
  (h.carries.push (a := chunk) hne).sound

theorem Sound.advance (h : q.Sound) {front : List UInt8} (hfront : q.front = some front)
    {count : Nat} (hcount : count ≤ front.length) : (q.advance count).Sound :=
  let ⟨_, _, _, hcarries⟩ := h.carries.advance hfront hcount
  hcarries.sound

theorem bytes_advance_le (q : ByteQueue) (count : Nat) : (q.advance count).bytes ≤ q.bytes := by
  unfold ByteQueue.advance
  split
  · exact Nat.le_refl _
  · split <;> exact Nat.sub_le _ _

end sound

theorem left_le (q : ByteQueue) : q.left ≤ q.chunks.flatten.length := Nat.sub_le _ _

end ByteQueue

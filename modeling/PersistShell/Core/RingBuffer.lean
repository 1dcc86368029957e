import Mathlib.Data.List.DropRight

/-! The byte ring that keeps the end of a session's output for replay. A buffer cannot be
built without room, and its write position is always inside it. -/

namespace PersistShell

abbrev Bytes := List UInt8

structure RingBuffer where
  buffer : Bytes
  capacity : Nat
  writePos : Nat
  filled : Bool
  buffer_length : buffer.length = capacity
  writePos_lt : writePos < capacity
  deriving DecidableEq, Repr

namespace RingBuffer

/-- `none` where the source asserts that the capacity is positive. -/
def new (capacity : Nat) : Option RingBuffer :=
  if h : 0 < capacity then
    some ⟨List.replicate capacity 0, capacity, 0, false, List.length_replicate, h⟩
  else none

/-- One pass of the write loop: as much of `remaining` as fits before the end. -/
def writeChunk (r : RingBuffer) (remaining : Bytes) : RingBuffer :=
  let toWrite := min remaining.length (r.capacity - r.writePos)
  let buffer := r.buffer.take r.writePos ++ remaining.take toWrite ++
    r.buffer.drop (r.writePos + toWrite)
  have hlength : buffer.length = r.capacity := by
    have := r.buffer_length
    have := r.writePos_lt
    simp only [buffer, toWrite, List.length_append, List.length_take, List.length_drop]
    omega
  if h : r.writePos + toWrite < r.capacity then
    ⟨buffer, r.capacity, r.writePos + toWrite, r.filled, hlength, h⟩
  else
    ⟨buffer, r.capacity, 0, true, hlength, Nat.zero_lt_of_lt r.writePos_lt⟩

/-- The write loop. Every pass stores a byte, so it ends within as many passes as there are
bytes. -/
def writeLoop : Nat → RingBuffer → Bytes → RingBuffer
  | 0, r, _ => r
  | _ + 1, r, [] => r
  | fuel + 1, r, remaining =>
      writeLoop fuel (r.writeChunk remaining)
        (remaining.drop (min remaining.length (r.capacity - r.writePos)))

def write (r : RingBuffer) (data : Bytes) : RingBuffer := writeLoop data.length r data

def len (r : RingBuffer) : Nat := if r.filled then r.capacity else r.writePos

def readAll (r : RingBuffer) : Bytes :=
  (if r.filled then r.buffer.drop r.writePos else []) ++ r.buffer.take r.writePos

def readReplay (r : RingBuffer) (maxBytes : Nat) : Bytes :=
  if r.len = 0 then [] else r.readAll.drop (r.len - maxBytes)

section contents
variable {r : RingBuffer} {data : Bytes}

theorem length_readAll (r : RingBuffer) : r.readAll.length = r.len := by
  have := r.buffer_length
  have := r.writePos_lt
  cases h : r.filled <;> simp [readAll, len, h] <;> omega

theorem len_le_capacity (r : RingBuffer) : r.len ≤ r.capacity := by
  have := r.writePos_lt
  cases h : r.filled <;> simp [len, h]
  omega

theorem capacity_writeChunk (r : RingBuffer) (data : Bytes) :
    (r.writeChunk data).capacity = r.capacity := by
  unfold writeChunk
  dsimp only
  split <;> rfl

/-- A pass moves the end of the stored bytes forward by the bytes it stores. -/
theorem readAll_writeChunk (r : RingBuffer) (data : Bytes) :
    (r.writeChunk data).readAll = (r.readAll ++
      data.take (min data.length (r.capacity - r.writePos))).rtake r.capacity := by
  obtain ⟨buffer, capacity, pos, filled, hlength, hpos⟩ := r
  subst hlength
  generalize hn : min data.length (buffer.length - pos) = n
  have hchunk : (data.take n).length = n := by rw [List.length_take]; omega
  have htake : (buffer.take pos).length = pos := by rw [List.length_take]; omega
  have hfront : (buffer.take pos ++ data.take n).length = pos + n := by
    rw [List.length_append, htake, hchunk]
  by_cases hend : pos + n < buffer.length
  · simp only [writeChunk, readAll, hn, List.rtake, dif_pos hend]
    rw [List.take_left' hfront, List.drop_left' hfront]
    cases filled
    · rw [if_neg Bool.false_ne_true, if_neg Bool.false_ne_true, List.nil_append, List.nil_append,
        hfront, show pos + n - buffer.length = 0 by omega, List.drop_zero]
    · have hskip : (buffer.drop pos ++ buffer.take pos ++ data.take n).length - buffer.length
          = n := by
        simp only [List.length_append, List.length_drop, htake, hchunk]
        omega
      rw [if_pos rfl, if_pos rfl, hskip, List.append_assoc, List.drop_append_of_le_length,
        List.drop_drop]
      rw [List.length_drop]
      omega
  · have hfull : pos + n = buffer.length := by omega
    have hrest : buffer.drop (pos + n) = [] := List.drop_of_length_le hfull.ge
    simp only [writeChunk, readAll, hn, List.rtake, dif_neg hend, hrest]
    rw [if_pos trivial, List.take_zero, List.drop_zero, List.append_nil, List.append_nil]
    cases filled
    · rw [if_neg Bool.false_ne_true, List.nil_append, hfront, hfull, Nat.sub_self, List.drop_zero]
    · have hskip : (buffer.drop pos ++ buffer.take pos ++ data.take n).length - buffer.length
          = (buffer.drop pos).length := by
        simp only [List.length_append, List.length_drop, htake, hchunk]
        omega
      rw [if_pos rfl, hskip, List.append_assoc, List.drop_left]

theorem rtake_append_rtake (xs ys : Bytes) (n : Nat) :
    (xs.rtake n ++ ys).rtake n = (xs ++ ys).rtake n := by
  have hcut : xs.drop (xs.length - n) ++ ys = (xs ++ ys).drop (xs.length - n) :=
    (List.drop_append_of_le_length (by omega)).symm
  simp only [List.rtake]
  rw [hcut, List.drop_drop, List.length_drop, List.length_append]
  congr 1
  omega

theorem writeLoop_cons (fuel : Nat) (r : RingBuffer) (b : UInt8) (bs : Bytes) :
    writeLoop (fuel + 1) r (b :: bs) = writeLoop fuel (r.writeChunk (b :: bs))
      ((b :: bs).drop (min (b :: bs).length (r.capacity - r.writePos))) := rfl

theorem readAll_writeLoop {fuel : Nat} (h : data.length ≤ fuel) :
    (writeLoop fuel r data).readAll = (r.readAll ++ data).rtake r.capacity := by
  have hfits : r.readAll.length ≤ r.capacity := (length_readAll r).trans_le (len_le_capacity r)
  induction fuel generalizing r data with
  | zero =>
    rw [List.eq_nil_of_length_eq_zero (Nat.le_zero.mp h), writeLoop, List.append_nil, List.rtake,
      Nat.sub_eq_zero_of_le hfits, List.drop_zero]
  | succ fuel ih =>
    cases data with
    | nil =>
      rw [writeLoop, List.append_nil, List.rtake, Nat.sub_eq_zero_of_le hfits, List.drop_zero]
    | cons b bs =>
      have := r.writePos_lt
      generalize hn : min (b :: bs).length (r.capacity - r.writePos) = n
      have hpos : 0 < n := by simp only [List.length_cons] at hn; omega
      rw [writeLoop_cons, hn, ih]
      · rw [capacity_writeChunk, readAll_writeChunk, hn, rtake_append_rtake, List.append_assoc,
          List.take_append_drop]
      · simp only [List.length_drop, List.length_cons] at h ⊢
        omega
      · exact (length_readAll _).trans_le (len_le_capacity _)

/-- The buffer holds the end of everything written to it. -/
theorem readAll_write (r : RingBuffer) (data : Bytes) :
    (r.write data).readAll = (r.readAll ++ data).rtake r.capacity :=
  readAll_writeLoop le_rfl

theorem capacity_writeLoop (fuel : Nat) (r : RingBuffer) (data : Bytes) :
    (writeLoop fuel r data).capacity = r.capacity := by
  induction fuel generalizing r data with
  | zero => rfl
  | succ fuel ih =>
    cases data with
    | nil => rfl
    | cons b bs => rw [writeLoop_cons, ih, capacity_writeChunk]

theorem capacity_write (r : RingBuffer) (data : Bytes) :
    (r.write data).capacity = r.capacity :=
  capacity_writeLoop _ r data

theorem readAll_of_new {capacity : Nat} (h : new capacity = some r) : r.readAll = [] := by
  simp only [new] at h
  split at h
  · cases h
    rfl
  · cases h

theorem capacity_of_new {capacity : Nat} (h : new capacity = some r) : r.capacity = capacity := by
  simp only [new] at h
  split at h
  · cases h
    rfl
  · cases h

/-- Over any number of writes, the buffer holds the end of all bytes written since it was
made. -/
theorem readAll_foldl_write {capacity : Nat} (h : new capacity = some r) (chunks : List Bytes) :
    (chunks.foldl write r).readAll = chunks.flatten.rtake capacity := by
  have hcap : ∀ chunks : List Bytes, (chunks.foldl write r).capacity = capacity := by
    intro chunks
    induction chunks using List.reverseRecOn with
    | nil => exact capacity_of_new h
    | append_singleton chunks chunk ih =>
      rw [List.foldl_append, List.foldl_cons, List.foldl_nil, capacity_write, ih]
  induction chunks using List.reverseRecOn with
  | nil =>
    rw [List.foldl_nil, readAll_of_new h, List.flatten_nil, List.rtake_nil]
  | append_singleton chunks chunk ih =>
    rw [List.foldl_append, List.foldl_cons, List.foldl_nil, readAll_write, hcap, ih,
      rtake_append_rtake, List.flatten_append, List.flatten_singleton]

theorem length_rtake (xs : Bytes) (n : Nat) : (xs.rtake n).length = min n xs.length := by
  rw [List.rtake, List.length_drop]
  omega

/-- Reading back for replay gives the end of what is stored. -/
theorem readReplay_eq (r : RingBuffer) (maxBytes : Nat) :
    r.readReplay maxBytes = r.readAll.rtake maxBytes := by
  unfold readReplay
  split
  · rename_i hempty
    have hnil : r.readAll = [] :=
      List.eq_nil_of_length_eq_zero ((length_readAll r).trans hempty)
    rw [hnil, List.rtake_nil]
  · rw [List.rtake, length_readAll]

/-- The buffer is the end of what was written, as long as its capacity or as all of it. -/
theorem refines_suffix {capacity : Nat} (h : 0 < capacity) (chunks : List Bytes) :
    ∃ r, new capacity = some r ∧
      (chunks.foldl write r).readAll = chunks.flatten.rtake (min capacity chunks.flatten.length) ∧
      (chunks.foldl write r).len = min capacity chunks.flatten.length ∧
      ∀ n, (chunks.foldl write r).readReplay n =
        chunks.flatten.rtake (min n (chunks.foldl write r).len) := by
  obtain ⟨r, hnew⟩ : ∃ r, new capacity = some r := ⟨_, dif_pos h⟩
  have hread := readAll_foldl_write hnew chunks
  have hlen : (chunks.foldl write r).len = min capacity chunks.flatten.length := by
    rw [← length_readAll, hread, length_rtake]
  refine ⟨r, hnew, ?_, hlen, fun n => ?_⟩
  · rw [hread, List.rtake, List.rtake]
    congr 1
    omega
  · rw [readReplay_eq, hread, hlen, List.rtake, length_rtake, List.rtake, List.rtake, List.drop_drop]
    congr 1
    omega

theorem refines_suffix_four : ∃ r, new 4 = some r ∧
    ([[1, 2, 3], [], [4, 5]].foldl write r).readAll = [2, 3, 4, 5] := by
  obtain ⟨r, hnew, hread, -⟩ := refines_suffix (show 0 < 4 by decide) [[1, 2, 3], [], [4, 5]]
  exact ⟨r, hnew, hread⟩

example : ((new 4).map fun r => ((r.write [1, 2, 3]).write [4, 5]).readAll) =
    some [2, 3, 4, 5] := by decide

end contents

end RingBuffer

end PersistShell

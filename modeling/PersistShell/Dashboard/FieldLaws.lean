import PersistShell.Dashboard.Format
import PersistShell.Ipc.Codec
import PersistShell.Program.Reading

/-! Laws of the fields of the metrics: each is read from the bytes that it is written to, whatever
comes behind them, and from no others. -/

namespace PersistShell

namespace Metric.FieldReader

open Reading

variable {α β : Type} {m : FieldReader α} {f : α → FieldReader β}

section extends_

theorem extends_reject (c : Prop) [Decidable c] (e : FormatError) :
    Extends (rejectIf c e : FieldReader Unit) := by
  unfold rejectIf
  split
  · exact Extends.throw e
  · exact Extends.pure ()

/-- A check of how much is left. -/
theorem extends_check (n : Nat) (e : FormatError) (hm : Extends m) :
    Extends (do rejectIf (n > (← get).length) e; m : FieldReader α) := by
  intro input a rest h more
  obtain ⟨left, _, hleft, hchecked⟩ := Reading.bind_eq_ok.mp h
  cases hleft
  obtain ⟨_, kept, hreject, hread⟩ := Reading.bind_eq_ok.mp hchecked
  have hkept : ¬ n > input.length ∧ kept = input := by
    unfold rejectIf at hreject
    split at hreject
    · cases hreject
    · rename_i hfits
      cases hreject
      exact ⟨hfits, rfl⟩
  obtain ⟨hfits, rfl⟩ := hkept
  refine Reading.bind_eq_ok.mpr ⟨_, _, rfl, Reading.bind_eq_ok.mpr ⟨(), _, ?_, hm _ _ _ hread more⟩⟩
  rw [rejectIf, if_neg (by rw [List.length_append]; omega)]
  rfl

theorem extends_take (len : Nat) : Extends (take len) := by
  intro input a rest h more
  unfold take at h ⊢
  split at h
  · cases h
  · rename_i hlen
    cases h
    rw [if_neg (by rw [List.length_append]; omega),
      List.take_append_of_le_length (Nat.le_of_not_lt hlen),
      List.drop_append_of_le_length (Nat.le_of_not_lt hlen)]

theorem extends_unsigned (width : Nat) : Extends (unsigned width) :=
  (extends_take width).bind fun _ => .pure _

theorem extends_u32 : Extends u32 := (extends_unsigned 4).bind fun _ => .pure _

theorem extends_u64 : Extends u64 := (extends_unsigned 8).bind fun _ => .pure _

theorem extends_completeness : Extends completeness := by
  refine (extends_unsigned 1).bind fun value => ?_
  split
  · exact .pure _
  · exact .pure _
  · exact .pure _
  · exact .pure _
  · exact .throw _

theorem extends_point : Extends point :=
  extends_u64.bind fun _ => extends_u32.bind fun _ => extends_u32.bind fun _ =>
    extends_u64.bind fun _ => extends_u64.bind fun _ => extends_u64.bind fun _ =>
    extends_u64.bind fun _ => extends_u32.bind fun _ => extends_u32.bind fun _ =>
    extends_u32.bind fun _ => extends_u32.bind fun _ => extends_u32.bind fun _ => .pure _

theorem extends_sessions (count : Nat) (seen : List UInt32) : Extends (sessions count seen) := by
  induction count generalizing seen with
  | zero => exact .pure _
  | succ count ih =>
    exact extends_u32.bind fun _ => (extends_reject _ _).bind fun _ =>
      extends_completeness.bind fun _ => extends_point.bind fun _ => (ih _).bind fun _ => .pure _

theorem extends_minute : Extends minute :=
  extends_u64.bind fun _ => extends_completeness.bind fun _ => extends_point.bind fun _ =>
    (extends_unsigned 2).bind fun _ =>
      extends_check _ _ ((extends_sessions _ _).bind fun _ => .pure _)

end extends_

section takes

theorem takes_take (len : Nat) :
    Takes (take len) fun field bytes => field = bytes ∧ bytes.length = len := by
  intro input a rest h
  unfold take at h
  split at h
  · cases h
  · rename_i hlen
    cases h
    exact ⟨input.take len, (List.take_append_drop len input).symm, rfl,
      List.length_take_of_le (Nat.le_of_not_lt hlen)⟩

theorem takes_unsigned (width : Nat) : Takes (unsigned width) fun value bytes =>
    value < 256 ^ width ∧ bytes = toBeBytes width value := by
  refine (takes_take width).bind fun field front h => .pure ?_
  obtain ⟨rfl, rfl⟩ := h
  exact ⟨fromBeBytes_lt field, by rw [List.append_nil, toBeBytes_fromBeBytes]⟩

theorem takes_u32 : Takes u32 fun value bytes => bytes = putU32 value := by
  refine (takes_unsigned 4).bind fun value front h => .pure ?_
  obtain ⟨hlt, rfl⟩ := h
  rw [List.append_nil, putU32, UInt32.toNat_ofNat_of_lt' hlt]

theorem takes_u64 : Takes u64 fun value bytes => bytes = putU64 value := by
  refine (takes_unsigned 8).bind fun value front h => .pure ?_
  obtain ⟨hlt, rfl⟩ := h
  rw [List.append_nil, putU64, UInt64.toNat_ofNat_of_lt' hlt]

theorem takes_completeness :
    Takes completeness fun value bytes => bytes = encodeCompleteness value := by
  refine (takes_unsigned 1).bind fun value front h => ?_
  obtain ⟨-, rfl⟩ := h
  split
  · exact .pure rfl
  · exact .pure rfl
  · exact .pure rfl
  · exact .pure rfl
  · exact .throw _

theorem takes_reject (c : Prop) [Decidable c] (e : FormatError) :
    Takes (rejectIf c e : FieldReader Unit) fun _ bytes => ¬ c ∧ bytes = [] := by
  unfold rejectIf
  split
  · exact .throw e
  · rename_i hc
    exact .pure ⟨hc, rfl⟩

theorem takes_get : Takes (get : FieldReader Bytes) fun _ bytes => bytes = [] := by
  intro input a rest h
  cases h
  exact ⟨[], rfl, rfl⟩

theorem takes_point : Takes point fun value bytes => bytes = encodePoint value := by
  refine takes_u64.bind fun _ _ h₁ => takes_u32.bind fun _ _ h₂ => takes_u32.bind fun _ _ h₃ =>
    takes_u64.bind fun _ _ h₄ => takes_u64.bind fun _ _ h₅ => takes_u64.bind fun _ _ h₆ =>
    takes_u64.bind fun _ _ h₇ => takes_u32.bind fun _ _ h₈ => takes_u32.bind fun _ _ h₉ =>
    takes_u32.bind fun _ _ h₁₀ => takes_u32.bind fun _ _ h₁₁ => takes_u32.bind fun _ _ h₁₂ =>
    .pure ?_
  rw [h₁, h₂, h₃, h₄, h₅, h₆, h₇, h₈, h₉, h₁₀, h₁₁, h₁₂, encodePoint]
  simp only [List.append_assoc, List.append_nil]

/-- The ids of the sessions are not zero, and there are no two of one id. -/
theorem takes_sessions (count : Nat) (seen : List UInt32) :
    Takes (sessions count seen) fun list bytes => list.length = count ∧
      bytes = list.flatMap encodeSession ∧ (∀ session ∈ list, session.sessionId ≠ 0) ∧
      (list.map SessionMinuteRecord.sessionId).Nodup ∧
      ∀ session ∈ list, session.sessionId ∉ seen := by
  induction count generalizing seen with
  | zero =>
    exact .pure ⟨rfl, rfl, fun _ h => (by cases h), List.nodup_nil, fun _ h => (by cases h)⟩
  | succ count ih =>
    refine takes_u32.bind fun sessionId _ h₁ => (takes_reject _ _).bind fun _ _ h₂ =>
      takes_completeness.bind fun _ _ h₃ => takes_point.bind fun _ _ h₄ =>
      (ih (sessionId :: seen)).bind fun later _ h₅ => .pure ?_
    obtain ⟨hproper, rfl⟩ := h₂
    obtain ⟨hlength, rfl, hzero, hnodup, hseen⟩ := h₅
    refine ⟨by rw [List.length_cons, hlength], ?_, ?_, ?_, ?_⟩
    · rw [h₁, h₃, h₄, List.flatMap_cons, encodeSession]
      simp only [List.append_assoc, List.append_nil, List.nil_append]
    · intro session hsession
      rcases List.mem_cons.mp hsession with rfl | hsession
      · exact fun h => hproper (Or.inl h)
      · exact hzero session hsession
    · rw [List.map_cons, List.nodup_cons]
      refine ⟨fun hmem => ?_, hnodup⟩
      obtain ⟨session, hsession, hid⟩ := List.mem_map.mp hmem
      exact hseen session hsession (List.mem_cons.mpr (Or.inl hid))
    · intro session hsession
      rcases List.mem_cons.mp hsession with rfl | hsession
      · exact fun h => hproper (Or.inr h)
      · exact fun h => hseen session hsession (List.mem_cons_of_mem _ h)

theorem takes_minute : Takes minute fun record bytes => bytes = minutePayload record ∧
    record.sessions.length ≤ 65535 ∧
    properIds (record.sessions.map SessionMinuteRecord.sessionId) = true := by
  refine takes_u64.bind fun timestampMs _ h₁ => takes_completeness.bind fun completeness _ h₂ =>
    takes_point.bind fun daemon _ h₃ => (takes_unsigned 2).bind fun count _ h₄ =>
    takes_get.bind fun left _ h₅ => (takes_reject _ _).bind fun _ _ h₆ =>
    (takes_sessions count []).bind fun list _ h₇ => .pure ?_
  obtain ⟨hcount, rfl⟩ := h₄
  obtain ⟨-, rfl⟩ := h₆
  obtain ⟨hlength, rfl, hzero, hnodup, -⟩ := h₇
  have hids : properIds (list.map SessionMinuteRecord.sessionId) = true := by
    rw [properIds, Bool.and_eq_true, List.all_map, List.all_eq_true]
    exact ⟨fun session hsession => decide_eq_true (hzero session hsession),
      decide_eq_true hnodup⟩
  rw [h₁, h₂, h₃, h₅]
  refine ⟨?_, ?_, hids⟩
  · simp only [minutePayload, putU16, hlength, List.append_assoc, List.append_nil,
      List.nil_append]
  · dsimp only
    omega

end takes

section short

theorem short_take (bytes : Bytes) : Short FormatError.truncated (take bytes.length) bytes := by
  intro front missing hsplit hmissing
  have hlength := congrArg List.length hsplit
  have hpos := List.length_pos_of_ne_nil hmissing
  rw [List.length_append] at hlength
  rw [take, if_pos (by omega)]

theorem short_unsigned (width value : Nat) :
    Short FormatError.truncated (unsigned width) (toBeBytes width value) := by
  have hshort := short_take (toBeBytes width value)
  rw [length_toBeBytes] at hshort
  exact hshort.first

theorem short_u32 (value : UInt32) : Short FormatError.truncated u32 (putU32 value) :=
  (short_unsigned 4 _).first

theorem short_u64 (value : UInt64) : Short FormatError.truncated u64 (putU64 value) :=
  (short_unsigned 8 _).first

theorem short_completeness (value : Completeness) :
    Short FormatError.truncated completeness (encodeCompleteness value) := by
  have hbyte : ∃ n, encodeCompleteness value = toBeBytes 1 n := by
    cases value
    · exact ⟨0, rfl⟩
    · exact ⟨1, rfl⟩
    · exact ⟨2, rfl⟩
    · exact ⟨3, rfl⟩
  obtain ⟨n, hn⟩ := hbyte
  rw [hn]
  exact (short_unsigned 1 n).first

theorem short_point (value : TrendPoint) :
    Short FormatError.truncated point (encodePoint value) := by
  unfold encodePoint
  simp only [List.append_assoc]
  exact (short_u64 _).bind (reads_u64 _) ((short_u32 _).bind (reads_u32 _)
    ((short_u32 _).bind (reads_u32 _) ((short_u64 _).bind (reads_u64 _)
    ((short_u64 _).bind (reads_u64 _) ((short_u64 _).bind (reads_u64 _)
    ((short_u64 _).bind (reads_u64 _) ((short_u32 _).bind (reads_u32 _)
    ((short_u32 _).bind (reads_u32 _) ((short_u32 _).bind (reads_u32 _)
    ((short_u32 _).bind (reads_u32 _) (short_u32 _).first))))))))))

/-- A check of how much is left, for something that takes all of that. -/
theorem short_check {n : Nat} {whole : Bytes} (h : whole.length ≤ n) :
    Short FormatError.truncated
      (do rejectIf (n > (← get).length) FormatError.truncated; m : FieldReader α) whole := by
  intro front missing hsplit hmissing
  have hlength := congrArg List.length hsplit
  have hpos := List.length_pos_of_ne_nil hmissing
  rw [List.length_append] at hlength
  change (do rejectIf (n > front.length) FormatError.truncated; m : FieldReader α) front = _
  rw [rejectIf, if_pos (by omega)]
  rfl

/-- A part of a record is found to be too short, at the latest by the count of the sessions. -/
theorem short_minute {record : MinuteRecord} (h : Encodable record) :
    Short FormatError.truncated minute (minutePayload record) := by
  have hcount := h.count
  unfold minutePayload
  simp only [List.append_assoc]
  exact (short_u64 _).bind (reads_u64 _) ((short_completeness _).bind (reads_completeness _)
    ((short_point _).bind (reads_point _) ((short_unsigned 2 _).bind
      (reads_unsigned 2 _ (by omega)) (short_check (length_encodeSessions _).le))))

end short

/-- `decode_minute`, up to where it reserves room for as many sessions as it has counted. -/
def minuteHead : FieldReader (UInt64 × Completeness × TrendPoint × Nat) := do
  let timestampMs ← u64
  let completeness ← completeness
  let daemon ← point
  let count ← unsigned 2
  rejectIf (count * sessionPointSize > (← get).length) FormatError.truncated
  return (timestampMs, completeness, daemon, count)

theorem minute_eq : minute = do
    let (timestampMs, completeness, daemon, count) ← minuteHead
    return { timestampMs, completeness, daemon, sessions := ← sessions count [] } := by
  unfold minute minuteHead
  simp only [bind_assoc, pure_bind]

/-- There is room for the sessions in what is left of the payload. -/
theorem count_of_minuteHead {payload left : Bytes} {head : UInt64 × Completeness × TrendPoint × Nat}
    (h : minuteHead payload = .ok (head, left)) :
    left <:+ payload ∧ head.2.2.2 * sessionPointSize ≤ left.length := by
  have hbefore : ∀ {α : Type} {m : FieldReader α} {Q : α → Bytes → Prop} {input rest : Bytes}
      {a : α}, Takes m Q → m input = .ok (a, rest) → rest <:+ input := by
    intro α m Q input rest a hm hread
    obtain ⟨front, hfront, -⟩ := hm _ _ _ hread
    exact ⟨front, hfront.symm⟩
  obtain ⟨timestampMs, left₁, h₁, h⟩ := Reading.bind_eq_ok.mp h
  obtain ⟨completeness, left₂, h₂, h⟩ := Reading.bind_eq_ok.mp h
  obtain ⟨daemon, left₃, h₃, h⟩ := Reading.bind_eq_ok.mp h
  obtain ⟨count, left₄, h₄, h⟩ := Reading.bind_eq_ok.mp h
  obtain ⟨_, _, hget, h⟩ := Reading.bind_eq_ok.mp h
  cases hget
  obtain ⟨_, left₅, hreject, h⟩ := Reading.bind_eq_ok.mp h
  cases h
  obtain ⟨front, hfront, hfits, rfl⟩ := takes_reject _ _ _ _ _ hreject
  rw [List.nil_append] at hfront
  subst hfront
  have hleft := (hbefore (takes_unsigned 2) h₄).trans ((hbefore takes_point h₃).trans
    ((hbefore takes_completeness h₂).trans (hbefore takes_u64 h₁)))
  exact ⟨hleft, Nat.le_of_not_lt hfits⟩

end Metric.FieldReader

end PersistShell

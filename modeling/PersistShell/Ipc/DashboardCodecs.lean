import PersistShell.Ipc.Dashboard

/-! What the dashboard puts on the wire is read back, and nothing shorter or longer is. -/

namespace PersistShell
open Dashboard Metric Metric.FieldReader Reading

namespace DashboardReader

section reads

theorem reads_bool (value : Bool) : FieldReader.Reads bool (encodeBool value) value := by
  cases value <;> exact fun rest => rfl

theorem reads_collectionStatus (value : CollectionStatus) :
    FieldReader.Reads collectionStatus (encodeCollectionStatus value) value := by
  cases value <;> exact fun rest => rfl

theorem reads_u16 (value : UInt16) :
    FieldReader.Reads u16 (Metric.putU16 value.toNat) value := by
  refine (reads_unsigned 2 value.toNat value.toNat_lt).last fun rest => ?_
  rw [UInt16.ofNat_toNat]
  rfl

theorem reads_scope {value : TrendScope} (h : value ≠ .session 0) :
    FieldReader.Reads scope (encodeTrendScope value) value := by
  cases value with
  | daemon => exact fun rest => rfl
  | session sessionId =>
    have hproper : sessionId > 0 := UInt32.pos_iff_ne_zero.mpr fun hzero => h (by rw [hzero])
    refine (reads_unsigned 1 1 (by decide)).bind ((reads_u32 sessionId).last fun rest => ?_)
    rw [if_neg (fun h => absurd h.1 (by decide)), if_pos ⟨rfl, hproper⟩]
    rfl

theorem reads_range (value : TrendRange) :
    FieldReader.Reads range (encodeTrendRange value) value := by
  cases value <;> exact fun rest => rfl

theorem reads_daemon (value : DaemonMetrics) :
    FieldReader.Reads daemon (encodeDaemon value) value := by
  unfold encodeDaemon
  simp only [List.append_assoc]
  exact (reads_u32 _).bind ((reads_bool _).bind ((reads_u32 _).bind ((reads_u64 _).bind
    ((reads_u64 _).bind ((reads_u64 _).bind ((reads_u32 _).bind ((reads_u32 _).bind
    ((reads_u32 _).bind ((reads_u32 _).last fun _ => rfl)))))))))

/-- A pid of 0 would be read as none. -/
theorem reads_foregroundPid {value : Option UInt32} (h : value ≠ some 0) :
    FieldReader.Reads foregroundPid (Metric.putU32 (value.getD 0)) value := by
  refine (reads_u32 _).last fun rest => ?_
  cases value with
  | none => rfl
  | some pid =>
    rw [Option.getD_some, if_neg fun hpid => h (by rw [hpid])]
    rfl

theorem reads_nextCursor {value : Option UInt32} (h : value ≠ some noValue) :
    FieldReader.Reads nextCursor (Metric.putU32 (value.getD noValue)) value := by
  refine (reads_u32 _).last fun rest => ?_
  cases value with
  | none => rfl
  | some cursor =>
    rw [Option.getD_some, if_neg fun hcursor => h (by rw [hcursor])]
    rfl

theorem reads_sessionMetrics {value : SessionMetrics} (hid : value.sessionId ≠ 0)
    (hpid : value.foregroundPid ≠ some 0) :
    FieldReader.Reads session (encodeSessionMetrics value) value := by
  unfold encodeSessionMetrics
  simp only [List.append_assoc]
  exact (reads_u32 _).bind (.reject hid ((reads_u32 _).bind ((reads_bool _).bind
    ((reads_u32 _).bind ((reads_u64 _).bind ((reads_u64 _).bind ((reads_u64 _).bind
    ((reads_foregroundPid hpid).bind ((reads_bool _).bind
    ((reads_collectionStatus _).last fun _ => rfl))))))))))

theorem reads_repeated {α : Type} {reader : FieldReader α} {encode : α → Bytes} (list : List α)
    (h : ∀ value ∈ list, reader.Reads (encode value) value) :
    FieldReader.Reads (repeated reader list.length) (list.flatMap encode) list := by
  induction list with
  | nil => exact .pure []
  | cons value list ih =>
    rw [List.flatMap_cons]
    have hlater := ih fun other hother => h other (List.mem_cons_of_mem _ hother)
    exact (h value List.mem_cons_self).bind (hlater.last fun _ => rfl)

end reads

section extends_

theorem extends_bool : Extends bool := by
  refine (extends_unsigned 1).bind fun value => ?_
  split
  · exact .pure _
  · exact .pure _
  · exact .throw _

theorem extends_collectionStatus : Extends collectionStatus := by
  refine (extends_unsigned 1).bind fun value => ?_
  split
  · exact .pure _
  · exact .pure _
  · exact .pure _
  · exact .throw _

theorem extends_daemon : Extends daemon :=
  extends_u32.bind fun _ => extends_bool.bind fun _ => extends_u32.bind fun _ =>
    extends_u64.bind fun _ => extends_u64.bind fun _ => extends_u64.bind fun _ =>
    extends_u32.bind fun _ => extends_u32.bind fun _ => extends_u32.bind fun _ =>
    extends_u32.bind fun _ => .pure _

theorem extends_foregroundPid : Extends foregroundPid := extends_u32.bind fun _ => .pure _

theorem extends_nextCursor : Extends nextCursor := extends_u32.bind fun _ => .pure _

theorem extends_session : Extends session :=
  extends_u32.bind fun _ => (extends_reject _ _).bind fun _ => extends_u32.bind fun _ =>
    extends_bool.bind fun _ => extends_u32.bind fun _ => extends_u64.bind fun _ =>
    extends_u64.bind fun _ => extends_u64.bind fun _ => extends_foregroundPid.bind fun _ =>
    extends_bool.bind fun _ => extends_collectionStatus.bind fun _ => .pure _

theorem extends_repeated {α : Type} {reader : FieldReader α} (h : Extends reader) (count : Nat) :
    Extends (repeated reader count) := by
  induction count with
  | zero => exact .pure []
  | succ count ih => exact h.bind fun _ => ih.bind fun _ => .pure _

theorem extends_summaryResponse : Extends summaryResponse :=
  extends_u64.bind fun _ => extends_completeness.bind fun _ => extends_nextCursor.bind fun _ =>
    extends_daemon.bind fun _ => (extends_unsigned 2).bind fun _ =>
    (extends_reject _ _).bind fun _ => (extends_repeated extends_session _).bind fun _ => .pure _

theorem extends_trendResponse : Extends trendResponse :=
  extends_u64.bind fun _ => extends_completeness.bind fun _ => (extends_unsigned 2).bind fun _ =>
    (extends_reject _ _).bind fun _ => (extends_repeated extends_point _).bind fun _ => .pure _

end extends_

end DashboardReader

/-- What `a` is written to is read as `a`, and neither a part of it nor more than it is read. -/
structure ExactCodec {α : Type} (encode : α → Bytes) (decode : Bytes → Option α) (a : α) : Prop where
  roundTrip : decode (encode a) = some a
  strictPrefix : ∀ part rest, rest ≠ [] → part ++ rest = encode a → decode part = none
  extension : ∀ rest, rest ≠ [] → decode (encode a ++ rest) = none

section exact

variable {α : Type} {encode : α → Bytes} {decode : Bytes → Option α} {reader : FieldReader α} {a : α}

theorem decodeWhole_eq_some {payload : Bytes} :
    decodeWhole reader payload = some a ↔ reader payload = .ok (a, []) := by
  unfold decodeWhole
  constructor
  · intro h
    split at h
    · rename_i value hread
      cases h
      exact hread
    · cases h
  · intro h
    rw [h]

theorem decodeWhole_encode (h : reader.Reads (encode a) a) :
    decodeWhole reader (encode a) = some a := by
  have hread := h []
  rw [List.append_nil] at hread
  exact decodeWhole_eq_some.mpr hread

/-- A reader to which it does not matter what comes behind, and which takes the whole of it. -/
theorem ExactCodec.ofReads (hreads : reader.Reads (encode a) a) (hextends : Extends reader) :
    ExactCodec encode (decodeWhole reader) a where
  roundTrip := decodeWhole_encode hreads
  strictPrefix part rest hrest hsplit := by
    cases hpart : decodeWhole reader part with
    | none => rfl
    | some b =>
      exact absurd (hextends.exact hreads (decodeWhole_eq_some.mp hpart) (.inl hsplit)) hrest
  extension rest hrest := by
    cases hmore : decodeWhole reader (encode a ++ rest) with
    | none => rfl
    | some b =>
      exact absurd (hextends.exact hreads (decodeWhole_eq_some.mp hmore) (.inr rfl)) hrest

/-- A payload of one size only is read. -/
theorem ExactCodec.ofLength {size : Nat} (hround : decode (encode a) = some a)
    (hsize : (encode a).length = size) (hreject : ∀ payload, payload.length ≠ size → decode payload = none) :
    ExactCodec encode decode a where
  roundTrip := hround
  strictPrefix part rest hrest hsplit := by
    have hlength := congrArg List.length hsplit
    have hpos := List.length_pos_of_ne_nil hrest
    rw [List.length_append] at hlength
    exact hreject part (by omega)
  extension rest hrest := by
    have hpos := List.length_pos_of_ne_nil hrest
    exact hreject _ (by rw [List.length_append]; omega)

end exact

section codecs

theorem summaryRequest_exact {request : DashboardSummaryRequest}
    (h : encodeSummaryRequest request ≠ []) :
    ExactCodec encodeSummaryRequest decodeSummaryRequest request := by
  unfold encodeSummaryRequest at h
  split at h
  · exact absurd rfl h
  rename_i hproper
  have hencode : encodeSummaryRequest request =
      Metric.putU32 request.cursor ++ Metric.putU16 request.limit.toNat := if_neg hproper
  have hlength : (encodeSummaryRequest request).length = summaryRequestSize := by
    rw [hencode]
    rfl
  have hreads : FieldReader.Reads DashboardReader.summaryRequest (encodeSummaryRequest request)
      request := by
    rw [hencode]
    exact (reads_u32 _).bind ((DashboardReader.reads_u16 _).last fun _ => rfl)
  push Not at hproper
  obtain ⟨hcursor, hlimit, hmax⟩ := hproper
  refine .ofLength ?_ hlength fun payload hpayload => if_pos hpayload
  rw [decodeSummaryRequest, if_neg (not_not.mpr hlength), decodeWhole_encode hreads,
    Option.filter_some, if_pos]
  exact decide_eq_true ⟨hcursor, UInt16.pos_iff_ne_zero.mpr hlimit, hmax⟩

theorem trendRequest_exact {request : DashboardTrendRequest}
    (h : encodeTrendRequest request ≠ []) :
    ExactCodec encodeTrendRequest decodeTrendRequest request := by
  unfold encodeTrendRequest at h
  split at h
  · exact absurd rfl h
  rename_i hproper
  split at h
  · exact absurd rfl h
  rename_i hscope
  have hencode : encodeTrendRequest request = encodeTrendScope request.scope ++
      encodeTrendRange request.range ++ Metric.putU16 request.maxPoints.toNat := by
    rw [encodeTrendRequest, if_neg hproper, if_neg hscope]
  have hlength : (encodeTrendRequest request).length = trendRequestSize := by
    rw [hencode]
    obtain ⟨scope, range, maxPoints⟩ := request
    cases scope <;> cases range <;> rfl
  have hreads : FieldReader.Reads DashboardReader.trendRequest (encodeTrendRequest request)
      request := by
    rw [hencode, List.append_assoc]
    exact (DashboardReader.reads_scope hscope).bind ((DashboardReader.reads_range _).bind
      ((DashboardReader.reads_u16 _).last fun _ => rfl))
  push Not at hproper
  refine .ofLength ?_ hlength fun payload hpayload => if_pos hpayload
  rw [decodeTrendRequest, if_neg (not_not.mpr hlength), decodeWhole_encode hreads,
    Option.filter_some, if_pos]
  exact decide_eq_true ⟨UInt16.pos_iff_ne_zero.mpr hproper.1, hproper.2⟩

/-- What `encode_summary_response` accepts. -/
structure SummaryEncodable (response : DashboardSummaryResponse) : Prop where
  few : response.sessions.length ≤ maxSummaryPage
  cursor : response.nextCursor ≠ some noValue
  ids : ∀ session ∈ response.sessions, session.sessionId ≠ 0
  pids : ∀ session ∈ response.sessions, session.foregroundPid ≠ some 0

theorem SummaryEncodable.encode_eq {response : DashboardSummaryResponse}
    (h : SummaryEncodable response) : encodeSummaryResponse response =
      Metric.putU64 response.sampledAtMs ++ encodeCompleteness response.completeness ++
        Metric.putU32 (response.nextCursor.getD noValue) ++ encodeDaemon response.daemon ++
        Metric.putU16 response.sessions.length ++
        response.sessions.flatMap encodeSessionMetrics := by
  rw [encodeSummaryResponse, if_neg]
  rintro (hmany | hcursor | hany)
  · exact absurd h.few (Nat.not_le_of_gt hmany)
  · exact h.cursor hcursor
  · obtain ⟨session, hsession, hwrong⟩ := List.any_eq_true.mp hany
    rcases of_decide_eq_true hwrong with hid | hpid
    · exact h.ids session hsession hid
    · exact h.pids session hsession hpid

theorem SummaryEncodable.ne_nil {response : DashboardSummaryResponse}
    (h : SummaryEncodable response) : encodeSummaryResponse response ≠ [] := by
  rw [h.encode_eq, Metric.putU64, toBeBytes]
  exact List.cons_ne_nil _ _

theorem summaryEncodable_of_ne_nil {response : DashboardSummaryResponse}
    (h : encodeSummaryResponse response ≠ []) : SummaryEncodable response := by
  unfold encodeSummaryResponse at h
  split at h
  · exact absurd rfl h
  rename_i hproper
  push Not at hproper
  obtain ⟨hfew, hcursor, hany⟩ := hproper
  rw [Ne, List.any_eq_true] at hany
  push Not at hany
  refine ⟨hfew, hcursor, fun session hsession hid => ?_, fun session hsession hpid => ?_⟩
  · exact hany session hsession (decide_eq_true (.inl hid))
  · exact hany session hsession (decide_eq_true (.inr hpid))

theorem SummaryEncodable.exact {response : DashboardSummaryResponse}
    (h : SummaryEncodable response) :
    ExactCodec encodeSummaryResponse decodeSummaryResponse response := by
  refine .ofReads ?_ DashboardReader.extends_summaryResponse
  have hfew := h.few
  have hsessions := DashboardReader.reads_repeated response.sessions fun session hsession =>
    DashboardReader.reads_sessionMetrics (h.ids session hsession) (h.pids session hsession)
  rw [h.encode_eq]
  simp only [List.append_assoc]
  exact (reads_u64 _).bind ((reads_completeness _).bind ((DashboardReader.reads_nextCursor
    h.cursor).bind ((DashboardReader.reads_daemon _).bind ((reads_unsigned 2 _ (by
      unfold maxSummaryPage at hfew
      omega)).bind (.reject (Nat.not_lt_of_le hfew) (hsessions.last fun _ => rfl))))))

theorem encodeTrendResponse_eq {response : DashboardTrendResponse}
    (h : response.points.length ≤ maxTrendPoints) : encodeTrendResponse response =
      Metric.putU64 response.sampledAtMs ++ encodeCompleteness response.completeness ++
        Metric.putU16 response.points.length ++ response.points.flatMap encodePoint :=
  if_neg (Nat.not_lt_of_le h)

theorem encodeTrendResponse_ne_nil {response : DashboardTrendResponse} :
    encodeTrendResponse response ≠ [] ↔ response.points.length ≤ maxTrendPoints := by
  constructor
  · intro h
    unfold encodeTrendResponse at h
    split at h
    · exact absurd rfl h
    · exact Nat.le_of_not_lt ‹_›
  · intro h
    rw [encodeTrendResponse_eq h, Metric.putU64, toBeBytes]
    exact List.cons_ne_nil _ _

theorem trendResponse_exact {response : DashboardTrendResponse}
    (h : response.points.length ≤ maxTrendPoints) :
    ExactCodec encodeTrendResponse decodeTrendResponse response := by
  refine .ofReads ?_ DashboardReader.extends_trendResponse
  have hpoints := DashboardReader.reads_repeated response.points fun value _ => reads_point value
  rw [encodeTrendResponse_eq h]
  simp only [List.append_assoc]
  exact (reads_u64 _).bind ((reads_completeness _).bind ((reads_unsigned 2 _ (by
    unfold maxTrendPoints at h
    omega)).bind (.reject (Nat.not_lt_of_le h) (hpoints.last fun _ => rfl))))

end codecs

end PersistShell

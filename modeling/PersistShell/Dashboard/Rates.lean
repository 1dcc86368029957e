import PersistShell.Dashboard.Model

/-! The rates between two samples are exact, whatever the counters are. -/

namespace PersistShell
namespace Dashboard

def CounterDecreased (prior now : RawCounters) : Prop :=
  now.userTicks < prior.userTicks ∨ now.systemTicks < prior.systemTicks ∨
    now.readBytes < prior.readBytes ∨ now.writeBytes < prior.writeBytes

/-- What the CPU rate is a quotient of: every product on the way stays within 128 bits. -/
structure CpuQuotient (tickDelta denominator : Nat) : Prop where
  sum : tickDelta < 2 ^ 128
  scaled : tickDelta * 100000 < 2 ^ 128
  numerator : tickDelta * 100000 * 1000 < 2 ^ 128
  bounded : denominator < 2 ^ 128
  positive : 0 < denominator

/-- The rates of a series that has values at two times. -/
structure ExactValues (prior now : RawCounters) (elapsedMs ticksPerSecond : Nat) (rates : Rates) :
    Prop where
  quotient : CpuQuotient
    ((now.userTicks.toNat - prior.userTicks.toNat) +
      (now.systemTicks.toNat - prior.systemTicks.toNat)) (ticksPerSecond * elapsedMs)
  cpu : rates.cpuMilliPercent.toNat =
    min (((now.userTicks.toNat - prior.userTicks.toNat) +
      (now.systemTicks.toNat - prior.systemTicks.toNat)) * 10 ^ 8 / (ticksPerSecond * elapsedMs))
      (2 ^ 32 - 1)
  readDelta : rates.readBytesDelta.toNat = now.readBytes.toNat - prior.readBytes.toNat
  writeDelta : rates.writeBytesDelta.toNat = now.writeBytes.toNat - prior.writeBytes.toNat
  readFits : rates.readBytesDelta.toNat * 1000 < 2 ^ 128
  writeFits : rates.writeBytesDelta.toNat * 1000 < 2 ^ 128
  read : rates.readBytesPerSec.toNat =
    min ((now.readBytes.toNat - prior.readBytes.toNat) * 1000 / elapsedMs) (2 ^ 64 - 1)
  write : rates.writeBytesPerSec.toNat =
    min ((now.writeBytes.toNat - prior.writeBytes.toNat) * 1000 / elapsedMs) (2 ^ 64 - 1)

/-- The rates of a series, which may have no earlier value. -/
structure ExactRates (prior : Option RawCounters) (now : RawCounters) (previousMs : Option UInt64)
    (nowMs ticksPerSecond : UInt64) (rates : Rates) : Prop where
  unavailable : rates.available = false ↔
    prior = none ∨ (∀ ms, previousMs = some ms → nowMs ≤ ms) ∨ ticksPerSecond = 0 ∨
      ∃ counters, prior = some counters ∧ CounterDecreased counters now
  zero : rates.available = false → rates = {}
  exact_ : rates.available = true → ∀ counters ms, prior = some counters → previousMs = some ms →
    ms < nowMs ∧
      ExactValues counters now (nowMs.toNat - ms.toNat) ticksPerSecond.toNat rates

section arithmetic

variable {a b d bytes elapsedMs : UInt64}

theorem checkedSub_eq_some : checkedSub a b = some d ↔ b ≤ a ∧ d.toNat = a.toNat - b.toNat := by
  unfold checkedSub
  split
  · rename_i hle
    rw [Option.some.injEq, ← UInt64.toNat_inj, UInt64.toNat_sub_of_le _ _ hle]
    exact ⟨fun h => ⟨hle, h.symm⟩, fun h => h.2.symm⟩
  · rename_i hle
    exact ⟨fun h => (by cases h), fun h => absurd h.1 hle⟩

theorem checkedSub_eq_none : checkedSub a b = none ↔ a < b := by
  unfold checkedSub
  split
  · rename_i hle
    exact ⟨fun h => (by cases h), fun h => absurd hle (UInt64.not_le.mpr h)⟩
  · rename_i hle
    exact ⟨fun _ => UInt64.not_le.mp hle, fun _ => rfl⟩

theorem saturatingMul128_of_lt {m n : Nat} (h : m * n < 2 ^ 128) :
    saturatingMul128 m n = m * n := by
  unfold saturatingMul128
  omega

theorem toNat_bytesPerSecond : (bytesPerSecond bytes elapsedMs).toNat =
    min (bytes.toNat * 1000 / elapsedMs.toNat) (2 ^ 64 - 1) := by
  have hbytes := bytes.toNat_lt
  have hfits : bytes.toNat * 1000 < 2 ^ 128 := by omega
  rw [bytesPerSecond, saturatingMul128_of_lt hfits, UInt64.toNat_ofNat_of_lt']
  exact Nat.lt_of_le_of_lt (Nat.min_le_right _ _) (by decide)

/-- The sum of two differences, and the product of a rate and a time, leave room. -/
theorem cpuQuotient {user system ticks elapsed : Nat} (huser : user < 2 ^ 64)
    (hsystem : system < 2 ^ 64) (hticks : ticks < 2 ^ 64) (helapsed : elapsed < 2 ^ 64)
    (hticksPos : 0 < ticks) (helapsedPos : 0 < elapsed) :
    CpuQuotient (user + system) (ticks * elapsed) where
  sum := by omega
  scaled := by omega
  numerator := by omega
  bounded := by
    calc ticks * elapsed < 2 ^ 64 * 2 ^ 64 := Nat.mul_lt_mul'' hticks helapsed
      _ = 2 ^ 128 := by norm_num
  positive := Nat.mul_pos hticksPos helapsedPos

end arithmetic

section rates

variable {prior now : RawCounters} {elapsedMs ticksPerSecond : UInt64} {rates : Rates}

theorem calculateRates_eq_none (helapsed : elapsedMs ≠ 0) :
    calculateRates prior now elapsedMs ticksPerSecond = none ↔
      ticksPerSecond = 0 ∨ CounterDecreased prior now := by
  unfold calculateRates CounterDecreased
  by_cases hticks : ticksPerSecond = 0
  · simp [hticks]
  rw [if_neg (by simp [helapsed, hticks])]
  simp only [← checkedSub_eq_none]
  cases checkedSub now.userTicks prior.userTicks with
  | none => simp
  | some user =>
    cases checkedSub now.systemTicks prior.systemTicks with
    | none => simp
    | some system =>
      cases checkedSub now.readBytes prior.readBytes with
      | none => simp
      | some read =>
        cases checkedSub now.writeBytes prior.writeBytes with
        | none => simp
        | some write => simp [hticks]

theorem calculateRates_exact
    (h : calculateRates prior now elapsedMs ticksPerSecond = some rates) :
    rates.available = true ∧
      ExactValues prior now elapsedMs.toNat ticksPerSecond.toNat rates := by
  unfold calculateRates at h
  split at h
  · cases h
  rename_i hpositive
  rw [not_or] at hpositive
  simp only [Option.bind_eq_bind, Option.bind_eq_some_iff, Option.pure_def,
    Option.some.injEq] at h
  obtain ⟨user, huser, system, hsystem, read, hread, write, hwrite, rfl⟩ := h
  replace huser := (checkedSub_eq_some.mp huser).2
  replace hsystem := (checkedSub_eq_some.mp hsystem).2
  replace hread := (checkedSub_eq_some.mp hread).2
  replace hwrite := (checkedSub_eq_some.mp hwrite).2
  have hticks : 0 < ticksPerSecond.toNat :=
    Nat.pos_of_ne_zero fun h => hpositive.2 (UInt64.toNat_inj.mp h)
  have helapsed : 0 < elapsedMs.toNat :=
    Nat.pos_of_ne_zero fun h => hpositive.1 (UInt64.toNat_inj.mp h)
  have hquotient := cpuQuotient user.toNat_lt system.toNat_lt ticksPerSecond.toNat_lt
    elapsedMs.toNat_lt hticks helapsed
  have hreadLt := read.toNat_lt
  have hwriteLt := write.toNat_lt
  refine ⟨rfl, ⟨?_, ?_, hread, hwrite, by dsimp only; omega, by dsimp only; omega, ?_, ?_⟩⟩
  · rw [← huser, ← hsystem]
    exact hquotient
  · dsimp only
    rw [wrap128, wrap128, Nat.mod_eq_of_lt hquotient.sum, Nat.mod_eq_of_lt hquotient.bounded,
      saturatingMul128_of_lt hquotient.scaled, saturatingMul128_of_lt hquotient.numerator,
      UInt32.toNat_ofNat_of_lt' (Nat.lt_of_le_of_lt (Nat.min_le_right _ _) (by decide)),
      Nat.mul_assoc, ← huser, ← hsystem]
    rfl
  · rw [← hread]
    exact toNat_bytesPerSecond
  · rw [← hwrite]
    exact toNat_bytesPerSecond

end rates

section series

variable {prior : Option RawCounters} {now counters : RawCounters} {previous : Option RawSample}
  {current sample : RawSample} {rates : Rates}

theorem elapsedSince_eq_none (h : ∀ ms, previous.map (·.monotonicMs) = some ms →
    current.monotonicMs ≤ ms) : elapsedSince previous current = none := by
  cases previous with
  | none => rfl
  | some sample =>
    have hle := h _ rfl
    simp only [elapsedSince, Option.bind_some, Option.filter_eq_none_iff]
    intro elapsed helapsed
    obtain ⟨hge, helapsed⟩ := checkedSub_eq_some.mp helapsed
    have heq : current.monotonicMs = sample.monotonicMs := UInt64.le_antisymm hle hge
    rw [heq, Nat.sub_self] at helapsed
    rw [UInt64.toNat_inj.mp (helapsed.trans UInt64.toNat_zero.symm)]
    decide

theorem elapsedSince_eq_some (h : sample.monotonicMs < current.monotonicMs) :
    ∃ elapsedMs, elapsedSince (some sample) current = some elapsedMs ∧ elapsedMs ≠ 0 ∧
      elapsedMs.toNat = current.monotonicMs.toNat - sample.monotonicMs.toNat := by
  have hle : sample.monotonicMs ≤ current.monotonicMs := UInt64.le_of_lt h
  have hsub : (current.monotonicMs - sample.monotonicMs).toNat =
      current.monotonicMs.toNat - sample.monotonicMs.toNat := UInt64.toNat_sub_of_le _ _ hle
  have hlt := UInt64.lt_iff_toNat_lt.mp h
  have hpositive : 0 < current.monotonicMs - sample.monotonicMs := by
    rw [UInt64.lt_iff_toNat_lt, hsub, UInt64.toNat_zero]
    omega
  refine ⟨current.monotonicMs - sample.monotonicMs, ?_, (UInt64.ne_of_lt hpositive).symm, hsub⟩
  simp only [elapsedSince, Option.bind_some, checkedSub, if_pos hle]
  exact Option.filter_eq_some_iff.mpr ⟨rfl, decide_eq_true hpositive⟩

/-- There are no rates, for one of the reasons. -/
theorem exactRates_none {previousMs : Option UInt64} {nowMs ticksPerSecond : UInt64}
    (hwhy : prior = none ∨ (∀ ms, previousMs = some ms → nowMs ≤ ms) ∨ ticksPerSecond = 0 ∨
      ∃ counters, prior = some counters ∧ CounterDecreased counters now) :
    ExactRates prior now previousMs nowMs ticksPerSecond {} :=
  ⟨iff_of_true rfl hwhy, fun _ => rfl, fun h => (by cases h)⟩

/-- The rates of a series between two samples. -/
theorem ratesSince_exact (prior : Option RawCounters) (now : RawCounters)
    (previous : Option RawSample) (current : RawSample) :
    ExactRates prior now (previous.map (·.monotonicMs)) current.monotonicMs
      current.clockTicksPerSecond
      (ratesSince prior now (elapsedSince previous current) current.clockTicksPerSecond) := by
  cases prior with
  | none => exact exactRates_none (Or.inl rfl)
  | some counters =>
    by_cases hlater : ∀ ms, previous.map (·.monotonicMs) = some ms → current.monotonicMs ≤ ms
    · rw [elapsedSince_eq_none hlater]
      exact exactRates_none (Or.inr (Or.inl hlater))
    cases previous with
    | none => exact absurd (fun ms h => (by cases h)) hlater
    | some sample =>
      have hlt : sample.monotonicMs < current.monotonicMs := by
        refine UInt64.not_le.mp fun hle => hlater fun ms h => ?_
        rw [← Option.some.inj h]
        exact hle
      obtain ⟨elapsedMs, helapsed, hpositive, hnat⟩ := elapsedSince_eq_some hlt
      rw [helapsed]
      change ExactRates _ _ _ _ _ ((calculateRates counters now elapsedMs
        current.clockTicksPerSecond).getD {})
      cases hrates : calculateRates counters now elapsedMs current.clockTicksPerSecond with
      | none =>
        refine exactRates_none (Or.inr (Or.inr ?_))
        exact ((calculateRates_eq_none hpositive).mp hrates).imp_right fun h => ⟨counters, rfl, h⟩
      | some rates =>
        obtain ⟨havailable, hvalues⟩ := calculateRates_exact hrates
        have hsome : ¬ (current.clockTicksPerSecond = 0 ∨ CounterDecreased counters now) := by
          rw [← calculateRates_eq_none hpositive, hrates]
          exact Option.some_ne_none _
        change ExactRates _ _ _ _ _ rates
        refine ⟨⟨fun h => absurd (havailable.symm.trans h) Bool.noConfusion, ?_⟩,
          fun h => absurd (havailable.symm.trans h) Bool.noConfusion, ?_⟩
        · rintro (h | h | h | ⟨counters', h, hdecreased⟩)
          · cases h
          · exact absurd h hlater
          · exact absurd (Or.inl h) hsome
          · cases h
            exact absurd (Or.inr hdecreased) hsome
        · intro _ counters' ms hcounters hms
          cases hcounters
          cases hms
          rw [← hnat]
          exact ⟨hlt, hvalues⟩

end series

/-- The rates that a derived sample tells. -/
def daemonRates (daemon : DerivedDaemon) : Rates where
  available := daemon.metrics.ratesAvailable
  cpuMilliPercent := daemon.metrics.cpuMilliPercent
  readBytesPerSec := daemon.metrics.readBytesPerSec
  writeBytesPerSec := daemon.metrics.writeBytesPerSec
  readBytesDelta := daemon.readBytesDelta
  writeBytesDelta := daemon.writeBytesDelta

def sessionRates (session : DerivedSession) : Rates where
  available := session.metrics.ratesAvailable
  cpuMilliPercent := session.metrics.cpuMilliPercent
  readBytesPerSec := session.metrics.readBytesPerSec
  writeBytesPerSec := session.metrics.writeBytesPerSec
  readBytesDelta := session.readBytesDelta
  writeBytesDelta := session.writeBytesDelta

/-- The entries of a session in an earlier sample. -/
def entriesOf (previous : Option RawSample) (sessionId : UInt32) : List RawSessionSample :=
  ((previous.map (·.sessions)).getD []).filter (·.sessionId = sessionId)

theorem getElem?_sessions (previous : Option RawSample) (current : RawSample) (i : Nat) :
    (deriveSample previous current).sessions[i]? = (current.sessions[i]?).map fun session =>
      derivedSession session (ratesSince ((entriesOf previous session.sessionId).getLast?.map
        (·.counters)) session.counters (elapsedSince previous current)
        current.clockTicksPerSecond) := by
  simp only [deriveSample, List.getElem?_map]
  rfl

/-- The rates of the daemon and of each session are exact, and a session's are its own. -/
theorem derive_sample_exact :
    (∀ previous current,
      ExactRates (previous.map (·.daemon.counters)) current.daemon.counters
        (previous.map (·.monotonicMs)) current.monotonicMs current.clockTicksPerSecond
        (daemonRates (deriveSample previous current).daemon) ∧
      (deriveSample previous current).sessions.length = current.sessions.length ∧
      ∀ (i : Nat) raw derived, current.sessions[i]? = some raw →
        (deriveSample previous current).sessions[i]? = some derived →
        ExactRates ((entriesOf previous raw.sessionId).getLast?.map (·.counters)) raw.counters
          (previous.map (·.monotonicMs)) current.monotonicMs current.clockTicksPerSecond
          (sessionRates derived)) ∧
    ∀ previous current previous' current' (i j : Nat) raw,
      previous.map (·.monotonicMs) = previous'.map (·.monotonicMs) →
      current.monotonicMs = current'.monotonicMs →
      current.clockTicksPerSecond = current'.clockTicksPerSecond →
      entriesOf previous raw.sessionId = entriesOf previous' raw.sessionId →
      current.sessions[i]? = some raw → current'.sessions[j]? = some raw →
      (deriveSample previous current).sessions[i]? =
        (deriveSample previous' current').sessions[j]? := by
  refine ⟨fun previous current => ⟨ratesSince_exact _ _ previous current, ?_, ?_⟩, ?_⟩
  · exact List.length_map _
  · intro i raw derived hraw hderived
    rw [getElem?_sessions, hraw, Option.map_some] at hderived
    rw [← Option.some.inj hderived]
    exact ratesSince_exact _ _ previous current
  · intro previous current previous' current' i j raw hms hnow hticks hentries hi hj
    have helapsed : elapsedSince previous current = elapsedSince previous' current' := by
      cases previous with
      | none =>
        cases previous' with
        | none => rfl
        | some sample => cases hms
      | some sample =>
        cases previous' with
        | none => cases hms
        | some sample' =>
          have hsame : sample.monotonicMs = sample'.monotonicMs := Option.some.inj hms
          simp only [elapsedSince, Option.bind_some, hsame, hnow]
    rw [getElem?_sessions, getElem?_sessions, hi, hj, Option.map_some, Option.map_some, hentries,
      helapsed, hticks]

def idleSession (sessionId : UInt32) : RawSessionSample where
  sessionId := sessionId
  counters := {}
  foregroundPid := none
  writerActive := false
  collectionStatus := .complete

def sampleWith (sessions : List RawSessionSample) : RawSample where
  sampledAtMs := 1000
  monotonicMs := 5
  clockTicksPerSecond := 100
  completeness := .complete
  daemon := ⟨1, {}, 0, 0, 0, 0⟩
  sessions := sessions

theorem derive_sample_alone : (deriveSample none (sampleWith [idleSession 7])).sessions[0]? =
    (deriveSample none (sampleWith [idleSession 8, idleSession 7])).sessions[1]? :=
  derive_sample_exact.2 none (sampleWith [idleSession 7]) none
    (sampleWith [idleSession 8, idleSession 7]) 0 1 (idleSession 7) rfl rfl rfl rfl rfl rfl

end Dashboard
end PersistShell

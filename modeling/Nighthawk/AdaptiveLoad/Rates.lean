import Mathlib.Algebra.Order.Field.Rat
import Mathlib.Tactic.FieldSimp
import Mathlib.Tactic.Positivity
import Mathlib.Tactic.Ring
import Nighthawk.AdaptiveLoad.Metrics

/-!
# The rates of the built-in plugin

The rates that `ExtractCounters` computes, against the quotients of the exact counters and the exact
duration.
-/

namespace Nighthawk.AdaptiveLoad

open Options Results

/-! ## Exact quotients -/

theorem achieved_iff {sent seconds nanos : ℕ} (hsent : 0 < sent) (hseconds : 0 < seconds)
    (hnanos : nanos < 1000000000) :
    sent % 2 ^ 32 * (seconds * 1000000000 + nanos) = sent * (seconds * 1000000000) ↔
      sent < 2 ^ 32 ∧ nanos = 0 := by
  constructor
  · intro heq
    have hsmall : sent < 2 ^ 32 := by
      by_contra hlarge
      -- Half of a large counter is lost, and less than half of the duration.
      have hhalf : 2 * (sent % 2 ^ 32) < sent := by omega
      have hlt : sent % 2 ^ 32 * (seconds * 1000000000 + nanos) < sent * (seconds * 1000000000) :=
        calc sent % 2 ^ 32 * (seconds * 1000000000 + nanos)
            ≤ sent % 2 ^ 32 * (2 * (seconds * 1000000000)) := Nat.mul_le_mul_left _ (by omega)
          _ = 2 * (sent % 2 ^ 32) * (seconds * 1000000000) := by ring
          _ < sent * (seconds * 1000000000) := Nat.mul_lt_mul_of_pos_right hhalf (by omega)
      omega
    rw [Nat.mod_eq_of_lt hsmall] at heq
    have hzero := Nat.eq_of_mul_eq_mul_left hsent heq
    exact ⟨hsmall, by omega⟩
  · rintro ⟨hsmall, rfl⟩
    rw [Nat.mod_eq_of_lt hsmall, Nat.add_zero]

/-! ## What the metrics are computed from -/

def counterValue (r : Result) (name : Str) : Option UInt64 :=
  (r.counters.find? fun c => c.name = name).map (·.value)

/-- An output of so many workers, with a global result of at least a second in which something was
sent. -/
structure Measurement (output : Output) where
  globalResult : Result
  sent : UInt64
  successes : UInt64
  seconds : ℕ
  nanos : ℕ
  workers : ℕ
  requestsPerSecond : UInt32
  getResult_eq : getResult output "global".toList = .ok globalResult
  duration_eq : globalResult.executionDuration = some ⟨seconds, nanos⟩
  seconds_pos : 0 < seconds
  nanos_lt : nanos < 1000000000
  sent_eq : counterValue globalResult "upstream_rq_total".toList = some sent
  sent_pos : 0 < sent.toNat
  successes_eq : counterValue globalResult "benchmark.http_2xx".toList = some successes
  workers_pos : 0 < workers
  results_eq : output.results.length = if workers = 1 then 1 else workers + 1
  rps_eq : (output.options.getD {}).requestsPerSecond = some requestsPerSecond
  rps_pos : 0 < requestsPerSecond.toNat

namespace Measurement

variable {output : Output} (m : Measurement output)

def duration : ℚ := m.seconds + m.nanos / 1000000000

/-- The number of requests that the options ask for in whole seconds. -/
def specified : ℕ := m.requestsPerSecond.toNat * m.seconds * m.workers

/-- The specified number as the code has it. -/
def totalSpecified : ℤ := int64 m.specified

/-- A counter as the code has it. -/
def wrapped (counter : UInt64) : ℕ := counter.toNat % 2 ^ 32

theorem counterOrNan_eq {r : Result} {name : Str} {value : UInt64} (h : counterValue r name = some value) :
    counterOrNan r name = (.num (wrapped value), []) := by
  obtain ⟨counter, hfind, rfl⟩ := Option.map_eq_some_iff.mp h
  simp only [counterOrNan, getCounter, getNamed, hfind, Except.map, UInt64.toNat_toUInt32, wrapped]

theorem extractCounters_eq :
    extractCounters output =
      ([("attempted-rps".toList, .num (m.totalSpecified / m.seconds)),
        ("achieved-rps".toList, .num (wrapped m.sent / m.seconds)),
        ("send-rate".toList, .num (if 0 < m.totalSpecified then wrapped m.sent / m.totalSpecified else 0)),
        ("success-rate".toList,
        .num (if 0 < wrapped m.sent then wrapped m.successes / wrapped m.sent else 0))], []) := by
  have hworkers : (if output.results.length = 1 then 1 else output.results.length - 1) = m.workers := by
    have hpos := m.workers_pos
    rw [m.results_eq]
    split_ifs <;> omega
  have hspecified : int64 (m.requestsPerSecond.toNat * m.seconds * m.workers) = m.totalSpecified := by
    simp [totalSpecified, specified]
  have hseconds : (0 : ℤ) < m.seconds := by exact_mod_cast m.seconds_pos
  have hne : (m.seconds : ℚ) ≠ 0 := by exact_mod_cast m.seconds_pos.ne'
  have hsend := Nan.ite_num_div_num (wrapped m.sent : ℚ) m.totalSpecified 0
    fun hpos : 0 < m.totalSpecified => by exact_mod_cast hpos.ne'
  have hsuccess := Nan.ite_num_div_num (wrapped m.successes : ℚ) (wrapped m.sent) 0
    fun hpos : 0 < wrapped m.sent => by exact_mod_cast hpos.ne'
  simp only [extractCounters, m.getResult_eq, m.duration_eq, Option.getD_some, hworkers, m.rps_eq, hspecified,
    counterOrNan_eq m.sent_eq, counterOrNan_eq m.successes_eq, hseconds, if_true, List.cons_append,
    List.nil_append, Int.cast_natCast, Nan.num_div_num _ _ hne, Nan.num_lt_num, Nat.cast_pos, hsend, hsuccess]

/-- The metric is extracted from the output. The plugin returns it unless the latency statistic is missing. -/
structure Reports (output : Output) (name : Str) (rate : ℚ) : Prop where
  extracted : (extractCounters output).1.lookup name = some (.num rate)
  returned : (extractStatistics output).2 = [] →
    ∀ benchmark, (nighthawkStatsEmulatedMetricsPlugin output).getMetricByName benchmark name = .ok (.num rate)

/-- The rates are the exact quotients, and the success rate of a consistent output is one of a
part. -/
structure RatesExact : Prop where
  successRate : Reports output "success-rate".toList (m.successes.toNat / m.sent.toNat)
  achievedRps : Reports output "achieved-rps".toList (m.sent.toNat / m.duration)
  sendRate : Reports output "send-rate".toList
    (m.sent.toNat / (m.requestsPerSecond.toNat * m.workers * m.duration))
  successRate_le : m.successes.toNat ≤ m.sent.toNat →
    ∃ rate, Reports output "success-rate".toList rate ∧ 0 ≤ rate ∧ rate ≤ 1

include m in
theorem reports_iff {name : Str} {rate : ℚ} :
    Reports output name rate ↔ (extractCounters output).1.lookup name = some (.num rate) := by
  refine ⟨Reports.extracted, fun hlookup => ⟨hlookup, fun hstatistics benchmark => ?_⟩⟩
  have hcounters : (extractCounters output).2 = [] := by rw [m.extractCounters_eq]
  have hboth : ((extractCounters output).1 ++ (extractStatistics output).1).lookup name =
      some (.num rate) := by
    rw [List.lookup_append, hlookup, Option.some_or]
  simp only [nighthawkStatsEmulatedMetricsPlugin, hcounters, hstatistics, List.append_nil, ne_eq,
    not_true_eq_false, if_false, hboth]

theorem lookup_rates :
    (extractCounters output).1.lookup "success-rate".toList =
        some (.num (if 0 < wrapped m.sent then wrapped m.successes / wrapped m.sent else 0)) ∧
      (extractCounters output).1.lookup "achieved-rps".toList = some (.num (wrapped m.sent / m.seconds)) ∧
      (extractCounters output).1.lookup "send-rate".toList =
        some (.num (if 0 < m.totalSpecified then wrapped m.sent / m.totalSpecified else 0)) := by
  rw [m.extractCounters_eq]
  exact ⟨rfl, rfl, rfl⟩

theorem achievedRps_iff :
    (wrapped m.sent / m.seconds : ℚ) = m.sent.toNat / m.duration ↔ m.sent.toNat < 2 ^ 32 ∧ m.nanos = 0 := by
  have hseconds : (m.seconds : ℚ) ≠ 0 := by exact_mod_cast m.seconds_pos.ne'
  have htotal : ((m.seconds * 1000000000 + m.nanos : ℕ) : ℚ) ≠ 0 := by
    have hpos := m.seconds_pos
    exact_mod_cast (by omega : m.seconds * 1000000000 + m.nanos ≠ 0)
  have hduration : m.duration = ((m.seconds * 1000000000 + m.nanos : ℕ) : ℚ) / 1000000000 := by
    rw [duration]
    push_cast
    field_simp
  rw [← achieved_iff m.sent_pos m.seconds_pos m.nanos_lt, hduration, div_div_eq_mul_div,
    div_eq_div_iff hseconds htotal]
  have hswap : m.sent.toNat * (m.seconds * 1000000000) = m.sent.toNat * 1000000000 * m.seconds := by ring
  rw [hswap, ← wrapped]
  exact_mod_cast Iff.rfl

theorem specified_pos : 0 < m.specified :=
  Nat.mul_pos (Nat.mul_pos m.rps_pos m.seconds_pos) m.workers_pos

theorem totalSpecified_eq_iff : m.totalSpecified = m.specified ↔ m.specified < 2 ^ 63 := by
  unfold totalSpecified int64
  constructor
  · intro heq
    have hlt := Int.bmod_lt (x := m.specified) (m := 2 ^ 64) (by omega)
    omega
  · intro hlt
    exact Int.bmod_eq_of_le (by omega) (by omega)

theorem sendRate_iff (hsmall : m.sent.toNat < 2 ^ 32) (hnanos : m.nanos = 0) :
    ((if 0 < m.totalSpecified then wrapped m.sent / m.totalSpecified else 0 : ℚ) =
      m.sent.toNat / (m.requestsPerSecond.toNat * m.workers * m.duration)) ↔ m.specified < 2 ^ 63 := by
  have hsent : (m.sent.toNat : ℚ) ≠ 0 := by exact_mod_cast m.sent_pos.ne'
  have hexact : (m.requestsPerSecond.toNat * m.workers * m.duration : ℚ) = m.specified := by
    rw [duration, hnanos, specified]
    push_cast
    ring
  rw [hexact, wrapped, Nat.mod_eq_of_lt hsmall, ← m.totalSpecified_eq_iff]
  have hspecified : (m.specified : ℚ) ≠ 0 := by exact_mod_cast m.specified_pos.ne'
  split_ifs with hpos
  · have htotal : (m.totalSpecified : ℚ) ≠ 0 := by exact_mod_cast hpos.ne'
    rw [div_eq_div_iff htotal hspecified, mul_right_inj' hsent, eq_comm, ← Int.cast_natCast, Int.cast_inj]
  · refine iff_of_false ?_ ?_
    · exact fun hzero => (div_ne_zero hsent hspecified) hzero.symm
    · intro heq
      rw [heq] at hpos
      exact hpos (by exact_mod_cast m.specified_pos)

/-- The rates are exact exactly when both counters fit in 32 bits, the duration is a whole number of
seconds, and the specified number of requests fits in 63 bits. -/
theorem ratesExact_iff : m.RatesExact ↔
    m.sent.toNat < 2 ^ 32 ∧ m.successes.toNat < 2 ^ 32 ∧ m.nanos = 0 ∧
      m.requestsPerSecond.toNat * m.seconds * m.workers < 2 ^ 63 := by
  obtain ⟨hsuccess, hachieved, hsend⟩ := m.lookup_rates
  have hsent : (m.sent.toNat : ℚ) ≠ 0 := by exact_mod_cast m.sent_pos.ne'
  have hsuccess_iff : m.sent.toNat < 2 ^ 32 →
      ((if 0 < wrapped m.sent then wrapped m.successes / wrapped m.sent else 0 : ℚ) =
        m.successes.toNat / m.sent.toNat ↔
        m.successes.toNat < 2 ^ 32) := by
    intro hsmall
    have hwrapped : wrapped m.sent = m.sent.toNat := Nat.mod_eq_of_lt hsmall
    rw [hwrapped, if_pos m.sent_pos, div_left_inj' hsent, Nat.cast_inj, wrapped]
    exact Nat.mod_eq_iff_lt (by decide)
  constructor
  · intro h
    obtain ⟨hsmall, hnanos⟩ :=
      m.achievedRps_iff.mp (Nan.num.inj (Option.some.inj (hachieved.symm.trans h.achievedRps.extracted)))
    refine ⟨hsmall, ?_, hnanos, ?_⟩
    · exact (hsuccess_iff hsmall).mp
        (Nan.num.inj (Option.some.inj (hsuccess.symm.trans h.successRate.extracted)))
    · exact (m.sendRate_iff hsmall hnanos).mp
        (Nan.num.inj (Option.some.inj (hsend.symm.trans h.sendRate.extracted)))
  · rintro ⟨hsmall, hsmall', hnanos, hspecified⟩
    have hrate := (hsuccess_iff hsmall).mpr hsmall'
    refine ⟨m.reports_iff.mpr ?_, m.reports_iff.mpr ?_, m.reports_iff.mpr ?_, ?_⟩
    · rw [hsuccess, hrate]
    · rw [hachieved, m.achievedRps_iff.mpr ⟨hsmall, hnanos⟩]
    · rw [hsend, (m.sendRate_iff hsmall hnanos).mpr hspecified]
    · intro hle
      refine ⟨_, m.reports_iff.mpr (by rw [hsuccess, hrate]), by positivity, ?_⟩
      rw [div_le_one (by exact_mod_cast m.sent_pos)]
      exact_mod_cast hle

/-- A global result that took this long, with these counters and the latency statistic. -/
def globalOutput (duration : Duration) (sent successes : UInt64) : Output :=
  { options := some { requestsPerSecond := some 10 }
    results := [{ name := "global".toList, executionDuration := some duration
                  statistics := [{ id := "benchmark_http_client.request_to_response".toList }]
                  counters := [⟨"upstream_rq_total".toList, sent⟩,
                    ⟨"benchmark.http_2xx".toList, successes⟩] }] }

def ofGlobalOutput (seconds nanos : ℕ) (sent successes : UInt64) (hseconds : 0 < seconds)
    (hnanos : nanos < 1000000000)
    (hsent : 0 < sent.toNat) : Measurement (globalOutput ⟨seconds, nanos⟩ sent successes) where
  globalResult := _
  sent := sent
  successes := successes
  seconds := seconds
  nanos := nanos
  workers := 1
  requestsPerSecond := 10
  getResult_eq := rfl
  duration_eq := rfl
  seconds_pos := hseconds
  nanos_lt := hnanos
  sent_eq := rfl
  sent_pos := hsent
  successes_eq := rfl
  workers_pos := by decide
  results_eq := rfl
  rps_eq := rfl
  rps_pos := by decide

theorem ratesExact_small :
    (ofGlobalOutput 2 0 20 15 (by decide) (by decide) (by decide)).RatesExact ∧
      (nighthawkStatsEmulatedMetricsPlugin (globalOutput ⟨2, 0⟩ 20 15)).getMetricByName 0
        "success-rate".toList =
        .ok (.num (15 / 20)) := by
  have hexact := (ratesExact_iff
    (ofGlobalOutput 2 0 20 15 (by decide) (by decide) (by decide))).mpr (by decide)
  exact ⟨hexact, hexact.successRate.returned rfl 0⟩

/-- A counter of 33 bits gives a success rate of two, and half a second is not seen. -/
theorem rates_of_cut_values :
    Reports (globalOutput ⟨1, 0⟩ 4294967297 2) "success-rate".toList 2 ∧
      ¬(ofGlobalOutput 1 0 4294967297 2 (by decide) (by decide) (by decide)).RatesExact ∧
      Reports (globalOutput ⟨1, 500000000⟩ 15 15) "achieved-rps".toList 15 ∧
      ¬(ofGlobalOutput 1 500000000 15 15 (by decide) (by decide) (by decide)).RatesExact := by
  have hsuccess : Reports (globalOutput ⟨1, 0⟩ 4294967297 2) "success-rate".toList 2 :=
    (reports_iff (ofGlobalOutput 1 0 4294967297 2 (by decide) (by decide) (by decide))).mpr
      (by decide +kernel)
  have hachieved : Reports (globalOutput ⟨1, 500000000⟩ 15 15) "achieved-rps".toList 15 :=
    (reports_iff (ofGlobalOutput 1 500000000 15 15 (by decide) (by decide) (by decide))).mpr
      (by decide +kernel)
  refine ⟨hsuccess, ?_, hachieved, ?_⟩
  · intro hexact
    obtain ⟨rate, hrate, -, hle⟩ := hexact.successRate_le (by decide)
    cases Option.some.inj (hsuccess.extracted.symm.trans hrate.extracted)
    exact absurd hle (by decide)
  · intro hexact
    have hrate := Nan.num.inj (Option.some.inj (hachieved.extracted.symm.trans hexact.achievedRps.extracted))
    exact absurd hrate (by decide +kernel)

end Measurement

end Nighthawk.AdaptiveLoad

import Nighthawk.RateLimiter.Caller

/-!
# The linear limiter keeps its schedule

The limiter is a pacer for the schedule `due`. The source declares one of its counters as an
`int64_t` and the other as a `uint64_t`, and subtracts them as unsigned numbers. These have the
values of the exact counters for as long as less than `2 ^ 63` acquisitions are due.
-/

namespace Nighthawk.RateLimiter

namespace LinearRateLimiter

theorem due_schedule {f : Frequency} (hf : 0 < f.hertz) : Pacer.Schedule (due f) where
  zero := due_zero f hf
  mono _ h := due_mono f hf h

/-- The limiter after the clock was read. -/
def refill (l : LinearRateLimiter) (now : ℤ) : LinearRateLimiter :=
  { l with
    startTime := some (l.startTime.getD now)
    acquireableCount := due l.frequency (now - l.startTime.getD now) - l.acquiredCount }

theorem tryAcquireOne_eq (l : LinearRateLimiter) (e : Env) :
    l.tryAcquireOne e =
      if 0 < l.acquireableCount then (true, l.acquire, e)
      else if 0 < (l.refill e.monotonicTime.1).acquireableCount then
        (true, (l.refill e.monotonicTime.1).acquire, e.monotonicTime.2)
      else (false, l.refill e.monotonicTime.1, e.monotonicTime.2) := by
  simp only [tryAcquireOne, elapsed]
  rfl

def toPacer (l : LinearRateLimiter) : Pacer := ⟨l.startTime, l.acquireableCount, l.acquiredCount⟩

def total (l : LinearRateLimiter) : ℤ → ℤ := due l.frequency

theorem toPacer_refill (l : LinearRateLimiter) (now : ℤ) :
    (l.refill now).toPacer = l.toPacer.refill l.total now := by
  rfl

instance : Pacing LinearRateLimiter where
  schedule := total
  pacer := toPacer
  try_spec {l e _ _ _} _ h :=
    poll_of_refill total toPacer acquire refill (fun _ => ⟨rfl, rfl⟩)
      (fun l now => ⟨rfl, l.toPacer_refill now⟩)
      ((l.tryAcquireOne_eq e).symm.trans h)
  release_spec _ _ := ⟨rfl, rfl, rfl⟩

end LinearRateLimiter

/-! ## The counters as words -/

/-- `LinearRateLimiter` with the counters as they are declared. -/
structure LinearRateLimiter64 where
  frequency : Frequency
  startTime : Option ℤ := none
  acquireableCount : Int64 := 0
  acquiredCount : UInt64 := 0
  deriving DecidableEq

namespace LinearRateLimiter64

def elapsed (l : LinearRateLimiter64) (e : Env) : ℤ × LinearRateLimiter64 × Env :=
  let (now, e) := e.monotonicTime
  let start := l.startTime.getD now
  (now - start, { l with startTime := some start }, e)

def acquire (l : LinearRateLimiter64) : LinearRateLimiter64 :=
  { l with acquireableCount := l.acquireableCount - 1, acquiredCount := l.acquiredCount + 1 }

def tryAcquireOne (l : LinearRateLimiter64) (e : Env) : Bool × LinearRateLimiter64 × Env :=
  if 0 < l.acquireableCount then (true, l.acquire, e)
  else
    let (nanos, l, e) := l.elapsed e
    let floor := Int64.ofInt (LinearRateLimiter.due l.frequency nanos)
    -- The `int64_t` is converted for the subtraction, and the difference is converted back.
    let l := { l with acquireableCount := (floor.toUInt64 - l.acquiredCount).toInt64 }
    if 0 < l.acquireableCount then (true, l.acquire, e) else (false, l, e)

def releaseOne (l : LinearRateLimiter64) (e : Env) : Released LinearRateLimiter64 :=
  ⟨{ l with acquireableCount := l.acquireableCount + 1, acquiredCount := l.acquiredCount - 1 }, e, []⟩

instance : Limiter LinearRateLimiter64 := ⟨tryAcquireOne, releaseOne⟩

def value (l : LinearRateLimiter64) : LinearRateLimiter :=
  ⟨l.frequency, l.startTime, l.acquireableCount.toInt, l.acquiredCount.toNat⟩

theorem toInt_sub_one {a : Int64} (h : 0 < a.toInt) : (a - 1).toInt = a.toInt - 1 := by
  have hlt := a.toInt_lt
  have hone : (1 : Int64).toInt = 1 := rfl
  rw [Int64.toInt_sub, hone, Int.bmod_eq_of_le] <;> omega

theorem toInt_add_one {a : Int64} (h : 0 ≤ a.toInt) (hlt : a.toInt + 1 < 2 ^ 63) :
    (a + 1).toInt = a.toInt + 1 := by
  have hone : (1 : Int64).toInt = 1 := rfl
  rw [Int64.toInt_add, hone, Int.bmod_eq_of_le] <;> omega

theorem toNat_add_one {a : UInt64} (h : a.toNat + 1 < 2 ^ 64) : (a + 1).toNat = a.toNat + 1 := by
  have hone : (1 : UInt64).toNat = 1 := rfl
  rw [UInt64.toNat_add, hone]
  omega

theorem toNat_sub_one {a : UInt64} (h : 0 < a.toNat) : (a - 1).toNat = a.toNat - 1 := by
  have hone : (1 : UInt64).toNat = 1 := rfl
  have hlt := a.toNat_lt
  rw [UInt64.toNat_sub, hone]
  omega

/-- The mixed difference is right when neither number needs the top bit. -/
theorem toInt_refill {n : ℤ} {a : UInt64} (hle : a.toNat ≤ n) (hlt : n < 2 ^ 63) :
    ((Int64.ofInt n).toUInt64 - a).toInt64.toInt = n - a.toNat := by
  have ha : a.toInt64.toInt = a.toNat := by
    have h : a.toInt64.toInt = a.toBitVec.toInt := rfl
    rw [h, BitVec.toInt_eq_toNat_cond, UInt64.toNat_toBitVec]
    split_ifs <;> omega
  rw [UInt64.toInt64_sub, Int64.toInt64_toUInt64, Int64.toInt_sub, ha, Int64.toInt_ofInt_of_le (by omega) hlt,
    Int.bmod_eq_of_le] <;> omega

theorem pos_iff (a : Int64) : 0 < a ↔ 0 < a.toInt := Int64.lt_iff_toInt_lt

/-- The counters after the call fit into the words. -/
def Fits (l : LinearRateLimiter) : Prop :=
  0 ≤ l.acquireableCount ∧ l.acquireableCount + l.acquiredCount < 2 ^ 63

theorem acquire_value {l : LinearRateLimiter64} (hpos : 0 < l.acquireableCount.toInt)
    (hfits : Fits l.value.acquire) :
    l.acquire.value = l.value.acquire := by
  have hsum : l.acquireableCount.toInt - 1 + (l.acquiredCount.toNat + 1) < 2 ^ 63 := hfits.2
  have hadd := toNat_add_one (a := l.acquiredCount) (by omega)
  simp only [value, acquire, LinearRateLimiter.acquire, toInt_sub_one hpos, hadd]
  push_cast
  rfl

def refill (l : LinearRateLimiter64) (now : ℤ) : LinearRateLimiter64 :=
  let floor := Int64.ofInt (LinearRateLimiter.due l.frequency (now - l.startTime.getD now))
  { l with
    startTime := some (l.startTime.getD now)
    acquireableCount := (floor.toUInt64 - l.acquiredCount).toInt64 }

theorem tryAcquireOne_eq (l : LinearRateLimiter64) (e : Env) :
    l.tryAcquireOne e =
      if 0 < l.acquireableCount.toInt then (true, l.acquire, e)
      else if 0 < (l.refill e.monotonicTime.1).acquireableCount.toInt then
        (true, (l.refill e.monotonicTime.1).acquire, e.monotonicTime.2)
      else (false, l.refill e.monotonicTime.1, e.monotonicTime.2) := by
  simp only [tryAcquireOne, elapsed, pos_iff]
  rfl

theorem refill_value {l : LinearRateLimiter64} {now : ℤ} (hfits : Fits (l.value.refill now)) :
    (l.refill now).value = l.value.refill now := by
  have hpos := hfits.1
  have hsum := hfits.2
  simp only [LinearRateLimiter.refill, value] at hpos hsum
  simp only [value, refill, LinearRateLimiter.refill]
  rw [toInt_refill (by omega) (by omega)]

theorem tryAcquireOne_value (m : LinearRateLimiter64) (e : Env) {r : Bool} {l : LinearRateLimiter} {e' : Env}
    (h : m.value.tryAcquireOne e = (r, l, e')) (hfits : Fits l) :
    ∃ m', m.tryAcquireOne e = (r, m', e') ∧ m'.value = l := by
  rw [LinearRateLimiter.tryAcquireOne_eq] at h
  rw [tryAcquireOne_eq]
  split_ifs at h with hpos hdue
  · cases h
    exact ⟨m.acquire, if_pos hpos, acquire_value hpos hfits⟩
  · cases h
    have hrefill : Fits (m.value.refill e.monotonicTime.1) := by
      have hsum := hfits.2
      simp only [LinearRateLimiter.acquire] at hsum
      exact ⟨hdue.le, by omega⟩
    have hv := refill_value hrefill
    have hdue' : 0 < (m.refill e.monotonicTime.1).acquireableCount.toInt := by
      rw [← hv] at hdue
      exact hdue
    refine ⟨_, (if_neg hpos).trans (if_pos hdue'), ?_⟩
    rw [← hv] at hfits ⊢
    exact acquire_value hdue' hfits
  · cases h
    have hv := refill_value hfits
    have hdue' : ¬ 0 < (m.refill e.monotonicTime.1).acquireableCount.toInt := by
      rw [← hv] at hdue
      exact hdue
    exact ⟨_, (if_neg hpos).trans (if_neg hdue'), hv⟩

theorem releaseOne_value (m : LinearRateLimiter64) (e : Env) (hpos : 0 < m.acquiredCount.toNat)
    (hfits : Fits m.value) : (m.releaseOne e).limiter.value = (m.value.releaseOne e).limiter := by
  have havail : 0 ≤ m.acquireableCount.toInt := hfits.1
  have hsum : m.acquireableCount.toInt + m.acquiredCount.toNat < 2 ^ 63 := hfits.2
  simp only [releaseOne, value, LinearRateLimiter.releaseOne, toInt_add_one havail (by omega),
    toNat_sub_one hpos]
  congr 1
  omega

theorem fits_of_paced {S : ℤ → ℤ} (hS : Pacer.Schedule S) {s : Caller LinearRateLimiter} (h : s.Paced S)
    (hlt : S s.elapsed < 2 ^ 63) : Fits s.limiter := by
  have htotal : s.limiter.acquiredCount + s.limiter.acquireableCount ≤ S s.elapsed := by
    rw [← Caller.due_eq hS h]
    exact h.tracks.total
  exact ⟨h.tracks.available, by omega⟩

/-- A call of the words is a call of their values, for as long as these fit. -/
theorem step_value {S : ℤ → ℤ} (hS : Pacer.Schedule S) {m : Caller LinearRateLimiter64}
    {s : Caller LinearRateLimiter}
    {c : Call} (h : (m.map value).Paced S) (hs : (m.map value).step Caller.unreleased c = some s)
    (hlt : S s.elapsed < 2 ^ 63) : ∃ m', m.step Caller.unreleased c = some m' ∧ m'.map value = s := by
  have hfits := fits_of_paced hS (Caller.step_paced hS h hs) hlt
  cases c with
  | tryAcquireOne gaps delay =>
    cases hs
    rcases hcall : m.limiter.value.tryAcquireOne ⟨m.time, gaps, delay⟩ with ⟨r, l, e'⟩
    have hpoll : (m.map value).poll gaps delay = (m.map value).polled r l e'.time := Caller.poll_eq hcall
    rw [hpoll] at hfits ⊢
    obtain ⟨l', hword, rfl⟩ := tryAcquireOne_value m.limiter _ hcall hfits
    refine ⟨m.poll gaps delay, rfl, ?_⟩
    rw [Caller.poll_eq hword]
    rfl
  | releaseOne gaps =>
    simp only [Caller.step] at hs ⊢
    split_ifs at hs with hu
    cases hs
    have hu' : m.unreleased = true := hu
    refine ⟨m.release gaps, if_pos hu', ?_⟩
    have hfits' : Fits m.limiter.value := by
      refine fits_of_paced hS h (lt_of_le_of_lt (hS.mono (Caller.elapsed_nonneg h) ?_) hlt)
      have hstep : (m.map value).step Caller.unreleased (.releaseOne gaps) =
          some ((m.map value).release gaps) :=
        if_pos hu
      exact Caller.step_elapsed h hstep
    have hpos : 0 < m.limiter.acquiredCount.toNat := by
      have hheld : (m.limiter.acquiredCount.toNat : ℤ) = m.successes - m.releases := h.held
      have hlt' : m.releases < m.successes := by simpa [Caller.unreleased] using hu'
      omega
    have hvalue := releaseOne_value m.limiter ⟨m.time, gaps, 0⟩ hpos hfits'
    simp only [Caller.release, Caller.map, Limiter.releaseOne]
    rw [hvalue]
    rfl

/-- The words count the same in the same calls. -/
def Mirrors (f : Frequency) (t : ℤ) (cs : List Call) (s : Caller LinearRateLimiter) : Prop :=
  ∃ m : Caller LinearRateLimiter64,
    Runs.exec (Caller.step Caller.unreleased) { limiter := { frequency := f }, time := t } cs = some m ∧
      m.map value = s

theorem init_mirrors (f : Frequency) (t : ℤ) :
    Mirrors f t [] { limiter := { frequency := f }, time := t } := by
  refine ⟨_, rfl, ?_⟩
  simp [Caller.map, value]

theorem step_mirrors {f : Frequency} (hf : 0 < f.hertz) {t : ℤ} {cs : List Call}
    {u s : Caller LinearRateLimiter}
    {c : Call} (hu : u.Paced (LinearRateLimiter.due f)) (ih : Mirrors f t cs u)
    (hs : u.step Caller.unreleased c = some s) (hlt : LinearRateLimiter.due f s.elapsed < 2 ^ 63) :
    Mirrors f t (cs ++ [c]) s := by
  obtain ⟨m, hm, rfl⟩ := ih
  obtain ⟨m', hm', rfl⟩ := step_value (LinearRateLimiter.due_schedule hf) hu hs hlt
  exact ⟨m', (Runs.exec_snoc_eq_some _).mpr ⟨m, hm, hm'⟩, rfl⟩

theorem run_mirrors {f : Frequency} (hf : 0 < f.hertz) {t : ℤ} {cs : List Call} {s : Caller LinearRateLimiter}
    (hr : Runs.exec (Caller.step Caller.unreleased) { limiter := { frequency := f }, time := t } cs = some s)
    (hlt : LinearRateLimiter.due f s.elapsed < 2 ^ 63) : Mirrors f t cs s := by
  have hS := LinearRateLimiter.due_schedule hf
  induction cs using List.reverseRecOn generalizing s with
  | nil =>
    cases hr
    exact init_mirrors f t
  | append_singleton cs c ih =>
    obtain ⟨u, hu, hs⟩ := (Runs.exec_snoc_eq_some _).mp hr
    have hpaced : u.Paced (LinearRateLimiter.due f) := Caller.run_paced hS rfl rfl hu
    have hmono := hS.mono (Caller.elapsed_nonneg hpaced) (Caller.step_elapsed hpaced hs)
    exact step_mirrors hf hpaced (ih hu (lt_of_le_of_lt hmono hlt)) hs hlt

end LinearRateLimiter64

/-! ## Exactness -/

/-- The caller of a linear limiter never holds more than the rounded schedule, and holds just
that after every refused poll. The 64-bit counters count the same while it is below `2 ^ 63`. -/
theorem linear_exact (f : Frequency) (hf : 1 ≤ f.hertz) (t : ℤ) (cs : List Call)
    (s : Caller LinearRateLimiter)
    (hr : Runs.exec (Caller.step Caller.unreleased)
      { limiter := { frequency := f }, time := t } cs = some s) :
    s.held ≤ ⌊(s.elapsed : ℚ) / 10 ^ 9 * f.hertz + 1 / 2⌋ ∧
      (s.answer = some false → s.held = ⌊(s.elapsed : ℚ) / 10 ^ 9 * f.hertz + 1 / 2⌋) ∧
      (⌊(s.elapsed : ℚ) / 10 ^ 9 * f.hertz + 1 / 2⌋ < 2 ^ 63 →
        ∃ m : Caller LinearRateLimiter64,
          Runs.exec (Caller.step Caller.unreleased) { limiter := { frequency := f }, time := t } cs = some m ∧
            m.map LinearRateLimiter64.value = s) := by
  have hS := LinearRateLimiter.due_schedule hf
  have hpaced := Caller.run_paced hS rfl rfl hr
  obtain ⟨hle, hexact⟩ := Caller.held_spec hS hpaced
  rw [← LinearRateLimiter.due_eq f hf]
  exact ⟨hle, hexact, LinearRateLimiter64.run_mirrors hf hr⟩

/-- Two acquisitions at 4 Hz after half a second, one of which is handed back and taken again. -/
def linearCalls : List Call :=
  [.tryAcquireOne [7] 0, .tryAcquireOne [500000000] 0, .releaseOne [], .tryAcquireOne [] 0,
    .tryAcquireOne [] 0,
    .tryAcquireOne [1] 0]

theorem linear_exact_four_hertz :
    ∃ s : Caller LinearRateLimiter,
      Runs.exec (Caller.step Caller.unreleased)
        { limiter := { frequency := ⟨4⟩ }, time := 0 } linearCalls = some s ∧
        s.answer = some false ∧ s.held = 2 ∧ s.held = ⌊(s.elapsed : ℚ) / 10 ^ 9 * (4 : ℕ) + 1 / 2⌋ := by
  obtain ⟨s, hs, hanswer, hheld⟩ : ∃ s : Caller LinearRateLimiter,
      Runs.exec (Caller.step Caller.unreleased)
        { limiter := { frequency := ⟨4⟩ }, time := 0 } linearCalls = some s ∧
        s.answer = some false ∧ s.held = 2 :=
          ⟨_, by with_unfolding_all rfl, by with_unfolding_all rfl, by with_unfolding_all rfl⟩
  exact ⟨s, hs, hanswer, hheld, (linear_exact ⟨4⟩ (by decide) 0 linearCalls s hs).2.1 hanswer⟩

end Nighthawk.RateLimiter

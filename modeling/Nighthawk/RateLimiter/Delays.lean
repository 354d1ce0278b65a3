import Nighthawk.RateLimiter.Jitter
import Nighthawk.RateLimiter.Linear

/-!
# How long jitter delays a request

`SequencerImpl::run` polls its limiter until it answers false. The jitter limiter asks the wrapped
limiter once in each poll, so how many acquisitions it schedules at one time depends on how many
of its answers were true at that time.
-/

namespace Nighthawk.RateLimiter

/-! ## Polling until false -/

/-- One visit of the loop: the clock stands at `time`, and `delay n` is drawn in its `n`-th poll. -/
structure Visit where
  time : ℤ
  delay : ℕ → ℕ

structure Polling (σ : Type) where
  limiter : σ
  successes : ℕ := 0

/-- The most successes that a limiter can have at one time. -/
class Rounds (σ : Type) where
  rounds : σ → ℤ → ℕ

instance : Rounds LinearRateLimiter where
  rounds l t := (LinearRateLimiter.due l.frequency (t - l.startTime.getD t) - l.acquiredCount).toNat

/-- Each acquisition of the wrapped limiter may leave the queue at once, and each time in the
queue may be due. -/
instance {σ : Type} [Rounds σ] : Rounds (DelegatingRateLimiterImpl σ) where
  rounds d t := 2 * Rounds.rounds d.rateLimiter t + d.distributedTimings.length

namespace Polling

variable {σ : Type} [Limiter σ]

def loop (v : Visit) : ℕ → ℕ → Polling σ → Polling σ
  | 0, _, s => s
  | fuel + 1, n, s =>
    match Limiter.tryAcquireOne s.limiter ⟨v.time, [], v.delay n⟩ with
    | (true, limiter, _) => loop v fuel (n + 1) ⟨limiter, s.successes + 1⟩
    | (false, limiter, _) => ⟨limiter, s.successes⟩

variable [Rounds σ]

def visit (s : Polling σ) (v : Visit) : Polling σ := loop v (Rounds.rounds s.limiter v.time + 1) 0 s

def visits (s : Polling σ) (vs : List Visit) : Polling σ := vs.foldl visit s

end Polling

def linearVisits (f : Frequency) (vs : List Visit) : Polling LinearRateLimiter :=
  Polling.visits { limiter := { frequency := f } } vs

def jitterVisits (f : Frequency) (vs : List Visit) : Polling (DelegatingRateLimiterImpl LinearRateLimiter) :=
  Polling.visits { limiter := { rateLimiter := { frequency := f } } } vs

/-! ## The linear limiter -/

namespace LinearRateLimiter

/-- The limiter follows its schedule from the time `first` on, and the clock shows `t`. -/
structure Fed (f : Frequency) (first t : ℤ) (l : LinearRateLimiter) : Prop where
  frequency : l.frequency = f
  tracks : l.toPacer.Tracks (due f) t
  first : l.startTime.getD t = first
  nonneg : 0 ≤ l.acquiredCount

theorem new_fed (f : Frequency) (t : ℤ) : Fed f t t { frequency := f } :=
  ⟨rfl, Pacer.tracks_new _ t, rfl, le_rfl⟩

theorem Fed.later {f : Frequency} (hf : 0 < f.hertz) {first t u : ℤ} {l : LinearRateLimiter}
    (h : Fed f first t l)
    (hstart : l.startTime = some first) (hle : t ≤ u) : Fed f first u l :=
  ⟨h.frequency, h.tracks.later (due_schedule hf) hle, by rw [hstart]; rfl, h.nonneg⟩

theorem Fed.acquired_le {f : Frequency} (hf : 0 < f.hertz) {first t : ℤ} {l : LinearRateLimiter}
    (h : Fed f first t l) :
    l.acquiredCount ≤ due f (t - first) := by
  have hfirst := h.first
  have havail : 0 ≤ l.acquireableCount := h.tracks.available
  have htotal : l.acquiredCount + l.acquireableCount ≤ l.toPacer.due (due f) t := h.tracks.total
  cases hstart : l.startTime with
  | none =>
    rw [hstart] at hfirst
    simp only [Pacer.due, toPacer, hstart] at htotal
    rw [← hfirst, Option.getD_none, sub_self, due_zero f hf]
    omega
  | some start =>
    rw [hstart] at hfirst
    simp only [Pacer.due, toPacer, hstart] at htotal
    rw [← hfirst, Option.getD_some]
    omega

theorem tryAcquireOne_frequency (l : LinearRateLimiter) (e : Env) :
    (l.tryAcquireOne e).2.1.frequency = l.frequency := by
  rw [tryAcquireOne_eq]
  split_ifs <;> rfl

structure Fed.Call (f : Frequency) (first t : ℤ) (l : LinearRateLimiter) (r : Bool)
    (l' : LinearRateLimiter) : Prop where
  fed : Fed f first t l'
  start : l'.startTime = some first
  granted : r = true ↔ l.acquiredCount < due f (t - first)
  acquired : l'.acquiredCount = l.acquiredCount + if r then 1 else 0

theorem Fed.call {f : Frequency} (hf : 0 < f.hertz) {first t : ℤ} {l : LinearRateLimiter}
    (h : Fed f first t l)
    {delay : ℕ} {r : Bool} {l' : LinearRateLimiter} {e' : Env}
    (hcall : Limiter.tryAcquireOne l ⟨t, [], delay⟩ = (r, l', e')) : Fed.Call f first t l r l' := by
  have hS := due_schedule hf
  have hsched : schedule l = due f := congrArg due h.frequency
  obtain ⟨-, hpoll, -⟩ := Pacing.try_spec (s := l) h.tracks.available hcall
  have hnow : (Env.monotonicTime ⟨t, [], delay⟩).1 = t := rfl
  rw [hsched, hnow] at hpoll
  have hr : (l.toPacer.poll (due f) t).1 = r := (congrArg Prod.fst hpoll).symm
  have hpacer : (l.toPacer.poll (due f) t).2 = l'.toPacer := (congrArg Prod.snd hpoll).symm
  have hstart : l'.startTime = some first := by
    have := Pacer.poll_start h.tracks h.nonneg t
    rw [hpacer] at this
    exact this.trans (congrArg some h.first)
  have hacquired : l'.acquiredCount = l.acquiredCount + if r then 1 else 0 := by
    have := Pacer.poll_taken (due f) l.toPacer t
    rw [hpacer, hr] at this
    exact this
  refine ⟨⟨?_, ?_, ?_, ?_⟩, hstart, ?_, hacquired⟩
  · have := tryAcquireOne_frequency l ⟨t, [], delay⟩
    rw [show l.tryAcquireOne ⟨t, [], delay⟩ = (r, l', e') from hcall] at this
    exact this.trans h.frequency
  · have := Pacer.poll_tracks hS h.tracks (le_refl t)
    rw [hpacer, ite_self] at this
    exact this
  · rw [hstart]
    rfl
  · have := h.nonneg
    rw [hacquired]
    split_ifs <;> omega
  · have := Pacer.poll_granted_iff hS h.tracks (le_refl t)
    rw [hr] at this
    rw [this]
    show l.acquiredCount < due f (t - l.startTime.getD t) ↔ _
    rw [h.first]

instance : KeepsDelay LinearRateLimiter where
  try_delay {l e r l' e'} h := by
    have h : l.tryAcquireOne e = (r, l', e') := h
    have hdelay : e.monotonicTime.2.delay = e.delay := by
      unfold Env.monotonicTime
      split <;> rfl
    rw [tryAcquireOne_eq] at h
    split_ifs at h <;> cases h
    · rfl
    · exact hdelay
    · exact hdelay

end LinearRateLimiter

/-- The limiter has granted all that is due at time `t`. -/
structure Drained (f : Frequency) (first t : ℤ) (s : Polling LinearRateLimiter) : Prop where
  fed : LinearRateLimiter.Fed f first t s.limiter
  start : s.limiter.startTime = some first
  acquired : s.limiter.acquiredCount = LinearRateLimiter.due f (t - first)
  successes : (s.successes : ℤ) = s.limiter.acquiredCount

theorem loop_drained {f : Frequency} (hf : 0 < f.hertz) {first : ℤ} {v : Visit} (fuel n : ℕ)
    {s : Polling LinearRateLimiter} (h : LinearRateLimiter.Fed f first v.time s.limiter)
    (hs : (s.successes : ℤ) = s.limiter.acquiredCount)
    (hfuel : LinearRateLimiter.due f (v.time - first) - s.limiter.acquiredCount < fuel) :
    Drained f first v.time (Polling.loop v fuel n s) := by
  induction fuel generalizing n s with
  | zero =>
    have hle := h.acquired_le hf
    omega
  | succ fuel ih =>
    rcases hcall : Limiter.tryAcquireOne s.limiter ⟨v.time, [], v.delay n⟩ with ⟨r, l', e'⟩
    have hc := h.call hf hcall
    have hacquired := hc.acquired
    have hgranted := hc.granted
    simp only [Polling.loop, hcall]
    cases r with
    | true =>
      simp only [if_true] at hacquired
      refine ih (n + 1) hc.fed ?_ ?_
      · show ((s.successes + 1 : ℕ) : ℤ) = l'.acquiredCount
        omega
      · show _ - l'.acquiredCount < _
        omega
    | false =>
      have hle := hc.fed.acquired_le hf
      simp only [Bool.false_eq_true, if_false, add_zero, false_iff, not_lt] at hacquired hgranted
      refine ⟨hc.fed, hc.start, ?_, ?_⟩
      · show l'.acquiredCount = _
        omega
      · show (s.successes : ℤ) = l'.acquiredCount
        omega

theorem visits_snoc {σ : Type} [Limiter σ] [Rounds σ] (s : Polling σ) (vs : List Visit) (v : Visit) :
    s.visits (vs ++ [v]) = (s.visits vs).visit v := by
  simp [Polling.visits]

def firstTime (vs : List Visit) (v : Visit) : ℤ := (vs.head?.getD v).time

theorem firstTime_snoc (vs : List Visit) (u v : Visit) : firstTime (vs ++ [u]) v = firstTime vs u := by
  cases vs <;> rfl

theorem LinearRateLimiter.Fed.rounds_eq {f : Frequency} {first t : ℤ} {l : LinearRateLimiter}
    (h : Fed f first t l) :
    Rounds.rounds l t = (due f (t - first) - l.acquiredCount).toNat := by
  rw [← h.first, ← h.frequency]
  rfl

theorem visit_drained {f : Frequency} (hf : 0 < f.hertz) {first : ℤ} {v : Visit}
    {s : Polling LinearRateLimiter}
    (h : LinearRateLimiter.Fed f first v.time s.limiter) (hs : (s.successes : ℤ) = s.limiter.acquiredCount) :
    Drained f first v.time (s.visit v) := by
  refine loop_drained hf _ 0 h hs ?_
  rw [h.rounds_eq]
  omega

theorem visits_drained {f : Frequency} (hf : 0 < f.hertz) (vs : List Visit) (v : Visit)
    (h : (vs ++ [v]).Pairwise (·.time ≤ ·.time)) :
    Drained f (firstTime vs v) v.time (linearVisits f (vs ++ [v])) := by
  induction vs using List.reverseRecOn generalizing v with
  | nil => exact visit_drained hf (LinearRateLimiter.new_fed f v.time) rfl
  | append_singleton vs u ih =>
    obtain ⟨hvs, -, hle⟩ := List.pairwise_append.mp h
    have hu := ih u hvs
    rw [linearVisits, visits_snoc, firstTime_snoc]
    refine visit_drained hf (hu.fed.later hf hu.start ?_) hu.successes
    exact hle u (by simp) v (by simp)

theorem linearVisits_successes {f : Frequency} (hf : 0 < f.hertz) (vs : List Visit) (v : Visit)
    (h : (vs ++ [v]).Pairwise (·.time ≤ ·.time)) :
    ((linearVisits f (vs ++ [v])).successes : ℤ) = LinearRateLimiter.due f (v.time - firstTime vs v) := by
  have hd := visits_drained hf vs v h
  exact hd.successes.trans hd.acquired

/-! ## The jitter limiter -/

/-- The jitter limiter while it is polled at time `t`. -/
structure Jittering (f : Frequency) (J : ℕ) (first t : ℤ)
    (s : Polling (DelegatingRateLimiterImpl LinearRateLimiter)) :
    Prop where
  fed : LinearRateLimiter.Fed f first t s.limiter.rateLimiter
  sorted : s.limiter.distributedTimings.Pairwise (· ≤ ·)
  conserved : (s.successes : ℤ) + s.limiter.distributedTimings.length = s.limiter.rateLimiter.acquiredCount
  bounded : ∀ x ∈ s.limiter.distributedTimings, x ≤ t + J

/-- At least `n` acquisitions leave the queue by the time `u + J`. -/
def Owes (J : ℕ) (u n : ℤ) (s : Polling (DelegatingRateLimiterImpl LinearRateLimiter)) : Prop :=
  n + s.limiter.distributedTimings.countP (u + J < ·) ≤ s.limiter.rateLimiter.acquiredCount

/-- What one poll does to a jitter limiter over a linear limiter. -/
structure JitterCall (f : Frequency) (J : ℕ) (first t : ℤ)
    (s : Polling (DelegatingRateLimiterImpl LinearRateLimiter))
    (r : Bool) (s' : Polling (DelegatingRateLimiterImpl LinearRateLimiter)) : Prop where
  jittering : Jittering f J first t s'
  start : s'.limiter.rateLimiter.startTime = some first
  acquired : s'.limiter.rateLimiter.acquiredCount = s.limiter.rateLimiter.acquiredCount +
    if s.limiter.rateLimiter.acquiredCount < LinearRateLimiter.due f (t - first) then 1 else 0
  owes : ∀ u n, Owes J u n s → Owes J u n s'
  late : r = false → ∀ x ∈ s'.limiter.distributedTimings, t < x
  undelayed : r = false → J = 0 → LinearRateLimiter.due f (t - first) ≤ s.limiter.rateLimiter.acquiredCount
  shrinks : r = true →
    s'.limiter.distributedTimings.length - 2 * s'.limiter.rateLimiter.acquiredCount <
      s.limiter.distributedTimings.length - 2 * s.limiter.rateLimiter.acquiredCount

theorem call_jitters {f : Frequency} (hf : 0 < f.hertz) {J : ℕ} {first t : ℤ}
    {s : Polling (DelegatingRateLimiterImpl LinearRateLimiter)} (h : Jittering f J first t s) {delay : ℕ}
    (hdelay : delay ≤ J) {r : Bool} {d' : DelegatingRateLimiterImpl LinearRateLimiter} {e' : Env}
    (hcall : Limiter.tryAcquireOne s.limiter ⟨t, [], delay⟩ = (r, d', e')) :
    JitterCall f J first t s r ⟨d', s.successes + if r then 1 else 0⟩ := by
  obtain ⟨granted, hinner, hpolled⟩ := DelegatingRateLimiterImpl.tryAcquireOne_polled h.sorted hcall
  have hc := h.fed.call hf hinner
  have hkeep : e'.delay = delay := KeepsDelay.try_delay hinner
  have hnow : (Env.monotonicTime ⟨t, [], delay⟩).1 = t := rfl
  rw [hkeep, hnow] at hpolled
  generalize hnew : (if granted then [t + (delay : ℤ)] else []) = new at hpolled
  have hacquired : d'.rateLimiter.acquiredCount = s.limiter.rateLimiter.acquiredCount + new.length := by
    rw [hc.acquired, ← hnew, DelegatingRateLimiterImpl.length_scheduled]
    push_cast
    rfl
  have hlen := hpolled.length_eq
  have hconserved := h.conserved
  have hgranted := hc.granted
  obtain ⟨queue, hperm, -, hpopped⟩ := hpolled.queue
  have hqueue : ∀ x ∈ queue, x ≤ t + J := by
    intro x hx
    rcases List.mem_append.mp (hperm.mem_iff.mp hx) with hx | hx
    · have : x = t + delay := by
        rw [← hnew] at hx
        cases granted <;> simp at hx
        exact hx
      omega
    · exact h.bounded x hx
  constructor
  case jittering =>
    refine ⟨hc.fed, hpolled.sorted, ?_, fun x hx => hqueue x (hpopped.sublist.subset hx)⟩
    show ((s.successes + if r then 1 else 0 : ℕ) : ℤ) + d'.distributedTimings.length =
      d'.rateLimiter.acquiredCount
    omega
  case start => exact hc.start
  case acquired =>
    show d'.rateLimiter.acquiredCount = _
    rw [hc.acquired]
    simp only [← hgranted]
  case owes =>
    intro u n howes
    have hle := hpopped.sublist.countP_le (p := fun x => decide (u + J < x))
    have hnew_le := List.countP_le_length (p := fun x => decide (u + J < x)) (l := new)
    rw [hperm.countP_eq, List.countP_append] at hle
    show n + (d'.distributedTimings.countP (u + J < ·) : ℤ) ≤ d'.rateLimiter.acquiredCount
    have howes : n + (s.limiter.distributedTimings.countP (u + J < ·) : ℤ) ≤
      s.limiter.rateLimiter.acquiredCount := howes
    omega
  case late =>
    rintro rfl x hx
    obtain ⟨heq, hlate⟩ := hpopped.none rfl
    exact hlate x (heq ▸ hx)
  case undelayed =>
    rintro rfl hJ
    by_contra hlt
    have htrue : granted = true := hgranted.mpr (by omega)
    have hin : t + (delay : ℤ) ∈ queue := hperm.mem_iff.mpr (by simp [← hnew, htrue])
    have := (hpopped.none rfl).2 _ hin
    omega
  case shrinks =>
    rintro rfl
    show (d'.distributedTimings.length : ℤ) - 2 * d'.rateLimiter.acquiredCount < _
    simp only [if_true] at hlen
    omega

/-- The queue after a visit: all that has come was handed out. -/
structure Visited (f : Frequency) (J : ℕ) (first t : ℤ)
    (s s' : Polling (DelegatingRateLimiterImpl LinearRateLimiter)) : Prop where
  jittering : Jittering f J first t s'
  start : s'.limiter.rateLimiter.startTime = some first
  late : ∀ x ∈ s'.limiter.distributedTimings, t < x
  owes : ∀ u n, Owes J u n s → Owes J u n s'
  acquired : J = 0 ∨ LinearRateLimiter.due f (t - first) ≤ s.limiter.rateLimiter.acquiredCount + 1 →
    s'.limiter.rateLimiter.acquiredCount = LinearRateLimiter.due f (t - first)

theorem loop_visited {f : Frequency} (hf : 0 < f.hertz) {J : ℕ} {first : ℤ} {v : Visit}
    (hv : ∀ n, v.delay n ≤ J)
    (fuel n : ℕ) {s : Polling (DelegatingRateLimiterImpl LinearRateLimiter)}
    (h : Jittering f J first v.time s)
    (hfuel : 2 * (LinearRateLimiter.due f (v.time - first) - s.limiter.rateLimiter.acquiredCount) +
      s.limiter.distributedTimings.length < fuel) :
    Visited f J first v.time s (Polling.loop v fuel n s) := by
  induction fuel generalizing n s with
  | zero =>
    have hle := h.fed.acquired_le hf
    omega
  | succ fuel ih =>
    rcases hcall : Limiter.tryAcquireOne s.limiter ⟨v.time, [], v.delay n⟩ with ⟨r, d', e'⟩
    have hc := call_jitters hf h (hv n) hcall
    have hacquired : d'.rateLimiter.acquiredCount = s.limiter.rateLimiter.acquiredCount +
      if s.limiter.rateLimiter.acquiredCount < LinearRateLimiter.due f (v.time - first) then
        1 else 0 := hc.acquired
    simp only [Polling.loop, hcall]
    cases r with
    | true =>
      have hshrinks := hc.shrinks rfl
      have hrest := ih (n + 1) hc.jittering (by omega)
      refine ⟨hrest.jittering, hrest.start, hrest.late,
        fun u n howes => hrest.owes u n (hc.owes u n howes), ?_⟩
      intro hone
      refine hrest.acquired (hone.imp_right fun hle => ?_)
      show _ ≤ d'.rateLimiter.acquiredCount + 1
      split_ifs at hacquired <;> omega
    | false =>
      refine ⟨hc.jittering, hc.start, hc.late rfl, hc.owes, fun hone => ?_⟩
      have hle : d'.rateLimiter.acquiredCount ≤ LinearRateLimiter.due f (v.time - first) :=
        hc.jittering.fed.acquired_le hf
      have hundelayed := hc.undelayed rfl
      show d'.rateLimiter.acquiredCount = _
      split_ifs at hacquired <;> omega

theorem visit_visited {f : Frequency} (hf : 0 < f.hertz) {J : ℕ} {first : ℤ} {v : Visit}
    (hv : ∀ n, v.delay n ≤ J)
    {s : Polling (DelegatingRateLimiterImpl LinearRateLimiter)} (h : Jittering f J first v.time s) :
    Visited f J first v.time s (s.visit v) := by
  refine loop_visited hf hv _ 0 h ?_
  have hle := h.fed.acquired_le hf
  have hrounds : Rounds.rounds s.limiter v.time =
      2 * Rounds.rounds s.limiter.rateLimiter v.time + s.limiter.distributedTimings.length := rfl
  rw [hrounds, h.fed.rounds_eq]
  omega

/-! ## Visit after visit -/

/-- From each time to the next, at most one acquisition more is due. -/
def Gradual (f : Frequency) (ts : List ℤ) : Prop :=
  ts.IsChain fun a b =>
    LinearRateLimiter.due f (b - ts.headD 0) ≤ LinearRateLimiter.due f (a - ts.headD 0) + 1

theorem gradual_of_isPrefix {f : Frequency} {us ts : List ℤ} (h : Gradual f ts) (hpre : us <+: ts) :
    Gradual f us := by
  obtain ⟨rest, rfl⟩ := hpre
  cases us with
  | nil => exact List.isChain_nil
  | cons a us => exact (List.isChain_append.mp h).1

/-- The jitter limiter after a visit. All that was due at an earlier visit leaves the queue in
time, and after gradual visits all that is due was acquired. -/
structure Timed (f : Frequency) (J : ℕ) (vs : List Visit) (v : Visit)
    (s : Polling (DelegatingRateLimiterImpl LinearRateLimiter)) : Prop where
  jittering : Jittering f J (firstTime vs v) v.time s
  start : s.limiter.rateLimiter.startTime = some (firstTime vs v)
  late : ∀ x ∈ s.limiter.distributedTimings, v.time < x
  owes : J = 0 ∨ Gradual f (vs.map Visit.time) → ∀ u ∈ vs,
    Owes J u.time (LinearRateLimiter.due f (u.time - firstTime vs v)) s
  acquired : J = 0 ∨ Gradual f ((vs ++ [v]).map Visit.time) →
    s.limiter.rateLimiter.acquiredCount = LinearRateLimiter.due f (v.time - firstTime vs v)

theorem owes_of_acquired {f : Frequency} {J : ℕ} {first t : ℤ}
    {s : Polling (DelegatingRateLimiterImpl LinearRateLimiter)} (h : Jittering f J first t s)
    (ha : s.limiter.rateLimiter.acquiredCount = LinearRateLimiter.due f (t - first)) :
    Owes J t (LinearRateLimiter.due f (t - first)) s := by
  have hzero : s.limiter.distributedTimings.countP (t + J < ·) = 0 := by
    rw [List.countP_eq_zero]
    intro x hx
    simpa using h.bounded x hx
  unfold Owes
  rw [hzero, ha]
  simp

theorem le_successes_of_owes {f : Frequency} {J : ℕ} {first t u n : ℤ}
    {s : Polling (DelegatingRateLimiterImpl LinearRateLimiter)} (h : Jittering f J first t s)
    (hlate : ∀ x ∈ s.limiter.distributedTimings, t < x) (howes : Owes J u n s) (hle : u + J ≤ t) :
    n ≤ s.successes := by
  have hall : s.limiter.distributedTimings.countP (u + J < ·) = s.limiter.distributedTimings.length := by
    rw [List.countP_eq_length]
    intro x hx
    have := hlate x hx
    simp only [decide_eq_true_eq]
    omega
  have hconserved := h.conserved
  unfold Owes at howes
  rw [hall] at howes
  omega

theorem headD_map_snoc (vs : List Visit) (v : Visit) :
    ((vs ++ [v]).map Visit.time).headD 0 = firstTime vs v := by
  cases vs <;> rfl

theorem visits_timed {f : Frequency} (hf : 0 < f.hertz) {J : ℕ} (vs : List Visit) (v : Visit)
    (h : (vs ++ [v]).Pairwise (·.time ≤ ·.time)) (hJ : ∀ w ∈ vs ++ [v], ∀ n, w.delay n ≤ J) :
    Timed f J vs v (jitterVisits f (vs ++ [v])) := by
  induction vs using List.reverseRecOn generalizing v with
  | nil =>
    have hnew : Jittering f J v.time v.time
        { limiter := ({ rateLimiter := { frequency := f } } : DelegatingRateLimiterImpl
          LinearRateLimiter) } :=
      ⟨LinearRateLimiter.new_fed f v.time, List.Pairwise.nil, rfl, nofun⟩
    have hv := visit_visited hf (hJ v (by simp)) hnew
    refine ⟨hv.jittering, hv.start, hv.late, fun _ => nofun, fun _ => hv.acquired (Or.inr ?_)⟩
    rw [sub_self, LinearRateLimiter.due_zero f hf]
    exact zero_le_one
  | append_singleton vs u ih =>
    obtain ⟨hvs, -, hle⟩ := List.pairwise_append.mp h
    have hu := ih u hvs fun w hw => hJ w (List.mem_append_left _ hw)
    have huv : u.time ≤ v.time := hle u (by simp) v (by simp)
    rw [jitterVisits, visits_snoc, ← jitterVisits]
    generalize jitterVisits f (vs ++ [u]) = s at hu ⊢
    have hnext : Jittering f J (firstTime vs u) v.time s := by
      refine ⟨hu.jittering.fed.later hf hu.start huv, hu.jittering.sorted, hu.jittering.conserved,
        fun x hx => ?_⟩
      have := hu.jittering.bounded x hx
      omega
    have hv := visit_visited hf (hJ v (by simp)) hnext
    have hfirst := firstTime_snoc vs u v
    constructor
    case jittering => rw [hfirst]; exact hv.jittering
    case start => rw [hfirst]; exact hv.start
    case late => exact hv.late
    case owes =>
      intro hgradual w hw
      rw [hfirst]
      apply hv.owes
      rcases List.mem_append.mp hw with hw | hw
      · refine hu.owes (hgradual.imp_right fun hg => gradual_of_isPrefix hg ?_) w hw
        rw [List.map_append]
        exact List.prefix_append _ _
      · rw [List.mem_singleton.mp hw]
        exact owes_of_acquired hu.jittering (hu.acquired hgradual)
    case acquired =>
      intro hgradual
      rw [hfirst]
      apply hv.acquired
      refine hgradual.imp_right fun hg => ?_
      have hpre : Gradual f ((vs ++ [u]).map Visit.time) := by
        refine gradual_of_isPrefix hg ?_
        exact (List.prefix_append (vs ++ [u]) [v]).map Visit.time
      rw [hu.acquired (Or.inr hpre)]
      unfold Gradual at hg
      rw [headD_map_snoc, hfirst, List.map_append] at hg
      exact (List.isChain_append.mp hg).2.2 u.time (by simp) v.time (by simp)

/-! ## Delays within the bound -/

/-- After the polls at a time, the jitter limiter has handed out at least what a linear limiter
alone had granted `J` before. -/
def Timely (f : Frequency) (J : ℕ) (vs : List Visit) : Prop :=
  ∀ (us : List Visit) (u : Visit) (rs : List Visit) (r : Visit), us ++ [u] <+: rs ++ [r] → rs ++ [r] <+: vs →
    u.time + J ≤ r.time → (linearVisits f (us ++ [u])).successes ≤ (jitterVisits f (rs ++ [r])).successes

theorem firstTime_of_isPrefix {us rs : List Visit} {u r : Visit} (h : us ++ [u] <+: rs ++ [r]) :
    firstTime us u = firstTime rs r := by
  obtain ⟨rest, hrest⟩ := h
  rw [← headD_map_snoc us u, ← headD_map_snoc rs r, ← hrest]
  cases us <;> rfl

theorem timely_of_gradual {f : Frequency} (hf : 0 < f.hertz) {J : ℕ} (vs : List Visit) (v : Visit)
    (h : (vs ++ [v]).Pairwise (·.time ≤ ·.time)) (hJ : ∀ w ∈ vs ++ [v], ∀ n, w.delay n ≤ J)
    (hgradual : J = 0 ∨ Gradual f (vs.map Visit.time)) : Timely f J (vs ++ [v]) := by
  intro us u rs r hus hrs hle
  have hsorted := h.sublist hrs.sublist
  have ht := visits_timed hf rs r hsorted fun w hw => hJ w (hrs.subset hw)
  have hlinear := linearVisits_successes hf us u (hsorted.sublist hus.sublist)
  rw [firstTime_of_isPrefix hus] at hlinear
  have hgoal : ((linearVisits f (us ++ [u])).successes : ℤ) ≤ (jitterVisits f (rs ++ [r])).successes := by
    rw [hlinear]
    rcases List.prefix_concat_iff.mp hus with heq | hmem
    · -- The same visit, so there is no jitter.
      obtain ⟨-, rfl⟩ := List.append_singleton_inj.mp heq
      have hzero : J = 0 := by omega
      have howes := owes_of_acquired ht.jittering (ht.acquired (Or.inl hzero))
      exact le_successes_of_owes ht.jittering ht.late howes hle
    · have hrs' : J = 0 ∨ Gradual f (rs.map Visit.time) := by
        refine hgradual.imp_right fun hg => gradual_of_isPrefix hg (List.IsPrefix.map Visit.time ?_)
        rcases List.prefix_concat_iff.mp hrs with heq | hpre
        · rw [(List.append_singleton_inj.mp heq).1]
        · exact (List.prefix_append rs [r]).trans hpre
      have howes := ht.owes hrs' u (hmem.subset (by simp))
      exact le_successes_of_owes ht.jittering ht.late howes hle
  exact_mod_cast hgoal

theorem loop_successes_le {v : Visit} (hv : ∀ n, 1 ≤ v.delay n) (fuel n : ℕ)
    {s : Polling (DelegatingRateLimiterImpl LinearRateLimiter)}
    (h : s.limiter.distributedTimings.Pairwise (· ≤ ·)) :
    (Polling.loop v fuel n s).successes ≤ s.successes + s.limiter.distributedTimings.countP (· ≤ v.time) := by
  induction fuel generalizing n s with
  | zero => exact Nat.le_add_right _ _
  | succ fuel ih =>
    rcases hcall : Limiter.tryAcquireOne s.limiter ⟨v.time, [], v.delay n⟩ with ⟨r, d', e'⟩
    obtain ⟨granted, hinner, hpolled⟩ := DelegatingRateLimiterImpl.tryAcquireOne_polled h hcall
    have hkeep : e'.delay = v.delay n := KeepsDelay.try_delay hinner
    obtain ⟨queue, hperm, -, hpopped⟩ := hpolled.queue
    simp only [Polling.loop, hcall]
    cases r with
    | false => exact Nat.le_add_right _ _
    | true =>
      have hrest := ih (n + 1) (s := ⟨d', s.successes + 1⟩) hpolled.sorted
      obtain ⟨x, hx, rfl⟩ := hpopped.due rfl
      have hcount := hperm.countP_eq (fun x => decide (x ≤ v.time))
      have hx : x ≤ v.time := hx
      have hlate : (if granted then
        [(Env.monotonicTime ⟨v.time, [], v.delay n⟩).1 + (e'.delay : ℤ)] else []).countP
          (· ≤ v.time) = 0 := by
        have hpos := hv n
        rw [hkeep]
        cases granted with
        | false => rfl
        | true =>
          show List.countP _ [v.time + (v.delay n : ℤ)] = 0
          rw [List.countP_singleton, if_neg]
          simp only [decide_eq_true_eq]
          omega
      rw [List.countP_append, hlate, List.countP_cons, if_pos (by simpa using hx)] at hcount
      show (Polling.loop v fuel (n + 1) ⟨d', s.successes + 1⟩).successes ≤ _
      simp only at hrest
      omega

theorem visit_of_empty {v : Visit} (hv : ∀ n, 1 ≤ v.delay n)
    {s : Polling (DelegatingRateLimiterImpl LinearRateLimiter)} (h : s.limiter.distributedTimings = []) :
    (s.visit v).successes = s.successes ∧ (s.visit v).limiter.distributedTimings.Pairwise (· ≤ ·) ∧
      (s.visit v).limiter.distributedTimings.length ≤ 1 := by
  have hsorted : s.limiter.distributedTimings.Pairwise (· ≤ ·) := h ▸ List.Pairwise.nil
  rcases hcall : Limiter.tryAcquireOne s.limiter ⟨v.time, [], v.delay 0⟩ with ⟨r, d', e'⟩
  obtain ⟨granted, hinner, hpolled⟩ := DelegatingRateLimiterImpl.tryAcquireOne_polled hsorted hcall
  have hkeep : e'.delay = v.delay 0 := KeepsDelay.try_delay hinner
  obtain ⟨queue, hperm, -, hpopped⟩ := hpolled.queue
  rw [h, List.append_nil, hkeep] at hperm
  simp only [Polling.visit, Polling.loop, hcall]
  cases r with
  | true =>
    obtain ⟨x, hx, rfl⟩ := hpopped.due rfl
    have hx : x ≤ v.time := hx
    have hpos := hv 0
    have hmem := hperm.mem_iff.mp List.mem_cons_self
    cases granted with
    | false => cases hmem
    | true =>
      have : x = v.time + v.delay 0 := List.mem_singleton.mp hmem
      omega
  | false =>
    refine ⟨rfl, hpolled.sorted, ?_⟩
    show d'.distributedTimings.length ≤ 1
    rw [(hpopped.none rfl).1, hperm.length_eq]
    cases granted <;> simp

theorem exists_jump {α : Type} {R : α → α → Prop} {l : List α} (h : ¬ l.IsChain R) :
    ∃ xs a b ys, l = xs ++ a :: b :: ys ∧ ¬ R a b := by
  induction l with
  | nil => exact absurd List.isChain_nil h
  | cons a l ih =>
    cases l with
    | nil => exact absurd (List.isChain_singleton a) h
    | cons b l =>
      by_cases hab : R a b
      · obtain ⟨xs, c, d, ys, heq, hcd⟩ := ih fun hl => h (List.isChain_cons_cons.mpr ⟨hab, hl⟩)
        exact ⟨a :: xs, c, d, ys, by rw [heq]; rfl, hcd⟩
      · exact ⟨[], a, b, l, rfl, hab⟩

def Visit.undelayed (t : ℤ) : Visit := ⟨t, fun _ => 0⟩

def Visit.delayed (J : ℕ) (t : ℤ) : Visit := ⟨t, fun _ => J⟩

theorem visits_undelayed {f : Frequency} (hf : 0 < f.hertz) (vs : List Visit) (v : Visit)
    (h : (vs ++ [v]).Pairwise (·.time ≤ ·.time)) (hzero : ∀ w ∈ vs ++ [v], ∀ n, w.delay n ≤ 0) :
    (jitterVisits f (vs ++ [v])).limiter.distributedTimings = [] ∧
      ((jitterVisits f (vs ++ [v])).successes : ℤ) = LinearRateLimiter.due f (v.time - firstTime vs v) := by
  have ht := visits_timed hf vs v h hzero
  have hempty : (jitterVisits f (vs ++ [v])).limiter.distributedTimings = [] := by
    rw [List.eq_nil_iff_forall_not_mem]
    intro x hx
    have hlate := ht.late x hx
    have hbounded := ht.jittering.bounded x hx
    omega
  have hconserved := ht.jittering.conserved
  rw [hempty, ht.acquired (Or.inl rfl), List.length_nil, Nat.cast_zero, add_zero] at hconserved
  exact ⟨hempty, hconserved⟩

/-- However many acquisitions become due at `b`, only the first is given its time there. -/
theorem delayed_successes_le {J : ℕ} (hJ : 1 ≤ J) {s : Polling (DelegatingRateLimiterImpl LinearRateLimiter)}
    (h : s.limiter.distributedTimings = []) (b : ℤ) :
    ((s.visit (.delayed J b)).visit (.delayed J (b + J))).successes ≤ s.successes + 1 := by
  have hdelayed (t : ℤ) (n : ℕ) : 1 ≤ (Visit.delayed J t).delay n := hJ
  obtain ⟨hsame, hsorted, hlen⟩ := visit_of_empty (hdelayed b) h
  have hle := loop_successes_le (hdelayed (b + J))
    (Rounds.rounds (s.visit (.delayed J b)).limiter (b + J) + 1) 0 hsorted
  have hcount := List.countP_le_length (p := fun x => decide (x ≤ b + J))
    (l := (s.visit (.delayed J b)).limiter.distributedTimings)
  refine hle.trans ?_
  rw [hsame]
  exact Nat.add_le_add_left (hcount.trans hlen) _

/-- The visits before a jump without delays, then the jump and a visit `J` later. -/
def jumpVisits (J : ℕ) (ts : List ℤ) (b : ℤ) : List Visit :=
  ts.map Visit.undelayed ++ [.delayed J b] ++ [.delayed J (b + J)]

theorem undelayed_times (ts : List ℤ) : (ts.map Visit.undelayed).map Visit.time = ts := by
  simp [Visit.undelayed, Function.comp_def]

theorem undelayed_delay {ts : List ℤ} {w : Visit} (hw : w ∈ ts.map Visit.undelayed) (n : ℕ) :
    w.delay n = 0 := by
  obtain ⟨t, -, rfl⟩ := List.mem_map.mp hw
  rfl

theorem jumpVisits_times (J : ℕ) (ts : List ℤ) (b : ℤ) :
    (jumpVisits J ts b).map Visit.time = ts ++ [b] ++ [b + J] := by
  rw [jumpVisits, List.map_append, List.map_append, undelayed_times]
  rfl

theorem jumpVisits_delay {J : ℕ} {ts : List ℤ} {b : ℤ} {w : Visit} (hw : w ∈ jumpVisits J ts b) (n : ℕ) :
    w.delay n ≤ J := by
  simp only [jumpVisits, List.mem_append, List.mem_singleton] at hw
  obtain (hw | rfl) | rfl := hw
  · exact (undelayed_delay hw n).trans_le (Nat.zero_le J)
  · exact le_rfl
  · exact le_rfl

theorem not_timely_of_jump {f : Frequency} (hf : 0 < f.hertz) {J : ℕ} (hJ : 1 ≤ J) {xs : List ℤ} {a b : ℤ}
    (h : (xs ++ [a] ++ [b]).Pairwise (· ≤ ·))
    (hjump : LinearRateLimiter.due f (a - (xs ++ [a]).headD 0) + 1 <
      LinearRateLimiter.due f (b - (xs ++ [a]).headD 0)) :
    ¬ Timely f J (jumpVisits J (xs ++ [a]) b) := by
  intro htimely
  have hvisits : (xs ++ [a]).map Visit.undelayed = xs.map Visit.undelayed ++ [.undelayed a] := by simp
  have hfirst : firstTime (xs.map Visit.undelayed) (.undelayed a) = (xs ++ [a]).headD 0 := by cases xs <;> rfl
  have hsorted : ((xs ++ [a]).map Visit.undelayed ++ [Visit.delayed J b]).Pairwise (fun v w =>
      v.time ≤ w.time) := by
    rw [← List.pairwise_map (f := Visit.time) (R := (· ≤ ·)), List.map_append, undelayed_times]
    exact h
  have hzero : ∀ w ∈ (xs ++ [a]).map Visit.undelayed, ∀ n, w.delay n ≤ 0 :=
    fun w hw n => (undelayed_delay hw n).le
  have hle := htimely _ (.delayed J b) _ (.delayed J (b + J)) (List.prefix_append _ _)
    (List.prefix_refl _) le_rfl
  rw [hvisits] at hsorted hzero hle
  obtain ⟨hempty, hsuccesses⟩ := visits_undelayed hf _ _ (List.pairwise_append.mp hsorted).1 hzero
  have hlinear := linearVisits_successes hf _ _ hsorted
  have hmost := delayed_successes_le hJ hempty b
  rw [jitterVisits, visits_snoc, visits_snoc, ← jitterVisits] at hle
  rw [firstTime_snoc, hfirst] at hlinear
  rw [hfirst] at hsuccesses
  have hlinear : _ = LinearRateLimiter.due f (b - (xs ++ [a]).headD 0) := hlinear
  have hsuccesses : _ = LinearRateLimiter.due f (a - (xs ++ [a]).headD 0) := hsuccesses
  omega

/-- Jitter up to `J` delays a request by at most `J`, for poll times up to the last but one, if
and only if there is no jitter or at most one acquisition becomes due from each of these times
to the next. -/
theorem jitter_timely_iff (f : Frequency) (hf : 1 ≤ f.hertz) (J : ℕ) (ts : List ℤ)
    (hts : ts.Pairwise (· ≤ ·)) :
    (∀ (us : List ℤ) (t : ℤ), us <+: ts → (∀ u ∈ us, u ≤ t) →
      ∀ vs : List Visit, vs.map Visit.time = us ++ [t] → (∀ v ∈ vs, ∀ n, v.delay n ≤ J) → Timely f J vs) ↔
    J = 0 ∨ Gradual f ts := by
  constructor
  · intro htimely
    by_contra hnot
    obtain ⟨hJ, hjump⟩ := not_or.mp hnot
    obtain ⟨xs, a, b, ys, rfl, hab⟩ := exists_jump hjump
    have hpre : xs ++ [a] ++ [b] <+: xs ++ a :: b :: ys := ⟨ys, by simp⟩
    have hhead : (xs ++ a :: b :: ys).headD 0 = (xs ++ [a]).headD 0 := by cases xs <;> rfl
    have hsorted := hts.sublist hpre.sublist
    rw [hhead, not_le] at hab
    refine not_timely_of_jump hf (Nat.pos_of_ne_zero hJ) hsorted hab ?_
    refine htimely _ (b + J) hpre (fun u hu => ?_) _ (jumpVisits_times J _ b) fun w hw => jumpVisits_delay hw
    have hle : u ≤ b := by
      rcases List.mem_append.mp hu with hu | hu
      · exact (List.pairwise_append.mp hsorted).2.2 u hu b List.mem_cons_self
      · exact (List.mem_singleton.mp hu).le
    omega
  · intro hgradual us t hus ht vs hvs hJ
    obtain ⟨ws, w, rfl⟩ : ∃ ws w, vs = ws ++ [w] := by
      refine ⟨vs.dropLast, vs.getLast ?_, (List.dropLast_append_getLast _).symm⟩
      rintro rfl
      simp at hvs
    rw [List.map_append, List.map_singleton] at hvs
    obtain ⟨rfl, rfl⟩ := List.append_singleton_inj.mp hvs
    refine timely_of_gradual hf ws w ?_ hJ (hgradual.imp_right fun hg => gradual_of_isPrefix hg hus)
    have hws : ws.Pairwise (·.time ≤ ·.time) := List.pairwise_map.mp (hts.sublist hus.sublist)
    refine List.pairwise_append.mpr ⟨hws, List.pairwise_singleton _ _, fun v hv w' hw' => ?_⟩
    rw [List.mem_singleton.mp hw']
    exact ht v.time (List.mem_map_of_mem hv)

/-- Ten acquisitions of 1000 Hz are due at 10 ms. One of them is given its time there, 1 ns later,
and 1 ns later only that one is handed out. -/
theorem jitter_delays_backlog :
    ¬ Timely ⟨1000⟩ 1 (jumpVisits 1 [0] 10000000) ∧
    (linearVisits ⟨1000⟩ [.undelayed 0, .delayed 1 10000000]).successes = 10 ∧
    (jitterVisits ⟨1000⟩ (jumpVisits 1 [0] 10000000)).successes = 1 := by
  refine ⟨fun h => ?_, by with_unfolding_all decide, by with_unfolding_all decide⟩
  have hle := h [.undelayed 0] (.delayed 1 10000000) [.undelayed 0, .delayed 1 10000000] (.delayed 1 10000001)
    ⟨[.delayed 1 10000001], rfl⟩ (List.prefix_refl _) le_rfl
  revert hle
  with_unfolding_all decide

/-- At 1 Hz, the acquisition due at 600 ms and delayed by 5 ns is handed out by 5 ns later. -/
theorem jitter_timely_one_hertz : Timely ⟨1⟩ 5 (jumpVisits 5 [0] 600000000) := by
  refine (jitter_timely_iff ⟨1⟩ (by decide) 5 [0, 600000000] (by decide)).mpr (Or.inr ?_) [0,
    600000000] 600000005
    (List.prefix_refl _) (by decide) _ (jumpVisits_times 5 [0] 600000000) fun w hw => jumpVisits_delay hw
  refine List.isChain_pair.mpr ?_
  with_unfolding_all decide

end Nighthawk.RateLimiter

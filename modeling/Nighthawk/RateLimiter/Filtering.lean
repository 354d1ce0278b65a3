import Nighthawk.RateLimiter.Linear
import Nighthawk.RateLimiter.Ramping

/-!
# Limiters that suppress acquisitions

A filtering limiter asks its filter about each acquisition of the limiter that it wraps. What the
filter turns down is lost: the wrapped limiter has counted it, and nobody hands it back.
-/

namespace Nighthawk.RateLimiter

/-- `elapsed`, which the limiters that wrap another one forward to it. -/
class Elapsing (σ : Type) where
  elapsed : σ → Env → ℤ × σ × Env

instance : Elapsing LinearRateLimiter := ⟨LinearRateLimiter.elapsed⟩

instance : Elapsing LinearRampingRateLimiterImpl := ⟨LinearRampingRateLimiterImpl.elapsed⟩

structure DiscreteNumericDistributionSampler where
  min : ℕ
  max : ℕ
  deriving DecidableEq, Repr

inductive RateLimiterFilter where
  | graduallyOpening (rampTime : ℤ) (provider : DiscreteNumericDistributionSampler)
  /-- The two generators of a `ZipfRateLimiterImpl` draw from one distribution. -/
  | zipf
  deriving DecidableEq, Repr

structure FilteringRateLimiterImpl (σ : Type) where
  rateLimiter : σ
  filter : RateLimiterFilter
  deriving DecidableEq, Repr

section

variable {σ : Type} [Limiter σ] [Elapsing σ]

/-- The call of a filter. What its distribution yields is `e.delay`. -/
def RateLimiterFilter.call (rateLimiter : σ) (e : Env) : RateLimiterFilter → Bool × σ × Env
  | .graduallyOpening rampTime provider =>
    let (elapsedTime, rateLimiter, e) := Elapsing.elapsed rateLimiter e
    if elapsedTime < rampTime then
      let probability : ℚ := 1 - ((rampTime - elapsedTime : ℤ) : ℚ) / (rampTime * 1)
      let randomBetween0And1 : ℚ := 1 * e.delay / provider.max
      (randomBetween0And1 < probability, rateLimiter, e)
    else (true, rateLimiter, e)
  | .zipf => (e.delay ≠ 0, rateLimiter, e)

namespace FilteringRateLimiterImpl

def tryAcquireOne (f : FilteringRateLimiterImpl σ) (e : Env) : Bool × FilteringRateLimiterImpl σ × Env :=
  match Limiter.tryAcquireOne f.rateLimiter e with
  | (true, inner, e) =>
    let (r, inner, e) := f.filter.call inner e
    (r, { f with rateLimiter := inner }, e)
  | (false, inner, e) => (false, { f with rateLimiter := inner }, e)

def releaseOne (f : FilteringRateLimiterImpl σ) (e : Env) : Released (FilteringRateLimiterImpl σ) :=
  let r := Limiter.releaseOne f.rateLimiter e
  ⟨{ f with rateLimiter := r.limiter }, r.env, r.violations⟩

instance : Limiter (FilteringRateLimiterImpl σ) := ⟨tryAcquireOne, releaseOne⟩

end FilteringRateLimiterImpl

/-- The constructor of a `GraduallyOpeningRateLimiterFilter`. -/
def graduallyOpening (rampTime : ℤ) (provider : DiscreteNumericDistributionSampler) (rateLimiter : σ) :
    Except String (FilteringRateLimiterImpl σ) :=
  if rampTime ≤ 0 then .error "ramp_time must be positive and > 0ns"
  else if provider.min ≠ 1 then .error "min value of the distribution provider must equal 1"
  else if provider.max ≠ 1000000 then .error "max value of the distribution provider must equal 1000000"
  else .ok ⟨rateLimiter, .graduallyOpening rampTime provider⟩

/-- The constructor of a `ZipfRateLimiterImpl`. -/
def zipf (rateLimiter : σ) (q v : ℚ) : Except String (FilteringRateLimiterImpl σ) :=
  if v ≤ 0 then .error "v should be > 0"
  else if q ≤ 1 then .error "q should be > 1"
  else .ok ⟨rateLimiter, .zipf⟩

end

/-! ## What the wrapped limiter counts -/

/-- A limiter that counts from its first poll on, and whose `elapsed` is the time since then. -/
class Ticking (σ : Type) [Limiter σ] [Elapsing σ] extends Pacing σ where
  elapsed_spec {s : σ} {start : ℤ} (e : Env) (h : (pacer s).start = some start) :
    Elapsing.elapsed s e = (e.monotonicTime.1 - start, s, e.monotonicTime.2)

instance : Ticking LinearRateLimiter where
  elapsed_spec {l start} e h := by
    have hstart : l.startTime = some start := h
    show l.elapsed e = _
    unfold LinearRateLimiter.elapsed
    simp only [hstart, Option.getD_some]
    rw [← hstart]

instance : Ticking LinearRampingRateLimiterImpl where
  elapsed_spec {l start} e h := by
    have hstart : l.startTime = some start := h
    show l.elapsed e = _
    unfold LinearRampingRateLimiterImpl.elapsed
    simp only [hstart, Option.getD_some]
    rw [← hstart]

section

variable {σ : Type} [Limiter σ] [Elapsing σ] [Ticking σ]

instance : Elapsing (Counted σ) where
  elapsed c e :=
    let (nanos, limiter, e) := Elapsing.elapsed c.limiter e
    (nanos, { c with limiter }, e)

instance : Ticking (Counted σ) where
  schedule c := schedule c.limiter
  pacer c := pacer c.limiter
  try_spec {c e r c' e'} hc h := by
    rcases hinner : Limiter.tryAcquireOne c.limiter e with ⟨r₁, limiter, e₁⟩
    simp only [Limiter.tryAcquireOne, Counted.tryAcquireOne] at h
    rw [show Limiter.tryAcquireOne c.limiter e = _ from hinner] at h
    cases h
    exact Pacing.try_spec hc hinner
  release_spec c e := Pacing.release_spec c.limiter e
  elapsed_spec {c start} e h := by
    show (let (nanos, limiter, e) := Elapsing.elapsed c.limiter e; (nanos, { c with limiter }, e)) = _
    rw [Ticking.elapsed_spec e h]

theorem Caller.Paced.later {τ : Type} [Limiter τ] [Pacing τ] {S : ℤ → ℤ} (hS : Pacer.Schedule S)
    {c : Caller τ}
    (h : c.Paced S) (hanswer : c.answer ≠ some false) {t : ℤ} (ht : c.time ≤ t) :
    ({ c with time := t } : Caller τ).Paced S :=
  ⟨h.schedule, h.tracks.later hS ht, h.start, h.held, h.nonneg, fun hfalse => absurd hfalse hanswer⟩

theorem Caller.firstPoll_of_granted {τ : Type} [Limiter τ] [Pacing τ] {S : ℤ → ℤ} (hS : Pacer.Schedule S)
    {c : Caller τ}
    (h : c.Paced S) {gaps : List ℕ} {delay : ℕ} {limiter : τ} {e : Env}
    (hcall : Limiter.tryAcquireOne c.limiter ⟨c.time, gaps, delay⟩ = (true, limiter, e)) :
    ∃ first, c.firstPoll = some first := by
  obtain ⟨-, hpoll, -⟩ := Pacing.try_spec h.tracks.available hcall
  rw [h.schedule] at hpoll
  have hgranted := (Pacer.poll_granted_iff hS h.tracks (monotonicTime_spec ⟨c.time, gaps, delay⟩).1).mp
    (by rw [← hpoll])
  rw [h.start, h.held] at hgranted
  cases hfirst : c.firstPoll with
  | some first => exact ⟨first, rfl⟩
  | none =>
    have hnonneg := h.nonneg
    simp only [hfirst, Option.getD_none, sub_self, hS.zero, Caller.held] at hgranted
    omega

/-- From when on a filter suppresses nothing. -/
def RateLimiterFilter.OpenAt : RateLimiterFilter → ℤ → Prop
  | .graduallyOpening rampTime _, elapsedTime => rampTime ≤ elapsedTime
  | .zipf, _ => False

theorem RateLimiterFilter.OpenAt.later {f : RateLimiterFilter} {t u : ℤ} (h : f.OpenAt t) (htu : t ≤ u) :
    f.OpenAt u := by
  cases f with
  | graduallyOpening rampTime provider => exact le_trans (a := rampTime) h htu
  | zipf => exact h

theorem call_spec (f : RateLimiterFilter) {inner : σ} {start : ℤ}
    (hstart : (pacer inner).start = some start) (e : Env) :
    ∃ r e', f.call inner e = (r, inner, e') ∧ e.time ≤ e'.time ∧ (f.OpenAt (e'.time - start) → r = true) := by
  cases f with
  | graduallyOpening rampTime provider =>
    obtain ⟨hle, htime⟩ := monotonicTime_spec e
    unfold RateLimiterFilter.call
    rw [Ticking.elapsed_spec e hstart]
    simp only
    split_ifs with hramp
    · refine ⟨_, _, rfl, by rwa [htime], ?_⟩
      intro hopen
      have hopen : rampTime ≤ e.monotonicTime.2.time - start := hopen
      rw [htime] at hopen
      exact absurd hramp (not_lt.mpr hopen)
    · exact ⟨_, _, rfl, by rwa [htime], fun _ => rfl⟩
  | zipf => exact ⟨_, _, rfl, le_rfl, False.elim⟩

/-- The wrapped limiter with what it has counted, as its caller sees it. -/
def wrapped (s : Caller (FilteringRateLimiterImpl (Counted σ))) (answer : Option Bool) (fresh : Bool) :
    Caller (Counted σ) :=
  { limiter := s.limiter.rateLimiter, time := s.time, firstPoll := s.firstPoll
    successes := s.limiter.rateLimiter.successes, releases := s.limiter.rateLimiter.releases, answer, fresh }

/-- What the filter has suppressed. -/
def suppressed (s : Caller (FilteringRateLimiterImpl (Counted σ))) : ℤ :=
  s.limiter.rateLimiter.successes - s.successes

structure Filtered (S : ℤ → ℤ) (s : Caller (FilteringRateLimiterImpl (Counted σ))) : Prop where
  paced : ∃ answer fresh, (wrapped s answer fresh).Paced S ∧
    (s.answer = some false → s.limiter.filter.OpenAt s.elapsed → answer = some false)
  releases : s.limiter.rateLimiter.releases = s.releases
  passed : s.successes ≤ s.limiter.rateLimiter.successes
  nonneg : s.releases ≤ s.successes

omit [Ticking σ] in
theorem poll_of_refused {s : Caller (FilteringRateLimiterImpl (Counted σ))} {gaps : List ℕ} {delay : ℕ}
    {inner : Counted σ}
    {e : Env} (h : Limiter.tryAcquireOne s.limiter.rateLimiter ⟨s.time, gaps, delay⟩ = (false, inner, e)) :
    s.poll gaps delay = s.polled false { s.limiter with rateLimiter := inner } e.time := by
  apply Caller.poll_eq (e := e)
  show s.limiter.tryAcquireOne _ = _
  rw [FilteringRateLimiterImpl.tryAcquireOne, h]

omit [Ticking σ] in
theorem poll_of_granted {s : Caller (FilteringRateLimiterImpl (Counted σ))} {gaps : List ℕ} {delay : ℕ}
    {inner : Counted σ}
    {e e' : Env} {r : Bool}
    (h : Limiter.tryAcquireOne s.limiter.rateLimiter ⟨s.time, gaps, delay⟩ = (true, inner, e))
    (hfilter : s.limiter.filter.call inner e = (r, inner, e')) :
    s.poll gaps delay = s.polled r { s.limiter with rateLimiter := inner } e'.time := by
  apply Caller.poll_eq (e := e')
  show s.limiter.tryAcquireOne _ = _
  rw [FilteringRateLimiterImpl.tryAcquireOne, h]
  simp only [hfilter]

/-- What a call leaves, and that it suppresses nothing once the filter is open. -/
structure Filters (S : ℤ → ℤ) (s s' : Caller (FilteringRateLimiterImpl (Counted σ))) : Prop where
  filtered : Filtered S s'
  later : s.elapsed ≤ s'.elapsed
  filter : s'.limiter.filter = s.limiter.filter
  suppressed_le : suppressed s ≤ suppressed s'
  suppressed_eq : s.limiter.filter.OpenAt s.elapsed → suppressed s' = suppressed s

variable {S : ℤ → ℤ} {s s' : Caller (FilteringRateLimiterImpl (Counted σ))}

theorem Filtered.refused (hS : Pacer.Schedule S) (h : Filtered S s) {gaps : List ℕ} {delay : ℕ}
    {inner : Counted σ} {e : Env}
    (hcall : Limiter.tryAcquireOne s.limiter.rateLimiter ⟨s.time, gaps, delay⟩ = (false, inner, e)) :
    Filters S s (s.poll gaps delay) := by
  obtain ⟨answer, fresh, hpaced, -⟩ := h.paced
  have hinner : (wrapped s answer fresh).poll gaps delay =
      (wrapped s answer fresh).polled false inner e.time :=
    Caller.poll_eq hcall
  have hpaced' := Caller.poll_paced hS hpaced gaps delay
  have hlater := Caller.step_elapsed hpaced
    (show Caller.step Caller.unreleased _ (.tryAcquireOne gaps delay) = some _ from rfl)
  have hsuccesses : inner.successes = s.limiter.rateLimiter.successes := Counted.successes_spec hcall
  have hreleases := Counted.releases_spec hcall
  have hwrapped : wrapped (s.polled false { s.limiter with rateLimiter := inner } e.time) (some false) fresh =
      (wrapped s answer fresh).polled false inner e.time := by
    simp [wrapped, Caller.polled, hsuccesses, hreleases]
  rw [hinner] at hpaced' hlater
  rw [poll_of_refused hcall]
  refine ⟨⟨⟨some false, fresh, ?_, fun _ _ => rfl⟩, ?_, ?_, ?_⟩, hlater, rfl, ?_, fun _ => ?_⟩
  · rwa [hwrapped]
  · exact hreleases.trans h.releases
  · exact hsuccesses ▸ h.passed
  · exact h.nonneg
  · simp [suppressed, Caller.polled, hsuccesses]
  · simp [suppressed, Caller.polled, hsuccesses]

theorem Filtered.granted (hS : Pacer.Schedule S) (h : Filtered S s) {gaps : List ℕ} {delay : ℕ}
    {inner : Counted σ} {e : Env}
    (hcall : Limiter.tryAcquireOne s.limiter.rateLimiter ⟨s.time, gaps, delay⟩ = (true, inner, e)) :
    Filters S s (s.poll gaps delay) := by
  obtain ⟨answer, fresh, hpaced, -⟩ := h.paced
  have hinner : (wrapped s answer fresh).poll gaps delay =
      (wrapped s answer fresh).polled true inner e.time :=
    Caller.poll_eq hcall
  have hpaced' := Caller.poll_paced hS hpaced gaps delay
  have hlater := Caller.step_elapsed hpaced
    (show Caller.step Caller.unreleased _ (.tryAcquireOne gaps delay) = some _ from rfl)
  have hsuccesses : inner.successes = s.limiter.rateLimiter.successes + 1 := Counted.successes_spec hcall
  have hreleases := Counted.releases_spec hcall
  obtain ⟨first, hfirst⟩ := Caller.firstPoll_of_granted hS hpaced hcall
  have hfirst : s.firstPoll = some first := hfirst
  rw [hinner] at hpaced' hlater
  have hstart : (pacer inner).start = some first := by
    have hstart := hpaced'.start
    simp only [Caller.polled, wrapped, hfirst, Option.getD_some] at hstart
    exact hstart
  obtain ⟨r, e', hfilter, hle, hopen⟩ := call_spec s.limiter.filter hstart e
  have hwrapped : wrapped (s.polled r { s.limiter with rateLimiter := inner } e'.time) (some true) true =
      { (wrapped s answer fresh).polled true inner e.time with time := e'.time } := by
    simp [wrapped, Caller.polled, hsuccesses, hreleases, hfirst]
  have helapsed : (s.polled r { s.limiter with rateLimiter := inner } e'.time).elapsed = e'.time - first := by
    simp [Caller.elapsed, Caller.polled, hfirst]
  have hlater' : s.elapsed ≤ e'.time - first := by
    have helapsed' : ((wrapped s answer fresh).polled true inner e.time).elapsed = e.time - first := by
      simp [Caller.elapsed, Caller.polled, wrapped, hfirst]
    rw [helapsed'] at hlater
    exact hlater.trans (by omega)
  rw [poll_of_granted hcall hfilter]
  have hpassed := h.passed
  refine ⟨⟨⟨some true, true, ?_, ?_⟩, hreleases.trans h.releases, ?_, ?_⟩, ?_, rfl, ?_, ?_⟩
  · rw [hwrapped]
    exact hpaced'.later hS (by simp [Caller.polled]) hle
  · intro hanswer hat
    rw [helapsed] at hat
    cases (hopen hat).symm.trans (Option.some.inj hanswer)
  · show s.successes + _ ≤ inner.successes
    split_ifs <;> omega
  · exact h.nonneg.trans (Nat.le_add_right _ _)
  · rwa [helapsed]
  · simp only [suppressed, Caller.polled, hsuccesses]
    split_ifs <;> push_cast <;> omega
  · intro hat
    simp only [suppressed, Caller.polled, hsuccesses, hopen (hat.later hlater'), if_true]
    push_cast
    omega

theorem Filtered.release (h : Filtered S s) (hu : s.unreleased = true) (gaps : List ℕ) :
    Filters S s (s.release gaps) := by
  obtain ⟨answer, fresh, hpaced, -⟩ := h.paced
  have hlt : s.releases < s.successes := by simpa [Caller.unreleased] using hu
  have hpassed := h.passed
  have hreleases := h.releases
  have hunreleased : (wrapped s answer fresh).unreleased = true := by
    exact decide_eq_true (show s.limiter.rateLimiter.releases < s.limiter.rateLimiter.successes by omega)
  have htime : (s.release gaps).time = s.time :=
    (Pacing.release_spec s.limiter.rateLimiter ⟨s.time, gaps, 0⟩).2.2
  refine ⟨⟨⟨none, false, Caller.release_paced hpaced hunreleased gaps, ?_⟩, ?_, hpassed, hlt⟩, ?_, rfl,
    le_rfl, fun _ => rfl⟩
  · intro hfalse
    cases hfalse
  · exact congrArg (· + 1) hreleases
  · unfold Caller.elapsed
    rw [htime]
    exact le_rfl

theorem step_filters {c : Call} (hS : Pacer.Schedule S) (h : Filtered S s)
    (hstep : Caller.step Caller.unreleased s c = some s') : Filters S s s' := by
  cases c with
  | tryAcquireOne gaps delay =>
    cases hstep
    rcases hcall : Limiter.tryAcquireOne s.limiter.rateLimiter ⟨s.time, gaps, delay⟩ with ⟨r, inner, e⟩
    cases r with
    | false => exact h.refused hS hcall
    | true => exact h.granted hS hcall
  | releaseOne gaps =>
    obtain ⟨hu, heq⟩ := Option.ite_none_right_eq_some.mp hstep
    cases heq
    exact h.release hu gaps

theorem run_filters {cs : List Call} (hS : Pacer.Schedule S) (h : Filtered S s)
    (hr : Runs.exec (Caller.step Caller.unreleased) s cs = some s') : Filters S s s' := by
  induction cs using List.reverseRecOn generalizing s' with
  | nil =>
    cases hr
    exact ⟨h, le_rfl, rfl, le_rfl, fun _ => rfl⟩
  | append_singleton cs c ih =>
    obtain ⟨u, hu, hs⟩ := (Runs.exec_snoc_eq_some _).mp hr
    have hfirst := ih hu
    have hlast := step_filters hS hfirst.filtered hs
    refine ⟨hlast.filtered, hfirst.later.trans hlast.later, hlast.filter.trans hfirst.filter,
      hfirst.suppressed_le.trans hlast.suppressed_le, ?_⟩
    intro hopen
    rw [hlast.suppressed_eq (by rw [hfirst.filter]; exact hopen.later hfirst.later)]
    exact hfirst.suppressed_eq hopen

theorem init_filtered {limiter : σ} (hsched : schedule limiter = S) (hp : pacer limiter = {})
    (filter : RateLimiterFilter)
    (t : ℤ) : Filtered S { limiter := ⟨{ limiter }, filter⟩, time := t } := by
  have hcounted : schedule ({ limiter } : Counted σ) = S := hsched
  exact ⟨⟨none, false, Caller.init_paced hcounted hp t, nofun⟩, rfl, le_rfl, le_rfl⟩

/-- What is due is handed out or suppressed. -/
theorem Filtered.held_spec (hS : Pacer.Schedule S) (h : Filtered S s) : s.held + suppressed s ≤ S s.elapsed ∧
    (s.answer = some false → s.limiter.filter.OpenAt s.elapsed → s.held + suppressed s = S s.elapsed) := by
  obtain ⟨answer, fresh, hpaced, hanswer⟩ := h.paced
  obtain ⟨hle, hexact⟩ := Caller.held_spec hS hpaced
  have hheld : (wrapped s answer fresh).held = s.held + suppressed s := by
    simp only [Caller.held, wrapped, suppressed, h.releases]
    omega
  rw [hheld] at hle hexact
  exact ⟨hle, fun hrefused hopen => hexact (hanswer hrefused hopen)⟩

/-- What a filter suppresses is never made up for. After the ramp of a gradually opening filter
nothing is suppressed any more, and between two refused polls its caller gets what is due between
them. -/
theorem suppressed_is_lost (hS : Pacer.Schedule S) {limiter : σ} (hsched : schedule limiter = S)
    (hp : pacer limiter = {})
    (filter : RateLimiterFilter) (t : ℤ) {cs ds : List Call}
    {s s' : Caller (FilteringRateLimiterImpl (Counted σ))}
    (hs : Runs.exec (Caller.step Caller.unreleased)
      { limiter := ⟨{ limiter }, filter⟩, time := t } cs = some s)
    (hs' : Runs.exec (Caller.step Caller.unreleased) s ds = some s') :
    0 ≤ suppressed s ∧ suppressed s ≤ suppressed s' ∧ s'.held + suppressed s' ≤ S s'.elapsed ∧
      ∀ rampTime provider, graduallyOpening rampTime provider ({ limiter } : Counted σ) =
        .ok ⟨{ limiter }, filter⟩ →
        rampTime ≤ s.elapsed → suppressed s' = suppressed s ∧
          (s'.answer = some false → s'.held + suppressed s = S s'.elapsed) ∧
          (s.answer = some false → s'.answer = some false →
            s'.held - s.held = S s'.elapsed - S s.elapsed) := by
  have hfirst := run_filters hS (init_filtered hsched hp filter t) hs
  have hlast := run_filters hS hfirst.filtered hs'
  have hpassed := hfirst.filtered.passed
  obtain ⟨hle, hexact⟩ := hlast.filtered.held_spec hS
  refine ⟨?_, hlast.suppressed_le, hle, ?_⟩
  · unfold suppressed
    omega
  · intro rampTime provider hnew hramp
    have hfilter : filter = .graduallyOpening rampTime provider := by
      unfold graduallyOpening at hnew
      split_ifs at hnew
      cases hnew
      rfl
    have hopen : s.limiter.filter.OpenAt s.elapsed := by
      rw [hfirst.filter, hfilter]
      exact hramp
    have hopen' : s'.limiter.filter.OpenAt s'.elapsed := by
      rw [hlast.filter]
      exact hopen.later hlast.later
    have heq := hlast.suppressed_eq hopen
    have hrefused : s'.answer = some false → s'.held + suppressed s = S s'.elapsed := by
      intro hanswer
      rw [← heq]
      exact hexact hanswer hopen'
    refine ⟨heq, hrefused, ?_⟩
    intro hanswer hanswer'
    have hbefore := (hfirst.filtered.held_spec hS).2 hanswer hopen
    have hafter := hrefused hanswer'
    omega

end

/-- In a ramp of one second, one of two acquisitions at 4 Hz is suppressed. Two more are due when
the ramp is over. -/
def rampCalls : List Call :=
  [.tryAcquireOne [0] 1, .tryAcquireOne [500000000] 900000, .tryAcquireOne [] 1, .tryAcquireOne [600000000] 1,
    .tryAcquireOne [] 1, .tryAcquireOne [] 1]

def openCalls : List Call := .tryAcquireOne [1000000000] 999999 :: List.replicate 4 (.tryAcquireOne [] 999999)

theorem suppressed_is_lost_four_hertz :
    ∃ s s' : Caller (FilteringRateLimiterImpl (Counted LinearRateLimiter)),
      Runs.exec (Caller.step Caller.unreleased)
        { limiter := ⟨{ limiter := { frequency := ⟨4⟩ } },
          .graduallyOpening 1000000000 ⟨1, 1000000⟩⟩, time := 0 }
        rampCalls = some s ∧
      Runs.exec (Caller.step Caller.unreleased) s openCalls = some s' ∧ suppressed s = 1 ∧
        s'.held = s.held + 4 ∧
      s'.held - s.held = LinearRateLimiter.due ⟨4⟩ s'.elapsed - LinearRateLimiter.due ⟨4⟩ s.elapsed := by
  have hrun : ∃ s s' : Caller (FilteringRateLimiterImpl (Counted LinearRateLimiter)),
      Runs.exec (Caller.step Caller.unreleased)
        { limiter := ⟨{ limiter := { frequency := ⟨4⟩ } },
          .graduallyOpening 1000000000 ⟨1, 1000000⟩⟩, time := 0 }
        rampCalls = some s ∧
      Runs.exec (Caller.step Caller.unreleased) s openCalls = some s' ∧ suppressed s = 1 ∧
        s'.held = s.held + 4 ∧
      s.answer = some false ∧ s'.answer = some false ∧ s.elapsed = 1100000000 :=
    ⟨_, _, by with_unfolding_all rfl, by with_unfolding_all rfl, by with_unfolding_all rfl,
      by with_unfolding_all rfl,
      by with_unfolding_all rfl, by with_unfolding_all rfl, by with_unfolding_all rfl⟩
  obtain ⟨s, s', hs, hs', hsuppressed, hheld, hanswer, hanswer', helapsed⟩ := hrun
  refine ⟨s, s', hs, hs', hsuppressed, hheld, ?_⟩
  refine ((suppressed_is_lost
    (LinearRateLimiter.due_schedule (f := ⟨4⟩) (by decide)) rfl rfl _ 0 hs hs').2.2.2
    1000000000 ⟨1, 1000000⟩ rfl ?_).2.2 hanswer hanswer'
  rw [helapsed]
  decide

end Nighthawk.RateLimiter

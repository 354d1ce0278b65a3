import Nighthawk.Lib.Pacer
import Nighthawk.Lib.Runs
import Nighthawk.RateLimiter.Meter

/-!
# A limiter and its caller

A caller polls a limiter and hands some of what it got back. The limiters that follow a
schedule are pacers: what the caller holds is what was due at the last refused poll.
-/

namespace Nighthawk.RateLimiter

/-! ## Callers -/

/-- `firstPoll` is the time of the first poll. `answer` is what the last call answered, when that
was a poll. `fresh` tells that there was a success since the last release. -/
structure Caller (σ : Type) where
  limiter : σ
  time : ℤ
  firstPoll : Option ℤ := none
  successes : ℕ := 0
  releases : ℕ := 0
  answer : Option Bool := none
  fresh : Bool := false
  deriving DecidableEq, Repr

namespace Caller

variable {σ : Type} [Limiter σ]

/-- After a poll that answered `r` at time `t`. -/
def polled (s : Caller σ) (r : Bool) (limiter : σ) (t : ℤ) : Caller σ :=
  { limiter, time := t, firstPoll := some (s.firstPoll.getD t)
    successes := s.successes + if r then 1 else 0
    releases := s.releases, answer := some r, fresh := r || s.fresh }

def poll (s : Caller σ) (gaps : List ℕ) (delay : ℕ) : Caller σ :=
  let (r, limiter, e) := Limiter.tryAcquireOne s.limiter ⟨s.time, gaps, delay⟩
  s.polled r limiter e.time

def release (s : Caller σ) (gaps : List ℕ) : Caller σ :=
  let r := Limiter.releaseOne s.limiter ⟨s.time, gaps, 0⟩
  { s with limiter := r.limiter, time := r.env.time, releases := s.releases + 1, answer := none, fresh := false }

/-- The caller polls at any time, and calls `releaseOne` only when it may. -/
def step (mayRelease : Caller σ → Bool) (s : Caller σ) : Call → Option (Caller σ)
  | .tryAcquireOne gaps delay => some (s.poll gaps delay)
  | .releaseOne gaps => if mayRelease s then some (s.release gaps) else none

def unreleased (s : Caller σ) : Bool := s.releases < s.successes

def justAcquired (s : Caller σ) : Bool := s.answer = some true

/-- What the caller holds: successes minus releases. -/
def held (s : Caller σ) : ℤ := s.successes - s.releases

/-- The time since the first poll, in nanoseconds. -/
def elapsed (s : Caller σ) : ℤ := s.time - s.firstPoll.getD s.time

omit [Limiter σ] in
@[simp] theorem held_polled (s : Caller σ) (r : Bool) (limiter : σ) (t : ℤ) :
    (s.polled r limiter t).held = s.held + if r then 1 else 0 := by
  simp only [held, polled]
  push_cast
  ring

@[simp] theorem held_release (s : Caller σ) (gaps : List ℕ) : (s.release gaps).held = s.held - 1 := by
  simp only [held, release]
  push_cast
  ring

theorem poll_eq {s : Caller σ} {gaps : List ℕ} {delay : ℕ} {r : Bool} {limiter : σ} {e : Env}
    (h : Limiter.tryAcquireOne s.limiter ⟨s.time, gaps, delay⟩ = (r, limiter, e)) :
    s.poll gaps delay = s.polled r limiter e.time := by
  simp only [poll, h]

def map {τ : Type} (f : σ → τ) (s : Caller σ) : Caller τ := { s with limiter := f s.limiter }

end Caller

/-! ## Counting the calls of a wrapped limiter -/

/-- A limiter with the number of its polls, of those that succeeded, and of its releases. -/
structure Counted (σ : Type) where
  limiter : σ
  polls : ℕ := 0
  successes : ℕ := 0
  releases : ℕ := 0
  deriving DecidableEq, Repr

namespace Counted

variable {σ : Type} [Limiter σ]

def tryAcquireOne (c : Counted σ) (e : Env) : Bool × Counted σ × Env :=
  let (r, limiter, e) := Limiter.tryAcquireOne c.limiter e
  (r, { c with limiter, polls := c.polls + 1, successes := c.successes + if r then 1 else 0 }, e)

def releaseOne (c : Counted σ) (e : Env) : Released (Counted σ) :=
  let r := Limiter.releaseOne c.limiter e
  ⟨{ c with limiter := r.limiter, releases := c.releases + 1 }, r.env, r.violations⟩

instance : Limiter (Counted σ) := ⟨tryAcquireOne, releaseOne⟩

theorem successes_spec {c c' : Counted σ} {e e' : Env} {r : Bool}
    (h : Limiter.tryAcquireOne c e = (r, c', e')) :
    c'.successes = c.successes + if r then 1 else 0 := by
  simp only [Limiter.tryAcquireOne, tryAcquireOne, Prod.mk.injEq] at h
  obtain ⟨rfl, rfl, -⟩ := h
  rfl

theorem releases_spec {c c' : Counted σ} {e e' : Env} {r : Bool}
    (h : Limiter.tryAcquireOne c e = (r, c', e')) :
    c'.releases = c.releases := by
  simp only [Limiter.tryAcquireOne, tryAcquireOne, Prod.mk.injEq] at h
  obtain ⟨-, rfl, -⟩ := h
  rfl

end Counted

/-- A limiter that gives these answers, and then refuses. -/
structure Scripted where
  answers : List Bool
  deriving DecidableEq, Repr

namespace Scripted

def tryAcquireOne (s : Scripted) (e : Env) : Bool × Scripted × Env :=
  match s.answers with
  | [] => (false, s, e)
  | r :: answers => (r, ⟨answers⟩, e)

instance : Limiter Scripted := ⟨tryAcquireOne, fun s e => ⟨s, e, []⟩⟩

end Scripted

/-! ## Limiters that follow a schedule -/

theorem poll_of_refill {σ : Type} (schedule : σ → ℤ → ℤ) (pacer : σ → Pacer) (acquire : σ → σ)
    (refill : σ → ℤ → σ)
    (hacquire : ∀ s, schedule (acquire s) = schedule s ∧ pacer (acquire s) = (pacer s).take)
    (hrefill : ∀ s now, schedule (refill s now) = schedule s ∧
      pacer (refill s now) = (pacer s).refill (schedule s) now)
    {s : σ} {e : Env} {r : Bool} {s' : σ} {e' : Env}
    (h : (if 0 < (pacer s).available then (true, acquire s, e)
      else if 0 < (pacer (refill s e.monotonicTime.1)).available then
        (true, acquire (refill s e.monotonicTime.1), e.monotonicTime.2)
      else (false, refill s e.monotonicTime.1, e.monotonicTime.2)) = (r, s', e')) :
    schedule s' = schedule s ∧ (r, pacer s') = (pacer s).poll (schedule s) e.monotonicTime.1 ∧
      e'.time = if 0 < (pacer s).available then e.time else e.monotonicTime.1 := by
  have htime := (monotonicTime_spec e).2
  obtain ⟨hsched, hpacer⟩ := hrefill s e.monotonicTime.1
  rw [hpacer] at h
  unfold Pacer.poll
  simp only
  split_ifs at h ⊢
  · cases h
    exact ⟨(hacquire s).1, by rw [(hacquire s).2], rfl⟩
  · cases h
    exact ⟨(hacquire _).1.trans hsched, by rw [(hacquire _).2, hpacer], htime⟩
  · cases h
    exact ⟨hsched, by rw [hpacer], htime⟩

/-- A limiter that acts as a pacer for as long as its available count is not negative. -/
class Pacing (σ : Type) [Limiter σ] where
  schedule : σ → ℤ → ℤ
  pacer : σ → Pacer
  try_spec {s : σ} {e : Env} {r : Bool} {s' : σ} {e' : Env} (hs : 0 ≤ (pacer s).available)
    (h : Limiter.tryAcquireOne s e = (r, s', e')) :
    schedule s' = schedule s ∧ (r, pacer s') = (pacer s).poll (schedule s) e.monotonicTime.1 ∧
      e'.time = if 0 < (pacer s).available then e.time else e.monotonicTime.1
  release_spec (s : σ) (e : Env) :
    schedule (Limiter.releaseOne s e).limiter = schedule s ∧
      pacer (Limiter.releaseOne s e).limiter = (pacer s).giveBack ∧ (Limiter.releaseOne s e).env.time = e.time

export Pacing (schedule pacer)

namespace Caller

variable {σ : Type} [Limiter σ] [Pacing σ]

/-- The limiter follows the schedule `S`, and the caller holds what the pacer has handed out. -/
structure Paced (S : ℤ → ℤ) (s : Caller σ) : Prop where
  schedule : schedule s.limiter = S
  tracks : (pacer s.limiter).Tracks S s.time
  start : (pacer s.limiter).start = s.firstPoll
  held : (pacer s.limiter).taken = s.held
  nonneg : s.releases ≤ s.successes
  exact : s.answer = some false → (pacer s.limiter).taken = (pacer s.limiter).due S s.time

theorem init_paced {S : ℤ → ℤ} {limiter : σ} (hS : schedule limiter = S) (hp : pacer limiter = {}) (t : ℤ) :
    Paced S { limiter, time := t } where
  schedule := hS
  tracks := by
    rw [hp]
    exact Pacer.tracks_new S t
  start := by rw [hp]
  held := by
    rw [hp]
    rfl
  nonneg := le_rfl
  exact := nofun

/-- The clock is read exactly when nothing is available, and so on the first poll. -/
theorem firstPoll_spec {S : ℤ → ℤ} {s : Caller σ} (h : s.Paced S) (now : ℤ) {e' : Env}
    (he : e'.time = if 0 < (pacer s.limiter).available then s.time else now) :
    ((pacer s.limiter).poll S now).2.start = some (s.firstPoll.getD e'.time) := by
  have htotal := h.tracks.total
  have hheld := h.held
  have hnonneg := h.nonneg
  simp only [Caller.held] at hheld
  rw [Pacer.poll_start h.tracks (by omega), h.start]
  cases hfirst : s.firstPoll with
  | some first => rfl
  | none =>
    -- Nothing is available before the first poll.
    simp only [Pacer.due, h.start, hfirst] at htotal
    rw [he, if_neg (by omega)]

theorem poll_paced {S : ℤ → ℤ} (hS : Pacer.Schedule S) {s : Caller σ} (h : s.Paced S)
    (gaps : List ℕ) (delay : ℕ) :
    (s.poll gaps delay).Paced S := by
  rcases hcall : Limiter.tryAcquireOne s.limiter ⟨s.time, gaps, delay⟩ with ⟨r, limiter, e'⟩
  obtain ⟨hsched, hpoll, htime⟩ := Pacing.try_spec h.tracks.available hcall
  have hle := (monotonicTime_spec ⟨s.time, gaps, delay⟩).1
  generalize (Env.monotonicTime ⟨s.time, gaps, delay⟩).1 = now at hpoll htime hle
  rw [h.schedule] at hpoll hsched
  have hr : ((pacer s.limiter).poll S now).1 = r := by rw [← hpoll]
  have hpacer : ((pacer s.limiter).poll S now).2 = pacer limiter := by rw [← hpoll]
  rw [poll_eq hcall]
  constructor
  case schedule => exact hsched
  case tracks =>
    have htracks := Pacer.poll_tracks hS h.tracks hle
    simp only [polled] at htime ⊢
    rw [← hpacer, htime]
    exact htracks
  case start =>
    have hfirst := firstPoll_spec h now htime
    rw [hpacer] at hfirst
    exact hfirst
  case held =>
    have htaken := Pacer.poll_taken S (pacer s.limiter) now
    rw [hpacer, hr, h.held] at htaken
    rw [held_polled]
    exact htaken
  case nonneg => exact h.nonneg.trans (Nat.le_add_right _ _)
  case exact =>
    intro hanswer
    have hfalse : ((pacer s.limiter).poll S now).1 = false := hr.trans (Option.some.inj hanswer)
    obtain ⟨hzero, hexact⟩ := Pacer.taken_of_refused hS h.tracks hle hfalse
    rw [hpacer] at hexact
    simp only [hzero, lt_irrefl, if_false] at htime
    rw [htime]
    exact hexact

theorem release_paced {S : ℤ → ℤ} {s : Caller σ} (h : s.Paced S) (hu : s.unreleased = true) (gaps : List ℕ) :
    (s.release gaps).Paced S := by
  obtain ⟨hsched, hpacer, htime⟩ := Pacing.release_spec s.limiter ⟨s.time, gaps, 0⟩
  have hlt : s.releases < s.successes := by simpa [unreleased] using hu
  simp only [release]
  constructor
  case schedule => exact hsched.trans h.schedule
  case tracks =>
    rw [hpacer, htime]
    exact Pacer.giveBack_tracks h.tracks
  case start =>
    rw [hpacer]
    exact h.start
  case held =>
    have hheld := h.held
    rw [hpacer]
    simp only [Caller.held] at hheld ⊢
    show (pacer s.limiter).taken - 1 = _
    push_cast
    omega
  case nonneg => exact hlt
  case exact => exact nofun

theorem elapsed_nonneg {S : ℤ → ℤ} {s : Caller σ} (h : s.Paced S) : 0 ≤ s.elapsed := by
  have hstarted := h.tracks.started
  rw [h.start] at hstarted
  unfold elapsed
  cases hfirst : s.firstPoll with
  | none => simp
  | some first =>
    have := hstarted first hfirst
    simp only [Option.getD_some]
    omega

theorem step_elapsed {S : ℤ → ℤ} {mayRelease : Caller σ → Bool} {s s' : Caller σ} {c : Call} (h : s.Paced S)
    (hs : step mayRelease s c = some s') : s.elapsed ≤ s'.elapsed := by
  cases c with
  | tryAcquireOne gaps delay =>
    cases hs
    rcases hcall : Limiter.tryAcquireOne s.limiter ⟨s.time, gaps, delay⟩ with ⟨r, limiter, e'⟩
    obtain ⟨-, -, htime⟩ := Pacing.try_spec h.tracks.available hcall
    have hle : s.time ≤ (Env.monotonicTime ⟨s.time, gaps, delay⟩).1 :=
      (monotonicTime_spec ⟨s.time, gaps, delay⟩).1
    have hlater : s.time ≤ e'.time := by
      rw [htime]
      split_ifs
      · exact le_rfl
      · exact hle
    rw [poll_eq hcall]
    simp only [polled, elapsed]
    cases s.firstPoll with
    | none => simp
    | some first =>
      simp only [Option.getD_some]
      omega
  | releaseOne gaps =>
    simp only [step] at hs
    split_ifs at hs
    cases hs
    have htime := (Pacing.release_spec s.limiter ⟨s.time, gaps, 0⟩).2.2
    simp only [release, elapsed, htime]
    exact le_rfl

theorem step_paced {S : ℤ → ℤ} (hS : Pacer.Schedule S) {s s' : Caller σ} {c : Call} (h : s.Paced S)
    (hs : step unreleased s c = some s') : s'.Paced S := by
  cases c with
  | tryAcquireOne gaps delay =>
    cases hs
    exact poll_paced hS h gaps delay
  | releaseOne gaps =>
    simp only [step] at hs
    split_ifs at hs with hu
    cases hs
    exact release_paced h hu gaps

theorem run_paced {S : ℤ → ℤ} (hS : Pacer.Schedule S) {limiter : σ} (hsched : schedule limiter = S)
    (hp : pacer limiter = {}) {t : ℤ} {cs : List Call} {s : Caller σ}
    (hr : Runs.exec (step unreleased) { limiter, time := t } cs = some s) : s.Paced S :=
  Runs.exec_inv (fun _ _ _ => step_paced hS) (init_paced hsched hp t) hr

theorem due_eq {S : ℤ → ℤ} (hS : Pacer.Schedule S) {s : Caller σ} (h : s.Paced S) :
    (pacer s.limiter).due S s.time = S s.elapsed := by
  unfold Pacer.due elapsed
  rw [h.start]
  cases s.firstPoll with
  | none => simp [hS.zero]
  | some first => rfl

/-- The caller never holds more than is due, and after a refused poll it holds just that. -/
theorem held_spec {S : ℤ → ℤ} (hS : Pacer.Schedule S) {s : Caller σ} (h : s.Paced S) :
    s.held ≤ S s.elapsed ∧ (s.answer = some false → s.held = S s.elapsed) := by
  have htotal := h.tracks.total
  have havail := h.tracks.available
  have hexact := h.exact
  rw [h.held, due_eq hS h] at htotal hexact
  exact ⟨by omega, hexact⟩

end Caller

end Nighthawk.RateLimiter

import Nighthawk.RateLimiter.Asserts

/-!
# Calls during which the clock stands still

With a cached time source the clock moves between two calls of a limiter and not during one.
-/

namespace Nighthawk.RateLimiter

/-- A call of `releaseOne` leaves the clock alone too. -/
class StillReleases (σ : Type) [Limiter σ] : Prop extends Still σ where
  release_env {s : σ} {e : Env} : e.gaps = [] → (Limiter.releaseOne s e).env = e

instance : StillReleases LinearRateLimiter where
  release_env _ := rfl

instance {σ : Type} [Limiter σ] [StillReleases σ] : StillReleases (ScheduledStartingRateLimiter σ) where
  release_env {s e} h := by
    show (s.releaseOne e).env = e
    unfold ScheduledStartingRateLimiter.releaseOne
    rw [monotonicTime_still h]
    simp only
    split_ifs
    · rfl
    · exact StillReleases.release_env h

instance {σ : Type} [Limiter σ] [StillReleases σ] : StillReleases (BurstingRateLimiter σ) where
  release_env _ := rfl

instance {σ : Type} [Limiter σ] [StillReleases σ] : StillReleases (DelegatingRateLimiterImpl σ) where
  still d e h := by
    show (Limiter.tryAcquireOne d.rateLimiter e.monotonicTime.2).2.2 = e
    rw [monotonicTime_still h]
    exact Still.still d.rateLimiter h
  release_env {d e} h := by
    show (d.releaseOne e).env = e
    unfold DelegatingRateLimiterImpl.releaseOne
    split_ifs
    · rfl
    · exact StillReleases.release_env h

instance : StillReleases Stack where
  still s e h := by
    cases s with
    | plain l => exact Still.still l h
    | bursting l => exact Still.still l h
    | jittered l => exact Still.still l h
    | burstingJittered l => exact Still.still l h
  release_env {s e} h := by
    cases s with
    | plain l => exact StillReleases.release_env (s := l) h
    | bursting l => exact StillReleases.release_env (s := l) h
    | jittered l => exact StillReleases.release_env (s := l) h
    | burstingJittered l => exact StillReleases.release_env (s := l) h

namespace Session

variable {s t : Session}

theorem tryAcquireOne_time {delay : ℕ} (h : s.step (.tryAcquireOne [] delay) = some t) : t.time = s.time := by
  simp only [step, Option.ite_none_right_eq_some, Option.some.injEq] at h
  obtain ⟨-, rfl⟩ := h
  exact congrArg Env.time (Still.still s.stack (e := ⟨s.time, [], delay⟩) rfl)

theorem releaseOne_time (h : s.step (.releaseOne []) = some t) : t.time = s.time := by
  simp only [step, Option.ite_none_right_eq_some, Option.some.injEq] at h
  obtain ⟨-, rfl⟩ := h
  exact congrArg Env.time (StillReleases.release_env (s := s.stack) (e := ⟨s.time, [], 0⟩) rfl)

theorem Counted.later (h : s.Counted) (gap : ℕ) : Counted { s with time := s.time + gap } where
  valid := LawfulMeter.valid_mono h.valid (by simp only; omega)
  count := h.count
  ready hr := ⟨(h.ready hr).1, open_mono (h.ready hr).2 (by simp only; omega)⟩
  clean := h.clean
  started := h.started
  begun := h.begun

end Session

end Nighthawk.RateLimiter

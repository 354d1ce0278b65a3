import Nighthawk.RateLimiter.Meter

/-!
# When the linear limiter starts to count

The linear limiter counts from its first poll on. A scheduled starting limiter above it turns away
every poll before the starting time. The poll that first reaches the linear limiter is refused, and
the clock reading of the linear limiter is the last one in it.
-/

namespace Nighthawk.RateLimiter

/-- `Dormant` says that the linear limiter was not polled yet. -/
class Starting (σ : Type) [Limiter σ] [Meter σ] where
  Dormant : σ → Prop
  startTime_eq {s : σ} : Dormant s → (bottom s).startTime = none
  try_spec {s : σ} {e : Env} {r : Bool} {s' : σ} {e' : Env} : Dormant s →
    Limiter.tryAcquireOne s e = (r, s', e') →
    r = false ∧ e.time ≤ e'.time ∧
      (Dormant s' ∧ ¬Open s e'.time ∨ (bottom s').startTime = some e'.time ∧ Open s e'.time)

export Starting (Dormant)

namespace LinearRateLimiter

theorem tryAcquireOne_new {f : Frequency} (hf : 0 < f.hertz) (e : Env) :
    tryAcquireOne { frequency := f } e =
      (false, { frequency := f, startTime := some e.monotonicTime.1 }, e.monotonicTime.2) := by
  simp [tryAcquireOne, elapsed, due_zero f hf]

instance : Starting LinearRateLimiter where
  Dormant l := 0 < l.frequency.hertz ∧ l = { frequency := l.frequency }
  startTime_eq h := by
    rw [h.2]
    rfl
  try_spec {l e r l' e'} h hcall := by
    obtain ⟨hpositive, hnew⟩ := h
    rw [hnew] at hcall
    cases (tryAcquireOne_new hpositive e).symm.trans hcall
    obtain ⟨hle, htime⟩ := monotonicTime_spec e
    rw [htime]
    exact ⟨rfl, hle, Or.inr ⟨rfl, fun a ha => by cases ha⟩⟩

end LinearRateLimiter

namespace ScheduledStartingRateLimiter

variable {σ : Type} [Limiter σ] [Meter σ] [Starting σ]

instance : Starting (ScheduledStartingRateLimiter σ) where
  Dormant s := Dormant s.rateLimiter
  startTime_eq h := Starting.startTime_eq (σ := σ) h
  try_spec {s e r s' e'} h hcall := by
    obtain ⟨hle, htime⟩ := monotonicTime_spec e
    have hcall : s.tryAcquireOne e = (r, s', e') := hcall
    unfold tryAcquireOne at hcall
    simp only at hcall
    split_ifs at hcall with hearly
    · cases hcall
      refine ⟨rfl, by omega, Or.inl ⟨h, ?_⟩⟩
      rw [open_iff]
      omega
    · rcases hinner : Limiter.tryAcquireOne s.rateLimiter e.monotonicTime.2 with ⟨r₁, inner, e₁⟩
      obtain ⟨hr, hlater, hstart⟩ := Starting.try_spec h hinner
      simp only [hinner, Prod.mk.injEq] at hcall
      obtain ⟨rfl, rfl, rfl⟩ := hcall
      refine ⟨hr, by omega, ?_⟩
      rcases hstart with ⟨hdormant, hclosed⟩ | ⟨hstart, hopen⟩
      · exact Or.inl ⟨hdormant, fun ho => hclosed ((open_iff s _).mp ho).2⟩
      · exact Or.inr ⟨hstart, (open_iff s _).mpr ⟨by omega, hopen⟩⟩

end ScheduledStartingRateLimiter

namespace BurstingRateLimiter

variable {σ : Type} [Limiter σ] [Meter σ] [Starting σ]

instance : Starting (BurstingRateLimiter σ) where
  Dormant b := 0 < b.burstSize ∧ b.releasing = false ∧ Dormant b.rateLimiter
  startTime_eq h := Starting.startTime_eq (σ := σ) h.2.2
  try_spec {b e r b' e'} h hcall := by
    obtain ⟨hsize, hreleasing, hdormant⟩ := h
    -- The first round asks the limiter below, which refuses, and the loop ends.
    obtain ⟨fuel, hfuel⟩ : ∃ fuel, b.rounds = fuel + 1 := by
      have hlt := Nat.mod_lt b.accumulated hsize
      exact ⟨b.rounds - 1, by unfold rounds; omega⟩
    rcases hinner : Limiter.tryAcquireOne b.rateLimiter e with ⟨r₁, inner, e₁⟩
    obtain ⟨rfl, hlater, hstart⟩ := Starting.try_spec hdormant hinner
    have hround : tryAcquireOne b e =
        (false, { b with rateLimiter := inner, previouslyReleasing := none }, e₁) := by
      simp only [tryAcquireOne, hreleasing, hfuel, accumulate, hinner, Bool.false_eq_true, if_false]
    cases hround.symm.trans hcall
    refine ⟨rfl, hlater, ?_⟩
    rcases hstart with ⟨hdormant, hclosed⟩ | hstart
    · exact Or.inl ⟨⟨hsize, hreleasing, hdormant⟩, hclosed⟩
    · exact Or.inr hstart

end BurstingRateLimiter

namespace DelegatingRateLimiterImpl

variable {σ : Type} [Limiter σ] [Meter σ] [Starting σ]

theorem tryAcquireOne_dormant {d : DelegatingRateLimiterImpl σ} (hempty : d.distributedTimings = [])
    (hdormant : Dormant d.rateLimiter) {e e' : Env} {r : Bool} {d' : DelegatingRateLimiterImpl σ}
    (hcall : tryAcquireOne d e = (r, d', e')) :
    r = false ∧ e.time ≤ e'.time ∧
      ((d'.distributedTimings = [] ∧ Dormant d'.rateLimiter) ∧ ¬Open d e'.time ∨
        (bottom d').startTime = some e'.time ∧ Open d e'.time) := by
  obtain ⟨hle, htime⟩ := monotonicTime_spec e
  rcases hinner : Limiter.tryAcquireOne d.rateLimiter e.monotonicTime.2 with ⟨r₁, inner, e₁⟩
  obtain ⟨rfl, hlater, hstart⟩ := Starting.try_spec hdormant hinner
  have hpoll : tryAcquireOne d e = (false, { d with rateLimiter := inner }, e₁) := by
    simp [tryAcquireOne, hinner, popDue, hempty]
  cases hpoll.symm.trans hcall
  refine ⟨rfl, by omega, ?_⟩
  rcases hstart with ⟨hdormant, hclosed⟩ | hstart
  · exact Or.inl ⟨⟨hempty, hdormant⟩, hclosed⟩
  · exact Or.inr hstart

instance : Starting (DelegatingRateLimiterImpl σ) where
  Dormant d := d.distributedTimings = [] ∧ Dormant d.rateLimiter
  startTime_eq h := Starting.startTime_eq (σ := σ) h.2
  try_spec h hcall := tryAcquireOne_dormant h.1 h.2 hcall

end DelegatingRateLimiterImpl

end Nighthawk.RateLimiter

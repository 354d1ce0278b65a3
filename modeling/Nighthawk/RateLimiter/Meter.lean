import Mathlib.Algebra.Order.Field.Rat
import Mathlib.Tactic.FieldSimp
import Mathlib.Tactic.Linarith
import Mathlib.Tactic.Positivity
import Mathlib.Tactic.Ring
import Nighthawk.RateLimiter.Code

/-!
# What a limiter hands out

Every limiter of a stack passes on what the limiter below it granted, and holds some of it back.
What it has handed out is what the limiter at the bottom granted, less what is held back on the
way.
-/

namespace Nighthawk.RateLimiter

/-! ## The clock -/

theorem monotonicTime_spec (e : Env) :
    e.time ≤ e.monotonicTime.1 ∧ e.monotonicTime.2.time = e.monotonicTime.1 := by
  unfold Env.monotonicTime
  split
  · exact ⟨le_rfl, rfl⟩
  · exact ⟨by simp, rfl⟩

/-! ## The ceiling -/

namespace LinearRateLimiter

theorem due_eq (f : Frequency) (hf : 0 < f.hertz) (nanos : ℤ) :
    due f nanos = ⌊(nanos : ℚ) / 10 ^ 9 * f.hertz + 1 / 2⌋ := by
  have hh : (f.hertz : ℚ) ≠ 0 := Nat.cast_ne_zero.mpr (by omega)
  unfold due Frequency.interval
  field_simp

theorem due_mono (f : Frequency) (hf : 0 < f.hertz) {m n : ℤ} (h : m ≤ n) : due f m ≤ due f n := by
  have hmn : (m : ℚ) ≤ n := by exact_mod_cast h
  rw [due_eq f hf, due_eq f hf]
  apply Int.floor_le_floor
  gcongr

theorem due_zero (f : Frequency) (hf : 0 < f.hertz) : due f 0 = 0 := by
  rw [due_eq f hf]
  norm_num

/-- The acquisitions that may have been granted by time `t`. -/
def ceiling (l : LinearRateLimiter) (t : ℤ) : ℤ :=
  match l.startTime with
  | none => 0
  | some start => due l.frequency (t - start)

/-- The counts are under the ceiling, also once all that is acquireable is acquired. -/
structure Within (l : LinearRateLimiter) (t : ℤ) : Prop where
  positive : 0 < l.frequency.hertz
  acquired : l.acquiredCount ≤ l.ceiling t
  acquireable : l.acquireableCount + l.acquiredCount ≤ l.ceiling t

theorem ceiling_mono {l : LinearRateLimiter} (hf : 0 < l.frequency.hertz) {t u : ℤ} (h : t ≤ u) :
    l.ceiling t ≤ l.ceiling u := by
  unfold ceiling
  split
  · exact le_rfl
  · exact due_mono _ hf (by omega)

theorem within_mono {l : LinearRateLimiter} {t u : ℤ} (hl : l.Within t) (h : t ≤ u) : l.Within u where
  positive := hl.positive
  acquired := hl.acquired.trans (ceiling_mono hl.positive h)
  acquireable := hl.acquireable.trans (ceiling_mono hl.positive h)

end LinearRateLimiter

/-! ## Meters -/

/-- `net` is what the limiter has handed out and not been given back, `bottom` the limiter that
grants, and `starts` are the times to wait for. -/
class Meter (σ : Type) where
  bottom : σ → LinearRateLimiter
  starts : σ → List ℤ
  net : σ → ℤ
  Valid : σ → ℤ → Prop

export Meter (bottom starts net Valid)

section

variable {σ : Type} [Meter σ]

def Open (s : σ) (t : ℤ) : Prop := ∀ a ∈ starts s, a ≤ t

/-- What no call changes. -/
structure Fixed (s s' : σ) : Prop where
  starts : starts s' = starts s
  frequency : (bottom s').frequency = (bottom s).frequency
  startTime : ∀ t, (bottom s).startTime = some t → (bottom s').startTime = some t

theorem Fixed.trans {s s' s'' : σ} (h : Fixed s s') (h' : Fixed s' s'') : Fixed s s'' :=
  ⟨h'.starts.trans h.starts, h'.frequency.trans h.frequency, fun t ht => h'.startTime t (h.startTime t ht)⟩

theorem open_mono {s : σ} {t u : ℤ} (hs : Open s t) (h : t ≤ u) : Open s u := fun a ha => (hs a ha).trans h

theorem open_fixed {s s' : σ} {t : ℤ} (hs : Open s t) (h : Fixed s s') : Open s' t := by
  unfold Open
  rw [h.starts]
  exact hs

/-- What a call of `tryAcquireOne` does. -/
structure Tried (s : σ) (e : Env) (r : Bool) (s' : σ) (e' : Env) : Prop where
  later : e.time ≤ e'.time
  fixed : Fixed s s'
  valid : Valid s' e'.time
  net : net s' = net s + if r then 1 else 0
  opened : r = true → Open s' e'.time

/-- What a call of `releaseOne` does unless it ends in a fatal violation. -/
structure GivenBack (s : σ) (e : Env) (s' : σ) (e' : Env) : Prop where
  later : e.time ≤ e'.time
  fixed : Fixed s s'
  valid : Valid s' e'.time
  net : net s' = net s - 1

end

def Clean {σ : Type} (r : Released σ) : Prop := ∀ v ∈ r.violations, v.fatal = false

class LawfulMeter (σ : Type) [Limiter σ] [Meter σ] : Prop where
  valid_mono {s : σ} {t u : ℤ} : Valid s t → t ≤ u → Valid s u
  net_le {s : σ} {t : ℤ} : Valid s t → net s ≤ (bottom s).ceiling t
  try_spec {s : σ} {e : Env} {r : Bool} {s' : σ} {e' : Env} :
    Valid s e.time → Limiter.tryAcquireOne s e = (r, s', e') → Tried s e r s' e'
  release_spec {s : σ} {e : Env} : Valid s e.time → Open s e.time → Clean (Limiter.releaseOne s e) →
    GivenBack s e (Limiter.releaseOne s e).limiter (Limiter.releaseOne s e).env

/-- A limiter that takes back at any time once it is open. -/
class Steady (σ : Type) [Limiter σ] [Meter σ] : Prop where
  clean {s : σ} {e : Env} : Open s e.time → Clean (Limiter.releaseOne s e)

/-! ## Linear -/

namespace LinearRateLimiter

instance : Meter LinearRateLimiter where
  bottom l := l
  starts _ := []
  net l := l.acquiredCount
  Valid l t := l.Within t

theorem acquire_within {l : LinearRateLimiter} {t : ℤ} (hl : l.Within t) (hpos : 0 < l.acquireableCount) :
    l.acquire.Within t := by
  have hsum := hl.acquireable
  refine ⟨hl.positive, ?_, ?_⟩
  · show l.acquiredCount + 1 ≤ l.ceiling t
    omega
  · show l.acquireableCount - 1 + (l.acquiredCount + 1) ≤ l.ceiling t
    omega

theorem elapsed_spec {l : LinearRateLimiter} {e : Env} (hl : l.Within e.time) {nanos : ℤ}
    {l' : LinearRateLimiter}
    {e' : Env} (h : l.elapsed e = (nanos, l', e')) :
    e.time ≤ e'.time ∧ Fixed l l' ∧ l'.acquiredCount = l.acquiredCount ∧ l'.frequency = l.frequency ∧
      l'.ceiling e'.time = due l'.frequency nanos ∧ l.ceiling e'.time ≤ l'.ceiling e'.time := by
  obtain ⟨hle, htime⟩ := monotonicTime_spec e
  simp only [elapsed, Prod.mk.injEq] at h
  obtain ⟨rfl, rfl, rfl⟩ := h
  refine ⟨by omega, ⟨rfl, rfl, fun t ht => ?_⟩, rfl, rfl, ?_, ?_⟩
  · simp only [bottom] at ht ⊢
    simp [ht]
  · rw [htime]
    rfl
  · rw [htime]
    cases hstart : l.startTime with
    | none =>
      -- The clock starts now, so nothing is due yet.
      simp [ceiling, hstart, due_zero _ hl.positive]
    | some start => simp [ceiling, hstart]

theorem tryAcquireOne_spec {l : LinearRateLimiter} {e : Env} (hl : l.Within e.time) {r : Bool}
    {l' : LinearRateLimiter} {e' : Env} (h : l.tryAcquireOne e = (r, l', e')) : Tried l e r l' e' := by
  unfold tryAcquireOne at h
  split_ifs at h with hpos
  · simp only [Prod.mk.injEq] at h
    obtain ⟨rfl, rfl, rfl⟩ := h
    exact ⟨le_rfl, ⟨rfl, rfl, fun t ht => ht⟩, acquire_within hl hpos, rfl, fun _ a ha => by cases ha⟩
  · rcases hel : l.elapsed e with ⟨nanos, m, e₁⟩
    obtain ⟨hlater, hfixed, hacq, hfreq, hceil, hle⟩ := elapsed_spec hl hel
    simp only [hel] at h
    have hwithin : Within { m with acquireableCount := due m.frequency nanos - m.acquiredCount } e₁.time := by
      refine ⟨?_, ?_, ?_⟩
      · show 0 < m.frequency.hertz
        rw [hfreq]
        exact hl.positive
      · show m.acquiredCount ≤ m.ceiling e₁.time
        rw [hacq]
        exact (within_mono hl hlater).acquired.trans hle
      · show due m.frequency nanos - m.acquiredCount + m.acquiredCount ≤ m.ceiling e₁.time
        rw [hceil]
        omega
    split_ifs at h with hdue
    · simp only [Prod.mk.injEq] at h
      obtain ⟨rfl, rfl, rfl⟩ := h
      refine ⟨hlater, ⟨rfl, hfreq, hfixed.startTime⟩, acquire_within hwithin hdue, ?_,
        fun _ a ha => by cases ha⟩
      show m.acquiredCount + 1 = l.acquiredCount + 1
      rw [hacq]
    · simp only [Prod.mk.injEq] at h
      obtain ⟨rfl, rfl, rfl⟩ := h
      refine ⟨hlater, ⟨rfl, hfreq, hfixed.startTime⟩, hwithin, ?_, fun hr => by cases hr⟩
      show m.acquiredCount = l.acquiredCount + 0
      rw [hacq, add_zero]

theorem releaseOne_spec {l : LinearRateLimiter} {e : Env} (hl : l.Within e.time) :
    GivenBack l e (l.releaseOne e).limiter (l.releaseOne e).env := by
  have hacq := hl.acquired
  have hsum := hl.acquireable
  refine ⟨le_rfl, ⟨rfl, rfl, fun t ht => ht⟩, ⟨hl.positive, ?_, ?_⟩, rfl⟩
  · show l.acquiredCount - 1 ≤ l.ceiling e.time
    omega
  · show l.acquireableCount + 1 + (l.acquiredCount - 1) ≤ l.ceiling e.time
    omega

instance : LawfulMeter LinearRateLimiter where
  valid_mono := within_mono
  net_le hl := hl.acquired
  try_spec hl h := tryAcquireOne_spec hl h
  release_spec hl _ _ := releaseOne_spec hl

instance : Steady LinearRateLimiter where
  clean _ v hv := by cases hv

end LinearRateLimiter

/-! ## Scheduled starting -/

namespace ScheduledStartingRateLimiter

variable {σ : Type} [Limiter σ] [Meter σ]

instance : Meter (ScheduledStartingRateLimiter σ) where
  bottom s := bottom s.rateLimiter
  starts s := s.scheduledStartingTime :: starts s.rateLimiter
  net s := net s.rateLimiter
  Valid s t := Valid s.rateLimiter t

omit [Limiter σ] in
theorem open_iff (s : ScheduledStartingRateLimiter σ) (t : ℤ) :
    Open s t ↔ s.scheduledStartingTime ≤ t ∧ Open s.rateLimiter t := by
  unfold Open
  exact List.forall_mem_cons

theorem tryAcquireOne_spec [LawfulMeter σ] {s : ScheduledStartingRateLimiter σ} {e : Env}
    (hs : Valid s e.time) {r : Bool} {s' : ScheduledStartingRateLimiter σ} {e' : Env}
    (h : s.tryAcquireOne e = (r, s', e')) : Tried s e r s' e' := by
  obtain ⟨hle, htime⟩ := monotonicTime_spec e
  have hs' : Valid s.rateLimiter e.monotonicTime.2.time :=
    LawfulMeter.valid_mono hs (by omega)
  unfold tryAcquireOne at h
  simp only at h
  split_ifs at h with hearly
  · simp only [Prod.mk.injEq] at h
    obtain ⟨rfl, rfl, rfl⟩ := h
    refine ⟨by omega, ⟨rfl, rfl, fun t ht => ht⟩, hs', (add_zero _).symm, fun hr => by cases hr⟩
  · rcases hinner : Limiter.tryAcquireOne s.rateLimiter e.monotonicTime.2 with ⟨r₁, inner, e₁⟩
    have htried := LawfulMeter.try_spec hs' hinner
    simp only [hinner, Prod.mk.injEq] at h
    obtain ⟨rfl, rfl, rfl⟩ := h
    have hlater := htried.later
    refine ⟨by omega, ⟨?_, htried.fixed.frequency, htried.fixed.startTime⟩, htried.valid,
      htried.net, fun hr => ?_⟩
    · show s.scheduledStartingTime :: starts inner = _ :: starts s.rateLimiter
      rw [htried.fixed.starts]
    · rw [open_iff]
      exact ⟨by simp only; omega, htried.opened hr⟩

theorem releaseOne_open {s : ScheduledStartingRateLimiter σ} {e : Env} (ho : Open s e.time) :
    s.releaseOne e =
      let r := Limiter.releaseOne s.rateLimiter e.monotonicTime.2
      ⟨{ s with rateLimiter := r.limiter }, r.env, r.violations⟩ := by
  obtain ⟨hle, -⟩ := monotonicTime_spec e
  have := ((open_iff s _).mp ho).1
  unfold releaseOne
  simp only
  rw [if_neg (by omega)]

theorem releaseOne_spec [LawfulMeter σ] {s : ScheduledStartingRateLimiter σ} {e : Env} (hs : Valid s e.time)
    (ho : Open s e.time) (hc : Clean (s.releaseOne e)) :
    GivenBack s e (s.releaseOne e).limiter (s.releaseOne e).env := by
  obtain ⟨hle, htime⟩ := monotonicTime_spec e
  rw [releaseOne_open ho] at hc ⊢
  have hback := LawfulMeter.release_spec (s := s.rateLimiter) (e := e.monotonicTime.2)
    (LawfulMeter.valid_mono hs (by omega)) (open_mono ((open_iff s _).mp ho).2 (by omega)) hc
  have hlater := hback.later
  refine ⟨by simp only; omega, ⟨?_, hback.fixed.frequency, hback.fixed.startTime⟩, hback.valid, hback.net⟩
  show s.scheduledStartingTime :: starts _ = _ :: starts s.rateLimiter
  rw [hback.fixed.starts]

instance [LawfulMeter σ] : LawfulMeter (ScheduledStartingRateLimiter σ) where
  valid_mono hs h := LawfulMeter.valid_mono (σ := σ) hs h
  net_le hs := LawfulMeter.net_le (σ := σ) hs
  try_spec hs h := tryAcquireOne_spec hs h
  release_spec hs ho hc := releaseOne_spec hs ho hc

instance [Steady σ] : Steady (ScheduledStartingRateLimiter σ) where
  clean {s e} ho := by
    obtain ⟨hle, htime⟩ := monotonicTime_spec e
    show Clean (s.releaseOne e)
    rw [releaseOne_open ho]
    exact Steady.clean (s := s.rateLimiter) (open_mono ((open_iff s _).mp ho).2 (by omega))

end ScheduledStartingRateLimiter

/-! ## Bursting -/

namespace BurstingRateLimiter

theorem rounds_succ {σ : Type} {b : BurstingRateLimiter σ} (hsize : 0 < b.burstSize) (inner : σ)
    (hfull : (b.accumulated + 1) % b.burstSize ≠ 0) :
    rounds { b with rateLimiter := inner, accumulated := b.accumulated + 1 } + 1 = b.rounds := by
  have hlt := Nat.mod_lt b.accumulated hsize
  have hsucc : (b.accumulated + 1) % b.burstSize = b.accumulated % b.burstSize + 1 := by
    rw [Nat.add_mod]
    rcases Nat.lt_or_ge 1 b.burstSize with h1 | h1
    · rw [Nat.mod_eq_of_lt h1]
      rcases Nat.lt_or_ge (b.accumulated % b.burstSize + 1) b.burstSize with h2 | h2
      · exact Nat.mod_eq_of_lt h2
      · refine absurd ?_ hfull
        rw [Nat.add_mod, Nat.mod_eq_of_lt h1,
          show b.accumulated % b.burstSize + 1 = b.burstSize by omega, Nat.mod_self]
    · exact absurd (by rw [show b.burstSize = 1 by omega, Nat.mod_one]) hfull
  have hlt' := Nat.mod_lt (b.accumulated + 1) hsize
  simp only [rounds]
  omega

/-- The loop ends by itself: rounds past the next multiple of the burst size are never run. -/
theorem accumulate_fuel {σ : Type} [Limiter σ] (fuel : ℕ) {b : BurstingRateLimiter σ}
    (hsize : 0 < b.burstSize)
    (hfuel : b.rounds ≤ fuel) (e : Env) : accumulate fuel b e = accumulate b.rounds b e := by
  induction fuel generalizing b e with
  | zero => rw [Nat.le_zero.mp hfuel]
  | succ fuel ih =>
    obtain ⟨k, hk⟩ : ∃ k, b.rounds = k + 1 := by
      have := Nat.mod_lt b.accumulated hsize
      exact ⟨b.rounds - 1, by unfold rounds; omega⟩
    rw [hk]
    rcases hinner : Limiter.tryAcquireOne b.rateLimiter e with ⟨r, inner, e₁⟩
    simp only [accumulate, hinner]
    cases r with
    | false => rfl
    | true =>
      simp only
      split_ifs with hfull
      · rfl
      · have hrounds := rounds_succ hsize inner hfull
        rw [ih (b := { b with rateLimiter := inner, accumulated := b.accumulated + 1 }) hsize (by omega)]
        congr 1
        omega

variable {σ : Type} [Limiter σ] [Meter σ]

/-- There is something to drain in release mode, and all of it was granted after the start. -/
structure Stocked (b : BurstingRateLimiter σ) (t : ℤ) : Prop where
  inner : Valid b.rateLimiter t
  size : 0 < b.burstSize
  stock : b.releasing = true → 0 < b.accumulated
  opened : 0 < b.accumulated → Open b.rateLimiter t

instance : Meter (BurstingRateLimiter σ) where
  bottom b := bottom b.rateLimiter
  starts b := starts b.rateLimiter
  net b := net b.rateLimiter - b.accumulated
  Valid b t := b.Stocked t

omit [Limiter σ] in
theorem drain_spec {b : BurstingRateLimiter σ} {e : Env} (hb : b.Stocked e.time) (hpos : 0 < b.accumulated) :
    Tried b e true b.drain e := by
  refine ⟨le_rfl, ⟨rfl, rfl, fun _ ht => ht⟩, ⟨hb.inner, hb.size, ?_, fun _ => hb.opened hpos⟩, ?_,
    fun _ => hb.opened hpos⟩
  · intro hr
    simpa [drain] using hr
  · show net b.rateLimiter - ((b.accumulated - 1 : ℕ) : ℤ) = net b.rateLimiter - (b.accumulated : ℤ) + 1
    omega

variable [LawfulMeter σ]

theorem stock_spec {b : BurstingRateLimiter σ} {e : Env} (hb : b.Stocked e.time) {inner : σ} {e' : Env}
    (h : Limiter.tryAcquireOne b.rateLimiter e = (true, inner, e')) (releasing : Bool) :
    let b' := { b with rateLimiter := inner, accumulated := b.accumulated + 1, releasing := releasing }
    e.time ≤ e'.time ∧ Fixed b b' ∧ b'.Stocked e'.time ∧ net b' = net b := by
  have htried := LawfulMeter.try_spec hb.inner h
  have hnet := htried.net
  simp only [if_true] at hnet
  refine ⟨htried.later, ⟨htried.fixed.starts, htried.fixed.frequency, htried.fixed.startTime⟩,
    ⟨htried.valid, hb.size, fun _ => Nat.succ_pos _, fun _ => htried.opened rfl⟩, ?_⟩
  show net inner - ((b.accumulated + 1 : ℕ) : ℤ) = net b.rateLimiter - (b.accumulated : ℤ)
  rw [hnet]
  push_cast
  ring

theorem accumulate_spec (fuel : ℕ) {b : BurstingRateLimiter σ} {e : Env} (hb : b.Stocked e.time)
    (hr : b.releasing = false) {r : Bool} {b' : BurstingRateLimiter σ} {e' : Env}
    (h : accumulate fuel b e = (r, b', e')) : Tried b e r b' e' := by
  induction fuel generalizing b e with
  | zero =>
    simp only [accumulate, Prod.mk.injEq] at h
    obtain ⟨rfl, rfl, rfl⟩ := h
    exact ⟨le_rfl, ⟨rfl, rfl, fun _ ht => ht⟩, ⟨hb.inner, hb.size, hb.stock, hb.opened⟩, (add_zero _).symm,
      fun hr => by cases hr⟩
  | succ fuel ih =>
    rcases hinner : Limiter.tryAcquireOne b.rateLimiter e with ⟨r₁, inner, e₁⟩
    simp only [accumulate, hinner] at h
    cases r₁ with
    | false =>
      simp only [Prod.mk.injEq] at h
      obtain ⟨rfl, rfl, rfl⟩ := h
      have htried := LawfulMeter.try_spec hb.inner hinner
      refine ⟨htried.later, ⟨htried.fixed.starts, htried.fixed.frequency, htried.fixed.startTime⟩,
        ⟨htried.valid, hb.size, hb.stock, fun hpos => ?_⟩, ?_, fun hr => by cases hr⟩
      · exact open_mono (open_fixed (hb.opened hpos) htried.fixed) htried.later
      · have hnet := htried.net
        simp only [Bool.false_eq_true, if_false, add_zero] at hnet
        show net inner - (b.accumulated : ℤ) = net b.rateLimiter - (b.accumulated : ℤ) + 0
        rw [hnet, add_zero]
    | true =>
      simp only at h
      split_ifs at h with hfull
      · -- The burst is complete, and its first acquisition is handed out.
        obtain ⟨hlater, hfixed, hstocked, hnet⟩ := stock_spec hb hinner true
        simp only [Prod.mk.injEq] at h
        obtain ⟨rfl, rfl, rfl⟩ := h
        have hdrain := drain_spec hstocked (Nat.succ_pos _)
        exact ⟨hlater, hfixed.trans hdrain.fixed, hdrain.valid, by rw [hdrain.net, hnet], hdrain.opened⟩
      · obtain ⟨hlater, hfixed, hstocked, hnet⟩ := stock_spec hb hinner b.releasing
        have hrest := ih hstocked hr h
        exact ⟨hlater.trans hrest.later, hfixed.trans hrest.fixed,
          hrest.valid, by rw [hrest.net, hnet], hrest.opened⟩

theorem tryAcquireOne_spec {b : BurstingRateLimiter σ} {e : Env} (hb : b.Stocked e.time) {r : Bool}
    {b' : BurstingRateLimiter σ} {e' : Env} (h : b.tryAcquireOne e = (r, b', e')) : Tried b e r b' e' := by
  unfold tryAcquireOne at h
  split_ifs at h with hr
  · simp only [Prod.mk.injEq] at h
    obtain ⟨rfl, rfl, rfl⟩ := h
    exact drain_spec hb (hb.stock hr)
  · have := accumulate_spec b.rounds (b := { b with previouslyReleasing := some false })
      ⟨hb.inner, hb.size, hb.stock, hb.opened⟩ (by simpa using hr) h
    exact ⟨this.later, ⟨this.fixed.starts, this.fixed.frequency, this.fixed.startTime⟩, this.valid, this.net,
      this.opened⟩

omit [Limiter σ] [LawfulMeter σ] in
theorem releaseOne_spec {b : BurstingRateLimiter σ} {e : Env} (hb : b.Stocked e.time) (ho : Open b e.time) :
    GivenBack b e (b.releaseOne e).limiter (b.releaseOne e).env := by
  refine ⟨le_rfl, ⟨rfl, rfl, fun _ ht => ht⟩, ⟨hb.inner, hb.size, fun _ => Nat.succ_pos _, fun _ => ho⟩, ?_⟩
  show net b.rateLimiter - ((b.accumulated + 1 : ℕ) : ℤ) = net b.rateLimiter - (b.accumulated : ℤ) - 1
  push_cast
  ring

instance : LawfulMeter (BurstingRateLimiter σ) where
  valid_mono hb h := ⟨LawfulMeter.valid_mono hb.inner h, hb.size, hb.stock, fun hpos =>
    open_mono (hb.opened hpos) h⟩
  net_le {b t} hb := by
    have hle := LawfulMeter.net_le hb.inner
    show net b.rateLimiter - (b.accumulated : ℤ) ≤ (bottom b.rateLimiter).ceiling t
    omega
  try_spec hb h := tryAcquireOne_spec hb h
  release_spec hb ho _ := releaseOne_spec hb ho

omit [Limiter σ] [Meter σ] [LawfulMeter σ] in
theorem releaseOne_clean (b : BurstingRateLimiter σ) (e : Env) : Clean (b.releaseOne e) := by
  intro v hv
  simp only [releaseOne, List.mem_append] at hv
  rcases hv with hv | hv
  all_goals
    split_ifs at hv
    · cases hv
    · rw [List.mem_singleton.mp hv]
      rfl

omit [LawfulMeter σ] in
instance : Steady (BurstingRateLimiter σ) where
  clean _ := releaseOne_clean _ _

end BurstingRateLimiter

/-! ## Delegating -/

namespace DelegatingRateLimiterImpl

variable {σ : Type} [Limiter σ] [Meter σ]

/-- Every timing that waits was granted after the start. -/
structure Queued (d : DelegatingRateLimiterImpl σ) (t : ℤ) : Prop where
  inner : Valid d.rateLimiter t
  opened : d.distributedTimings ≠ [] → Open d.rateLimiter t

instance : Meter (DelegatingRateLimiterImpl σ) where
  bottom d := bottom d.rateLimiter
  starts d := starts d.rateLimiter
  net d := net d.rateLimiter - d.distributedTimings.length
  Valid d t := d.Queued t

omit [Limiter σ] in
theorem insertTiming_spec {d : DelegatingRateLimiterImpl σ} {t : ℤ} (hd : Valid d.rateLimiter t)
    (ho : Open d.rateLimiter t) (adjusted : ℤ) :
    (d.insertTiming adjusted).Queued t ∧ Fixed d (d.insertTiming adjusted) ∧
      net (d.insertTiming adjusted) = net d - 1 := by
  refine ⟨⟨hd, fun _ => ho⟩, ⟨rfl, rfl, fun _ ht => ht⟩, ?_⟩
  show net d.rateLimiter - ((d.distributedTimings.orderedInsert (· < ·) adjusted).length : ℤ) =
    net d.rateLimiter - (d.distributedTimings.length : ℤ) - 1
  rw [List.orderedInsert_length]
  push_cast
  ring

omit [Limiter σ] in
theorem popDue_spec {d : DelegatingRateLimiterImpl σ} {e : Env} (hd : d.Queued e.time) (now : ℤ) :
    Tried d e (d.popDue now).1 (d.popDue now).2 e := by
  have hkeep : Tried d e false d e :=
    ⟨le_rfl, ⟨rfl, rfl, fun _ ht => ht⟩, hd, (add_zero _).symm, fun hr => by cases hr⟩
  unfold popDue
  split
  · exact hkeep
  · rename_i front rest hq
    have ho : Open d.rateLimiter e.time := hd.opened (by simp [hq])
    split_ifs
    · refine ⟨le_rfl, ⟨rfl, rfl, fun _ ht => ht⟩, ⟨hd.inner, fun _ => ho⟩, ?_, fun _ => ho⟩
      show net d.rateLimiter - (rest.length : ℤ) = net d.rateLimiter - (d.distributedTimings.length : ℤ) + 1
      rw [hq, List.length_cons]
      push_cast
      ring
    · exact hkeep

variable [LawfulMeter σ]

theorem enqueue_spec {d : DelegatingRateLimiterImpl σ} {e : Env} (hd : d.Queued e.time) {r : Bool} {inner : σ}
    {e' : Env} (h : Limiter.tryAcquireOne d.rateLimiter e.monotonicTime.2 = (r, inner, e')) (adjusted : ℤ) :
    let d₁ := { d with rateLimiter := inner }
    let d' := if r then d₁.insertTiming adjusted else d₁
    e.time ≤ e'.time ∧ Fixed d d' ∧ d'.Queued e'.time ∧ net d' = net d := by
  obtain ⟨hle, htime⟩ := monotonicTime_spec e
  have htried := LawfulMeter.try_spec (LawfulMeter.valid_mono hd.inner (by omega)) h
  have hlater := htried.later
  have hfixed : Fixed d { d with rateLimiter := inner } :=
    ⟨htried.fixed.starts, htried.fixed.frequency, htried.fixed.startTime⟩
  have hnet : net ({ d with rateLimiter := inner } : DelegatingRateLimiterImpl σ) = net d + if r then
      1 else 0 := by
    show net inner - (d.distributedTimings.length : ℤ) =
      net d.rateLimiter - (d.distributedTimings.length : ℤ) + _
    rw [htried.net]
    ring
  refine ⟨by omega, ?_⟩
  cases r with
  | true =>
    obtain ⟨hq, hf, hn⟩ :=
      insertTiming_spec (d := { d with rateLimiter := inner }) htried.valid (htried.opened rfl) adjusted
    refine ⟨hfixed.trans hf, hq, ?_⟩
    simp only [if_true] at hnet ⊢
    rw [hn, hnet]
    ring
  | false =>
    refine ⟨hfixed, ⟨htried.valid, fun hne => ?_⟩, by simpa using hnet⟩
    exact open_mono (open_fixed (hd.opened hne) htried.fixed) (by omega)

theorem tryAcquireOne_spec {d : DelegatingRateLimiterImpl σ} {e : Env} (hd : d.Queued e.time) {r : Bool}
    {d' : DelegatingRateLimiterImpl σ} {e' : Env} (h : d.tryAcquireOne e = (r, d', e')) :
    Tried d e r d' e' := by
  rcases hinner : Limiter.tryAcquireOne d.rateLimiter e.monotonicTime.2 with ⟨r₁, inner, e₁⟩
  obtain ⟨hlater, hfixed, hqueued, hnet⟩ := enqueue_spec hd hinner (e.monotonicTime.1 + e₁.delay)
  simp only [tryAcquireOne, hinner, Prod.mk.injEq] at h
  obtain ⟨rfl, rfl, rfl⟩ := h
  have hpop := popDue_spec hqueued e.monotonicTime.1
  exact ⟨hlater, hfixed.trans hpop.fixed, hpop.valid, by rw [hpop.net, hnet], hpop.opened⟩

theorem releaseOne_spec {d : DelegatingRateLimiterImpl σ} {e : Env} (hd : d.Queued e.time)
    (ho : Open d e.time)
    (hc : Clean (d.releaseOne e)) : GivenBack d e (d.releaseOne e).limiter (d.releaseOne e).env := by
  unfold releaseOne at hc ⊢
  split_ifs at hc ⊢
  · cases hc _ (List.mem_singleton_self _)
  · have hback := LawfulMeter.release_spec (s := d.rateLimiter) hd.inner ho hc
    refine ⟨hback.later, ⟨hback.fixed.starts, hback.fixed.frequency, hback.fixed.startTime⟩,
      ⟨hback.valid, fun hne => ?_⟩, ?_⟩
    · exact open_mono (open_fixed (hd.opened hne) hback.fixed) hback.later
    · show net _ - (d.distributedTimings.length : ℤ) =
        net d.rateLimiter - (d.distributedTimings.length : ℤ) - 1
      rw [hback.net]
      ring

instance : LawfulMeter (DelegatingRateLimiterImpl σ) where
  valid_mono hd h := ⟨LawfulMeter.valid_mono hd.inner h, fun hne => open_mono (hd.opened hne) h⟩
  net_le {d t} hd := by
    have hle := LawfulMeter.net_le hd.inner
    show net d.rateLimiter - (d.distributedTimings.length : ℤ) ≤ (bottom d.rateLimiter).ceiling t
    omega
  try_spec hd h := tryAcquireOne_spec hd h
  release_spec hd ho hc := releaseOne_spec hd ho hc

end DelegatingRateLimiterImpl

end Nighthawk.RateLimiter

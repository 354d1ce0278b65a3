import Nighthawk.RateLimiter.Caller

/-!
# The shape of bursts

The bursting limiter collects acquisitions of the wrapped limiter until it has a burst of them,
and then hands these out without polling it. This holds for any wrapped limiter.
-/

namespace Nighthawk.RateLimiter

namespace BurstingRateLimiter

variable {σ : Type} [Limiter σ]

/-! ## One call -/

/-- The limiter after the loop: with one acquisition of a full burst handed out, or with the
burst still to be filled. -/
structure Collected (l l' : BurstingRateLimiter (Counted σ)) (r : Bool) : Prop where
  burstSize : l'.burstSize = l.burstSize
  granted : l'.rateLimiter.successes + l.accumulated =
    l.rateLimiter.successes + l'.accumulated + if r then 1 else 0
  full : r = true → l'.accumulated + 1 = l.burstSize ∧ l'.releasing = decide (0 < l'.accumulated) ∧
    l'.previouslyReleasing = some true
  filling : r = false → l'.accumulated < l.burstSize ∧ l'.releasing = false

theorem accumulate_collected (fuel : ℕ) {l : BurstingRateLimiter (Counted σ)} {e : Env}
    (hacc : l.accumulated < l.burstSize) (hrel : l.releasing = false) {r : Bool}
    {l' : BurstingRateLimiter (Counted σ)}
    {e' : Env} (h : accumulate fuel l e = (r, l', e')) : Collected l l' r := by
  induction fuel generalizing l e with
  | zero =>
    simp only [accumulate, Prod.mk.injEq] at h
    obtain ⟨rfl, rfl, -⟩ := h
    exact ⟨rfl, rfl, fun hr => absurd hr Bool.false_ne_true, fun _ => ⟨hacc, hrel⟩⟩
  | succ fuel ih =>
    rcases hinner : Limiter.tryAcquireOne l.rateLimiter e with ⟨r₁, inner, e₁⟩
    have hsuccesses := Counted.successes_spec hinner
    simp only [accumulate, hinner] at h
    cases r₁ with
    | false =>
      simp only [Prod.mk.injEq] at h
      obtain ⟨rfl, rfl, -⟩ := h
      refine ⟨rfl, ?_, fun hr => absurd hr Bool.false_ne_true, fun _ => ⟨hacc, hrel⟩⟩
      simp only [Bool.false_eq_true, if_false, add_zero] at hsuccesses ⊢
      rw [hsuccesses]
    | true =>
      simp only [if_true] at h hsuccesses
      split_ifs at h with hfull
      · -- A multiple of the burst size below the next burst is the burst itself.
        have hburst : l.accumulated + 1 = l.burstSize := by
          by_contra hne
          rw [Nat.mod_eq_of_lt (by omega)] at hfull
          omega
        simp only [Prod.mk.injEq] at h
        obtain ⟨rfl, rfl, -⟩ := h
        refine ⟨rfl, ?_, fun _ => ⟨hburst, rfl, rfl⟩, fun hr => absurd hr.symm Bool.false_ne_true⟩
        simp only [drain, if_true]
        omega
      · have hlt : l.accumulated + 1 < l.burstSize := by
          by_contra hge
          rw [show l.accumulated + 1 = l.burstSize by omega, Nat.mod_self] at hfull
          exact hfull rfl
        have hrest := ih (l := { l with rateLimiter := inner, accumulated := l.accumulated + 1 }) hlt hrel h
        have hgranted := hrest.granted
        simp only at hgranted
        exact ⟨hrest.burstSize, by omega, hrest.full, hrest.filling⟩

theorem poll_releasing {l : BurstingRateLimiter (Counted σ)} (hrel : l.releasing = true) (e : Env) :
    Limiter.tryAcquireOne l e = (true, l.drain, e) := if_pos hrel

theorem poll_collected {l : BurstingRateLimiter (Counted σ)} {e : Env} (hacc : l.accumulated < l.burstSize)
    (hrel : l.releasing = false) {r : Bool} {l' : BurstingRateLimiter (Counted σ)} {e' : Env}
    (h : Limiter.tryAcquireOne l e = (r, l', e')) : Collected l l' r := by
  have h : l.tryAcquireOne e = (r, l', e') := h
  unfold tryAcquireOne at h
  rw [if_neg (by simp [hrel])] at h
  have hc := accumulate_collected l.rounds (l := { l with previouslyReleasing := some false }) hacc hrel h
  exact ⟨hc.burstSize, hc.granted, hc.full, hc.filling⟩

/-! ## Runs -/

/-- The bounds of the stock, and how far the caller is in its burst. -/
structure Shaped (b : ℕ) (s : Caller (BurstingRateLimiter (Counted σ))) : Prop where
  burstSize : s.limiter.burstSize = b
  granted : (s.limiter.rateLimiter.successes : ℤ) = s.held + s.limiter.accumulated
  releasing : s.limiter.releasing = true →
    0 < s.limiter.accumulated ∧ s.limiter.accumulated ≤ b ∧ (b : ℤ) ∣ s.held + s.limiter.accumulated
  filling : s.limiter.releasing = false → s.limiter.accumulated < b ∧ (b : ℤ) ∣ s.held
  acquired : s.answer = some true → s.limiter.accumulated < b ∧ s.limiter.previouslyReleasing = some true ∧
    (b : ℤ) ∣ s.held + s.limiter.accumulated

omit [Limiter σ] in
theorem init_shaped {b : ℕ} (hb : 1 ≤ b) (l : σ) (t : ℤ) :
    Shaped b { limiter := { rateLimiter := { limiter := l }, burstSize := b }, time := t } where
  burstSize := rfl
  granted := rfl
  releasing := nofun
  filling _ := ⟨hb, dvd_zero _⟩
  acquired := nofun

omit [Limiter σ] in
theorem drained_shaped {b : ℕ} {s s' : Caller (BurstingRateLimiter (Counted σ))}
    (hsize : s'.limiter.burstSize = b)
    (hgranted : (s'.limiter.rateLimiter.successes : ℤ) = s'.held + s'.limiter.accumulated)
    (hheld : s'.held = s.held + 1) (hlt : s'.limiter.accumulated < b)
    (hdvd : (b : ℤ) ∣ s.held + (s'.limiter.accumulated + 1))
    (hreleasing : s'.limiter.releasing = decide (0 < s'.limiter.accumulated))
    (hprev : s'.limiter.previouslyReleasing = some true) : Shaped b s' := by
  have hdvd' : (b : ℤ) ∣ s'.held + s'.limiter.accumulated := by
    rw [hheld, add_assoc, add_comm 1]
    exact hdvd
  constructor
  case burstSize => exact hsize
  case granted => exact hgranted
  case releasing =>
    intro hr
    rw [hreleasing, decide_eq_true_iff] at hr
    exact ⟨hr, hlt.le, hdvd'⟩
  case filling =>
    intro hr
    rw [hreleasing, decide_eq_false_iff_not] at hr
    refine ⟨hlt, ?_⟩
    rwa [show s'.limiter.accumulated = 0 by omega, Nat.cast_zero, add_zero] at hdvd'
  case acquired => exact fun _ => ⟨hlt, hprev, hdvd'⟩

theorem releasing_shaped {b : ℕ} {s : Caller (BurstingRateLimiter (Counted σ))} (h : Shaped b s)
    (hr : s.limiter.releasing = true) (gaps : List ℕ) (delay : ℕ) : Shaped b (s.poll gaps delay) := by
  have hgranted := h.granted
  obtain ⟨hpos, hle, hdvd⟩ := h.releasing hr
  have hacc : ((s.limiter.accumulated - 1 : ℕ) : ℤ) = s.limiter.accumulated - 1 := by omega
  rw [Caller.poll_eq (poll_releasing hr _)]
  refine drained_shaped h.burstSize ?_ (Caller.held_polled ..) ?_ ?_ rfl rfl
  · rw [Caller.held_polled]
    simp only [Caller.polled, drain, hacc, if_true]
    omega
  · show s.limiter.accumulated - 1 < b
    omega
  · simp only [Caller.polled, drain, hacc, sub_add_cancel]
    exact hdvd

omit [Limiter σ] in
theorem full_shaped {b : ℕ} {s : Caller (BurstingRateLimiter (Counted σ))} (h : Shaped b s)
    (hdvd : (b : ℤ) ∣ s.held) {l' : BurstingRateLimiter (Counted σ)}
    (hc : Collected s.limiter l' true) (t : ℤ) :
    Shaped b (s.polled true l' t) := by
  have hgranted := h.granted
  have hcount := hc.granted
  obtain ⟨hfull, hreleasing, hprev⟩ := hc.full rfl
  rw [h.burstSize] at hfull
  have hfull' : (l'.accumulated : ℤ) + 1 = b := by exact_mod_cast hfull
  refine drained_shaped (hc.burstSize.trans h.burstSize) ?_ (Caller.held_polled ..) ?_ ?_ hreleasing hprev
  · rw [Caller.held_polled]
    simp only [Caller.polled, if_true] at hcount ⊢
    omega
  · show l'.accumulated < b
    omega
  · simp only [Caller.polled, hfull']
    exact (Int.dvd_add_left (dvd_refl _)).mpr hdvd

omit [Limiter σ] in
theorem filling_shaped {b : ℕ} {s : Caller (BurstingRateLimiter (Counted σ))} (h : Shaped b s)
    (hdvd : (b : ℤ) ∣ s.held) {l' : BurstingRateLimiter (Counted σ)}
    (hc : Collected s.limiter l' false) (t : ℤ) :
    Shaped b (s.polled false l' t) := by
  have hgranted := h.granted
  have hcount := hc.granted
  obtain ⟨hlt, hreleasing⟩ := hc.filling rfl
  rw [h.burstSize] at hlt
  simp only [Bool.false_eq_true, if_false, add_zero] at hcount
  have hheld : (s.polled false l' t).held = s.held := by simp
  constructor
  case burstSize => exact hc.burstSize.trans h.burstSize
  case granted =>
    rw [hheld]
    simp only [Caller.polled]
    omega
  case releasing =>
    intro hr
    simp only [Caller.polled, hreleasing, Bool.false_eq_true] at hr
  case filling =>
    intro _
    rw [hheld]
    exact ⟨hlt, hdvd⟩
  case acquired =>
    intro ha
    cases ha

theorem poll_shaped {b : ℕ} {s : Caller (BurstingRateLimiter (Counted σ))} (h : Shaped b s) (gaps : List ℕ)
    (delay : ℕ) : Shaped b (s.poll gaps delay) := by
  cases hr : s.limiter.releasing with
  | true => exact releasing_shaped h hr gaps delay
  | false =>
    obtain ⟨hlt, hdvd⟩ := h.filling hr
    rcases hcall : Limiter.tryAcquireOne s.limiter ⟨s.time, gaps, delay⟩ with ⟨r, l', e'⟩
    have hc := poll_collected (by simpa [h.burstSize] using hlt) hr hcall
    rw [Caller.poll_eq hcall]
    cases r with
    | true => exact full_shaped h hdvd hc e'.time
    | false => exact filling_shaped h hdvd hc e'.time

theorem release_shaped {b : ℕ} {s : Caller (BurstingRateLimiter (Counted σ))} (h : Shaped b s)
    (ha : s.answer = some true) (gaps : List ℕ) : Shaped b (s.release gaps) := by
  have hgranted := h.granted
  obtain ⟨hlt, -, hdvd⟩ := h.acquired ha
  have hheld := Caller.held_release s gaps
  have hacc : (((s.release gaps).limiter.accumulated : ℕ) : ℤ) = s.limiter.accumulated + 1 := by
    simp only [Caller.release, Limiter.releaseOne, releaseOne]
    push_cast
    rfl
  constructor
  case burstSize => exact h.burstSize
  case granted =>
    rw [hheld, hacc]
    show (s.limiter.rateLimiter.successes : ℤ) = _
    omega
  case releasing =>
    intro _
    refine ⟨Nat.succ_pos _, hlt, ?_⟩
    rw [hheld, hacc, sub_add_add_cancel]
    exact hdvd
  case filling =>
    intro hr
    cases hr
  case acquired =>
    intro ha'
    cases ha'

theorem step_shaped {b : ℕ} {s s' : Caller (BurstingRateLimiter (Counted σ))} {c : Call} (h : Shaped b s)
    (hs : s.step Caller.justAcquired c = some s') : Shaped b s' := by
  cases c with
  | tryAcquireOne gaps delay =>
    cases hs
    exact poll_shaped h gaps delay
  | releaseOne gaps =>
    simp only [Caller.step, Caller.justAcquired, decide_eq_true_eq] at hs
    split_ifs at hs with ha
    cases hs
    exact release_shaped h ha gaps

omit [Limiter σ] in
theorem releaseOne_clean_of_shaped {b : ℕ} {s : Caller (BurstingRateLimiter (Counted σ))} (h : Shaped b s)
    (ha : s.answer = some true) (e : Env) : (s.limiter.releaseOne e).violations = [] := by
  obtain ⟨hlt, hprev, -⟩ := h.acquired ha
  simp only [releaseOne, h.burstSize, hlt, hprev, if_true, List.append_nil]

theorem polls_between_bursts {b : ℕ} {s s' : Caller (BurstingRateLimiter (Counted σ))} {c : Call}
    (h : Shaped b s)
    (hs : s.step Caller.justAcquired c = some s')
    (hpolls : s'.limiter.rateLimiter.polls ≠ s.limiter.rateLimiter.polls) : (b : ℤ) ∣ s.held := by
  cases hr : s.limiter.releasing with
  | false => exact (h.filling hr).2
  | true =>
    refine absurd ?_ hpolls
    cases c with
    | tryAcquireOne gaps delay =>
      cases hs
      rw [Caller.poll_eq (poll_releasing hr _)]
      rfl
    | releaseOne gaps =>
      simp only [Caller.step] at hs
      split_ifs at hs
      cases hs
      rfl

omit [Limiter σ] in
theorem granted_of_held {b : ℕ} {s : Caller (BurstingRateLimiter (Counted σ))} (h : Shaped b s) {k : ℕ}
    (hk : (b * k : ℕ) < s.held) : b * (k + 1) ≤ s.limiter.rateLimiter.successes := by
  have hgranted := h.granted
  have hnext {n : ℤ} (hdvd : (b : ℤ) ∣ n) (hlt : (b * k : ℕ) < n) : ((b * (k + 1) : ℕ) : ℤ) ≤ n := by
    obtain ⟨m, rfl⟩ := hdvd
    push_cast at hlt ⊢
    have hkm : (k : ℤ) < m := lt_of_mul_lt_mul_left hlt (Int.natCast_nonneg b)
    exact mul_le_mul_of_nonneg_left hkm (Int.natCast_nonneg b)
  cases hr : s.limiter.releasing with
  | true =>
    have := hnext (h.releasing hr).2.2 (by omega)
    omega
  | false =>
    have := hnext (h.filling hr).2 hk
    omega

end BurstingRateLimiter

/-- The bursting limiter over any wrapped limiter: what that granted is held by the caller or in
stock, the stock is at most a burst, a release right after an acquisition violates no assertion,
and the wrapped limiter is polled only between whole bursts, each of which was granted in full
before it starts. -/
theorem bursting_shape {σ : Type} [Limiter σ] (b : ℕ) (hb : 1 ≤ b) (l : σ) (t : ℤ) (cs : List Call)
    (s : Caller (BurstingRateLimiter (Counted σ)))
    (hr : Runs.exec (Caller.step Caller.justAcquired)
      { limiter := { rateLimiter := { limiter := l }, burstSize := b }, time := t } cs = some s) :
    (s.limiter.rateLimiter.successes : ℤ) = s.held + s.limiter.accumulated ∧
      s.limiter.accumulated ≤ b ∧ (s.limiter.releasing = true → 0 < s.limiter.accumulated) ∧
      (s.answer = some true → ∀ e, (s.limiter.releaseOne e).violations = []) ∧
      (∀ c s', s.step Caller.justAcquired c = some s' →
        s'.limiter.rateLimiter.polls ≠ s.limiter.rateLimiter.polls → (b : ℤ) ∣ s.held) ∧
      ∀ k : ℕ, (b * k : ℕ) < s.held → b * (k + 1) ≤ s.limiter.rateLimiter.successes := by
  have h : BurstingRateLimiter.Shaped b s :=
    Runs.exec_inv (fun _ _ _ => BurstingRateLimiter.step_shaped) (BurstingRateLimiter.init_shaped hb l t) hr
  refine ⟨h.granted, ?_, fun hr => (h.releasing hr).1, BurstingRateLimiter.releaseOne_clean_of_shaped h,
    fun _ _ => BurstingRateLimiter.polls_between_bursts h, fun _ => BurstingRateLimiter.granted_of_held h⟩
  cases hr : s.limiter.releasing with
  | true => exact (h.releasing hr).2.1
  | false => exact (h.filling hr).1.le

/-- A burst of two, the last of which is handed back. -/
def burstCalls : List Call :=
  [.tryAcquireOne [] 0, .tryAcquireOne [] 0, .tryAcquireOne [] 0, .releaseOne []]

theorem bursting_shape_last_released :
    ∃ s : Caller (BurstingRateLimiter (Counted Scripted)),
      Runs.exec (Caller.step Caller.justAcquired)
        { limiter := { rateLimiter := { limiter := ⟨[true, false, true]⟩ }, burstSize := 2 },
          time := 0 } burstCalls =
          some s ∧ s.held = 1 ∧ s.limiter.accumulated = 1 ∧
        (s.limiter.rateLimiter.successes : ℤ) = s.held + s.limiter.accumulated := by
  obtain ⟨s, hs, hheld, hacc⟩ : ∃ s : Caller (BurstingRateLimiter (Counted Scripted)),
      Runs.exec (Caller.step Caller.justAcquired)
        { limiter := { rateLimiter := { limiter := ⟨[true, false, true]⟩ }, burstSize := 2 },
          time := 0 } burstCalls =
          some s ∧ s.held = 1 ∧ s.limiter.accumulated = 1 := ⟨_, rfl, rfl, rfl⟩
  exact ⟨s, hs, hheld, hacc, (bursting_shape 2 (by decide) _ 0 burstCalls s hs).1⟩

end Nighthawk.RateLimiter

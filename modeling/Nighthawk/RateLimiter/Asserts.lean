import Nighthawk.RateLimiter.Ceiling

/-!
# The assertions of a stack

A limiter that only takes back what it has just handed out meets its own assertions. The jitter
limiter hands out from a queue, so the limiter below it may be given back something it handed out
long ago. A bursting limiter does not expect that.
-/

namespace Nighthawk.RateLimiter

/-! ## Without bursts under jitter -/

theorem scheduled_violations {l : ScheduledStartingRateLimiter LinearRateLimiter} {e : Env}
    (ho : Open l e.time) : (l.releaseOne e).violations = [] := by
  rw [ScheduledStartingRateLimiter.releaseOne_open ho]
  rfl

namespace BurstingRateLimiter

variable {σ : Type} [Limiter σ]

/-- A burst is never exceeded, and not complete while it is accumulated. -/
structure Bounded (b : BurstingRateLimiter σ) : Prop where
  size : 0 < b.burstSize
  le : b.accumulated ≤ b.burstSize
  lt : b.releasing = false → b.accumulated < b.burstSize

omit [Limiter σ] in
theorem drain_bounded {b : BurstingRateLimiter σ} (hb : b.Bounded) :
    b.drain.accumulated < b.drain.burstSize ∧ b.drain.previouslyReleasing = some true := by
  have := hb.size
  have := hb.le
  exact ⟨by simp only [drain]; omega, rfl⟩

theorem accumulate_bounded (fuel : ℕ) {b : BurstingRateLimiter σ} {e : Env} (hb : b.Bounded)
    (hr : b.releasing = false) {r : Bool} {b' : BurstingRateLimiter σ} {e' : Env}
    (h : accumulate fuel b e = (r, b', e')) :
    b'.accumulated < b'.burstSize ∧ b'.burstSize = b.burstSize ∧
      if r then b'.previouslyReleasing = some true else b'.previouslyReleasing = none := by
  induction fuel generalizing b e with
  | zero =>
    simp only [accumulate, Prod.mk.injEq] at h
    obtain ⟨rfl, rfl, rfl⟩ := h
    exact ⟨hb.lt hr, rfl, rfl⟩
  | succ fuel ih =>
    rcases hinner : Limiter.tryAcquireOne b.rateLimiter e with ⟨r₁, inner, e₁⟩
    simp only [accumulate, hinner] at h
    have hlt := hb.lt hr
    cases r₁ with
    | false =>
      simp only [Prod.mk.injEq] at h
      obtain ⟨rfl, rfl, rfl⟩ := h
      exact ⟨hlt, rfl, rfl⟩
    | true =>
      simp only at h
      split_ifs at h with hfull
      · simp only [Prod.mk.injEq] at h
        obtain ⟨rfl, rfl, rfl⟩ := h
        have := drain_bounded
          (b := { b with rateLimiter := inner, accumulated := b.accumulated + 1, releasing := true })
          ⟨hb.size, hlt, fun hr => by cases hr⟩
        exact ⟨this.1, rfl, this.2⟩
      · -- One more does not complete the burst, so it is still short of it.
        have hne : b.accumulated + 1 ≠ b.burstSize := by
          intro heq
          rw [heq, Nat.mod_self] at hfull
          exact hfull rfl
        exact ih (b := { b with rateLimiter := inner, accumulated := b.accumulated + 1 })
          ⟨hb.size, hlt, fun _ => by simp only; omega⟩ hr h

theorem tryAcquireOne_bounded {b : BurstingRateLimiter σ} {e : Env} (hb : b.Bounded) {r : Bool}
    {b' : BurstingRateLimiter σ} {e' : Env} (h : b.tryAcquireOne e = (r, b', e')) :
    b'.accumulated < b'.burstSize ∧ b'.burstSize = b.burstSize ∧
      if r then b'.previouslyReleasing = some true else b'.previouslyReleasing = none := by
  unfold tryAcquireOne at h
  split_ifs at h with hr
  · simp only [Prod.mk.injEq] at h
    obtain ⟨rfl, rfl, rfl⟩ := h
    exact ⟨(drain_bounded hb).1, rfl, (drain_bounded hb).2⟩
  · exact accumulate_bounded b.rounds (b := { b with previouslyReleasing := some false })
      ⟨hb.size, hb.le, hb.lt⟩ (by simpa using hr) h

omit [Limiter σ] in
theorem releaseOne_violations {b : BurstingRateLimiter σ} {e : Env} (hlt : b.accumulated < b.burstSize)
    (hp : b.previouslyReleasing = some true) : (b.releaseOne e).violations = [] := by
  simp [releaseOne, hlt, hp]

end BurstingRateLimiter

namespace Stack

/-- The stacks without bursts under jitter, with their bursts in bounds. -/
def Bounded : Stack → Prop
  | plain _ => True
  | bursting b => b.Bounded
  | jittered _ => True
  | burstingJittered _ => False

/-- A bursting limiter at the top expects to be given one back. -/
def Expecting : Stack → Prop
  | bursting b => b.accumulated < b.burstSize ∧ b.previouslyReleasing = some true
  | _ => True

theorem tryAcquireOne_bounded {s : Stack} {e : Env} (hs : s.Bounded) {r : Bool} {s' : Stack} {e' : Env}
    (h : s.tryAcquireOne e = (r, s', e')) : s'.Bounded ∧ (r = true → s'.Expecting) := by
  cases s with
  | plain l | jittered l =>
    simp only [tryAcquireOne, Prod.mk.injEq] at h
    obtain ⟨-, rfl, -⟩ := h
    exact ⟨trivial, fun _ => trivial⟩
  | burstingJittered l => exact absurd hs id
  | bursting b =>
    rcases htry : b.tryAcquireOne e with ⟨r₁, b', e₁⟩
    simp only [tryAcquireOne, htry, Prod.mk.injEq] at h
    obtain ⟨rfl, rfl, rfl⟩ := h
    obtain ⟨hlt, hsize, hprev⟩ := BurstingRateLimiter.tryAcquireOne_bounded hs htry
    refine ⟨⟨hsize ▸ hs.size, hlt.le, fun _ => hlt⟩, fun hr => ⟨hlt, ?_⟩⟩
    simpa [hr] using hprev

theorem releaseOne_bounded {s : Stack} {e : Env} (hs : s.Bounded) (hx : s.Expecting) (hp : s.paired = true)
    (ho : Open s e.time) : (s.releaseOne e).limiter.Bounded ∧ (s.releaseOne e).violations = [] := by
  cases s with
  | plain l => exact ⟨trivial, scheduled_violations (l := l) ho⟩
  | jittered l =>
    refine ⟨trivial, ?_⟩
    have hsanity : l.sanityCheckPendingRelease = false := by simpa [paired] using hp
    show (DelegatingRateLimiterImpl.releaseOne l e).violations = []
    unfold DelegatingRateLimiterImpl.releaseOne
    rw [if_neg (by simp [hsanity])]
    exact scheduled_violations (l := l.rateLimiter) ho
  | burstingJittered l => exact absurd hs id
  | bursting b =>
    exact ⟨⟨hs.size, hx.1, fun hr => by cases hr⟩,
      BurstingRateLimiter.releaseOne_violations (e := e) hx.1 hx.2⟩

end Stack

namespace Session

structure Safe (s : Session) : Prop where
  counted : s.Counted
  bounded : s.stack.Bounded
  expecting : s.mayRelease = true → s.stack.Expecting
  quiet : s.violations = []

theorem step_safe (s : Session) (c : Call) (t : Session) (hs : s.Safe) (h : s.step c = some t) : t.Safe := by
  have hcounted := (step_counted hs.counted h).1
  cases c with
  | tryAcquireOne gaps delay =>
    simp only [step, Option.ite_none_right_eq_some, Option.some.injEq] at h
    obtain ⟨-, rfl⟩ := h
    rcases htry : s.stack.tryAcquireOne ⟨s.time, gaps, delay⟩ with ⟨r, stack, e⟩
    obtain ⟨hbounded, hexpect⟩ := Stack.tryAcquireOne_bounded hs.bounded htry
    rw [htry] at hcounted
    exact ⟨hcounted, hbounded, hexpect, hs.quiet⟩
  | releaseOne gaps =>
    simp only [step, Option.ite_none_right_eq_some, Option.some.injEq] at h
    obtain ⟨⟨hmay, -⟩, rfl⟩ := h
    obtain ⟨hpaired, hopen⟩ := hs.counted.ready hmay
    obtain ⟨hbounded, hquiet⟩ :=
      Stack.releaseOne_bounded (e := ⟨s.time, gaps, 0⟩) hs.bounded (hs.expecting hmay)
      hpaired hopen
    exact ⟨hcounted, hbounded, fun hr => (by cases hr), by simp only [hs.quiet, hquiet, List.append_nil]⟩

end Session

/-! ## A clock that stands still -/

/-- The limiter leaves the clock alone when it stands still. -/
class Still (σ : Type) [Limiter σ] : Prop where
  still (s : σ) {e : Env} : e.gaps = [] → (Limiter.tryAcquireOne s e).2.2 = e

theorem monotonicTime_still {e : Env} (h : e.gaps = []) : e.monotonicTime = (e.time, e) := by
  unfold Env.monotonicTime
  rw [h]

instance : Still LinearRateLimiter where
  still l e h := by
    show (l.tryAcquireOne e).2.2 = e
    unfold LinearRateLimiter.tryAcquireOne LinearRateLimiter.elapsed
    rw [monotonicTime_still h]
    simp only
    split_ifs <;> rfl

instance {σ : Type} [Limiter σ] [Still σ] : Still (ScheduledStartingRateLimiter σ) where
  still s e h := by
    show (s.tryAcquireOne e).2.2 = e
    unfold ScheduledStartingRateLimiter.tryAcquireOne
    rw [monotonicTime_still h]
    simp only
    split_ifs
    · rfl
    · exact Still.still s.rateLimiter h

theorem BurstingRateLimiter.accumulate_still {σ : Type} [Limiter σ] [Still σ] (fuel : ℕ)
    (b : BurstingRateLimiter σ)
    {e : Env} (h : e.gaps = []) : (accumulate fuel b e).2.2 = e := by
  induction fuel generalizing b with
  | zero => rfl
  | succ fuel ih =>
    have hstill := Still.still b.rateLimiter h
    rcases hinner : Limiter.tryAcquireOne b.rateLimiter e with ⟨r, inner, e₁⟩
    rw [hinner] at hstill
    simp only at hstill
    subst hstill
    simp only [accumulate, hinner]
    cases r with
    | false => rfl
    | true =>
      simp only
      split_ifs
      · rfl
      · exact ih _

instance {σ : Type} [Limiter σ] [Still σ] : Still (BurstingRateLimiter σ) where
  still b e h := by
    show (b.tryAcquireOne e).2.2 = e
    unfold BurstingRateLimiter.tryAcquireOne
    split_ifs
    · rfl
    · exact BurstingRateLimiter.accumulate_still _ _ h

/-! ## Bursts under jitter -/

abbrev Burst := BurstingRateLimiter (ScheduledStartingRateLimiter LinearRateLimiter)

/-- A timing waits that is due once the clock has moved on by `gap`. -/
structure Session.Overdue (s : Session) (d : DelegatingRateLimiterImpl Burst) (gap : ℕ) : Prop where
  counted : s.Counted
  stack : s.stack = .burstingJittered d
  bounded : d.rateLimiter.Bounded
  waiting : d.distributedTimings ≠ []
  due : ∀ x ∈ d.distributedTimings, x ≤ s.time + gap

theorem poll_eq (d : DelegatingRateLimiterImpl Burst) (time : ℤ) (gap delay : ℕ) :
    d.tryAcquireOne ⟨time, [gap], delay⟩ =
      let now := time + gap
      let a := d.rateLimiter.tryAcquireOne ⟨now, [], delay⟩
      let d₁ := { d with rateLimiter := a.2.1 }
      let d₂ := if a.1 then d₁.insertTiming (now + delay) else d₁
      ((d₂.popDue now).1, (d₂.popDue now).2, ⟨now, [], delay⟩) := by
  have hstill : (d.rateLimiter.tryAcquireOne ⟨time + gap, [], delay⟩).2.2 = ⟨time + gap, [], delay⟩ :=
    Still.still d.rateLimiter rfl
  unfold DelegatingRateLimiterImpl.tryAcquireOne
  simp only [Env.monotonicTime]
  show (let a := d.rateLimiter.tryAcquireOne ⟨time + gap, [], delay⟩; _) = _
  simp only [Limiter.tryAcquireOne, hstill]

theorem popDue_of_due {d : DelegatingRateLimiterImpl Burst} {now : ℤ} (hne : d.distributedTimings ≠ [])
    (hdue : ∀ x ∈ d.distributedTimings, x ≤ now) :
    d.popDue now =
      (true, { d with distributedTimings := d.distributedTimings.tail, sanityCheckPendingRelease := false }) := by
  unfold DelegatingRateLimiterImpl.popDue
  rcases hq : d.distributedTimings with _ | ⟨front, rest⟩
  · exact absurd hq hne
  · simp only
    rw [if_pos (hdue front (by simp [hq]))]
    rfl

def poll (gap : ℕ) : Call := .tryAcquireOne [gap] 0

theorem step_burstingJittered {s : Session} {d : DelegatingRateLimiterImpl Burst} (hs : s.Counted)
    (hstack : s.stack = .burstingJittered d) (gap : ℕ) {delay : ℕ} (hdelay : delay ≤ s.maxDelay) :
    let r := d.tryAcquireOne ⟨s.time, [gap], delay⟩
    s.step (.tryAcquireOne [gap] delay) = some { s with
      stack := .burstingJittered r.2.1, time := r.2.2.time, mayRelease := r.1
      polledAt := s.polledAt ++ [r.2.2.time]
      acquiredAt := if r.1 then s.acquiredAt ++ [r.2.2.time] else s.acquiredAt } := by
  unfold Session.step
  simp only
  rw [if_pos ⟨hdelay, hs.clean⟩, hstack]
  rfl

theorem release_violates {s : Session} {b : Burst} {rest : List ℤ} (hmay : s.mayRelease = true)
    (hclean : ∀ v ∈ s.violations, v.fatal = false) (hstack : s.stack = .burstingJittered ⟨b, rest, false⟩)
    (hprev : b.previouslyReleasing = none) : ∃ u, s.step (.releaseOne []) = some u ∧ u.violations ≠ [] := by
  unfold Session.step
  simp only
  rw [if_pos ⟨hmay, hclean⟩]
  refine ⟨_, rfl, ?_⟩
  simp [hstack, Stack.releaseOne, DelegatingRateLimiterImpl.releaseOne, Limiter.releaseOne,
    BurstingRateLimiter.releaseOne, hprev]

/-- One poll of an overdue session: the bursting limiter grants one more, or a timing that is due
is handed out although it refused. -/
theorem poll_spec {s : Session} {d : DelegatingRateLimiterImpl Burst} {gap : ℕ} (hs : s.Overdue d gap) :
    ∃ t, s.step (poll gap) = some t ∧ t.time = s.time + gap ∧
      ((∃ d', t.Overdue d' 0 ∧ net d'.rateLimiter = net d.rateLimiter + 1) ∨
        ∃ u, t.step (.releaseOne []) = some u ∧ u.violations ≠ []) := by
  have hpoll := step_burstingJittered hs.counted hs.stack gap (Nat.zero_le s.maxDelay)
  have hvalid : d.Queued s.time := by
    have := hs.counted.valid
    rwa [hs.stack] at this
  rcases htry : d.rateLimiter.tryAcquireOne ⟨s.time + gap, [], 0⟩ with ⟨r, b, e⟩
  obtain ⟨hlt, hsize, hprev⟩ := BurstingRateLimiter.tryAcquireOne_bounded hs.bounded htry
  cases r with
  | false =>
    have hpop := popDue_of_due (d := { d with rateLimiter := b }) hs.waiting hs.due
    simp only [poll_eq, htry, Bool.false_eq_true, if_false, hpop, if_true] at hpoll
    exact ⟨_, hpoll, rfl, .inr (release_violates rfl hs.counted.clean rfl (by simpa using hprev))⟩
  | true =>
    have hmem : ∀ x ∈ d.distributedTimings.orderedInsert (· < ·) (s.time + gap), x ≤ s.time + gap := by
      intro x hx
      rw [List.mem_orderedInsert] at hx
      rcases hx with rfl | hx
      · exact le_rfl
      · exact hs.due x hx
    have hlen : (d.distributedTimings.orderedInsert (· < ·) (s.time + gap)).length =
        d.distributedTimings.length + 1 :=
      List.orderedInsert_length ..
    have hpos : 0 < d.distributedTimings.length := List.length_pos_iff.mpr hs.waiting
    have hpop := popDue_of_due (d := { d with rateLimiter := b }.insertTiming (s.time + gap))
      (List.ne_nil_of_length_pos (by simp only [DelegatingRateLimiterImpl.insertTiming]; omega)) hmem
    simp only [poll_eq, htry, if_true, Nat.cast_zero, add_zero, hpop] at hpoll
    refine ⟨_, hpoll, rfl, .inl ⟨_, ⟨(Session.step_counted hs.counted hpoll).1, rfl, ?_, ?_, ?_⟩, ?_⟩⟩
    · exact ⟨hsize ▸ hs.bounded.size, hlt.le, fun _ => hlt⟩
    · refine List.ne_nil_of_length_pos ?_
      simp only [DelegatingRateLimiterImpl.insertTiming, List.length_tail]
      omega
    · intro x hx
      simpa using hmem x (List.mem_of_mem_tail hx)
    · have htried := LawfulMeter.try_spec (s := d.rateLimiter) (e := ⟨s.time + gap, [], 0⟩)
        (LawfulMeter.valid_mono hvalid.inner (by simp only; omega)) htry
      exact htried.net

theorem overdue_net_le {s : Session} {d : DelegatingRateLimiterImpl Burst} {gap : ℕ} (hs : s.Overdue d gap) :
    net d.rateLimiter ≤ (bottom s.stack).ceiling s.time := by
  have hvalid := hs.counted.valid
  rw [hs.stack] at hvalid ⊢
  exact LawfulMeter.net_le hvalid.inner

theorem ceiling_fixed {s t : Stack} (h : Fixed s t) {start : ℤ}
    (hstart : (bottom s).startTime = some start) (u : ℤ) :
    (bottom t).ceiling u = (bottom s).ceiling u := by
  unfold LinearRateLimiter.ceiling
  rw [hstart, h.startTime start hstart, h.frequency]

/-- The bursting limiter cannot grant for ever at one time, so polling comes to a violation. -/
theorem polls_violate (n : ℕ) {s : Session} {d : DelegatingRateLimiterImpl Burst} {gap : ℕ}
    (hs : s.Overdue d gap)
    {start : ℤ} (hstart : (bottom s.stack).startTime = some start)
    (hn : (bottom s.stack).ceiling (s.time + gap) ≤ net d.rateLimiter + n) :
    ∃ cs u, Runs.exec Session.step s cs = some u ∧ u.violations ≠ [] := by
  induction n generalizing s d gap with
  | zero =>
    obtain ⟨t, ht, htime, ⟨d', hover, hnet⟩ | ⟨u, hu, hviol⟩⟩ := poll_spec hs
    · -- One more than the ceiling.
      have hle := overdue_net_le hover
      rw [ceiling_fixed (Session.step_counted hs.counted ht).2 hstart, htime] at hle
      omega
    · exact ⟨[poll gap, .releaseOne []], u, by simp [Runs.exec, ht, hu], hviol⟩
  | succ n ih =>
    obtain ⟨t, ht, htime, ⟨d', hover, hnet⟩ | ⟨u, hu, hviol⟩⟩ := poll_spec hs
    · have hfixed := (Session.step_counted hs.counted ht).2
      obtain ⟨cs, u, hu, hviol⟩ := ih hover (hfixed.startTime start hstart) (by
        rw [ceiling_fixed hfixed hstart, htime, hnet, Nat.cast_zero, add_zero]
        push_cast at hn
        omega)
      exact ⟨poll gap :: cs, u, (Runs.exec_cons_eq_some _).mpr ⟨t, ht, hu⟩, hviol⟩
    · exact ⟨[poll gap, .releaseOne []], u, by simp [Runs.exec, ht, hu], hviol⟩

/-! ## Getting there -/

theorem LinearRateLimiter.ceiling_le_of_refused {l l' : LinearRateLimiter} {e e' : Env}
    (h : l.tryAcquireOne e = (false, l', e')) : l'.ceiling e'.time ≤ l'.acquiredCount := by
  obtain ⟨-, htime⟩ := monotonicTime_spec e
  unfold tryAcquireOne elapsed at h
  simp only at h
  split_ifs at h with hpos hdue
  · cases (Prod.mk.inj h).1
  · cases (Prod.mk.inj h).1
  · simp only [Prod.mk.injEq, true_and] at h
    obtain ⟨rfl, rfl⟩ := h
    simp only [ceiling, htime]
    omega

theorem ScheduledStartingRateLimiter.scheduledStartingTime_kept {σ : Type} [Limiter σ]
    (s : ScheduledStartingRateLimiter σ) (e : Env) :
    (s.tryAcquireOne e).2.1.scheduledStartingTime = s.scheduledStartingTime := by
  unfold tryAcquireOne
  simp only
  split_ifs <;> rfl

theorem scheduled_refused {l l' : ScheduledStartingRateLimiter LinearRateLimiter} {e e' : Env}
    (hstart : l.scheduledStartingTime ≤ e.time) (h : l.tryAcquireOne e = (false, l', e')) :
    (bottom l').ceiling e'.time ≤ net l' := by
  obtain ⟨hle, -⟩ := monotonicTime_spec e
  unfold ScheduledStartingRateLimiter.tryAcquireOne at h
  simp only at h
  rw [if_neg (by omega)] at h
  rcases hinner : Limiter.tryAcquireOne l.rateLimiter e.monotonicTime.2 with ⟨r, inner, e₁⟩
  simp only [hinner, Prod.mk.injEq] at h
  obtain ⟨rfl, rfl, rfl⟩ := h
  exact LinearRateLimiter.ceiling_le_of_refused hinner

namespace BurstingRateLimiter

theorem accumulate_refused (fuel : ℕ) {b b' : Burst} {e e' : Env} (hsize : 0 < b.burstSize)
    (hfuel : b.rounds ≤ fuel)
    (hgaps : e.gaps = []) (hstart : b.rateLimiter.scheduledStartingTime ≤ e.time)
    (h : accumulate fuel b e = (false, b', e')) : (bottom b').ceiling e.time ≤ net b'.rateLimiter := by
  induction fuel generalizing b with
  | zero =>
    have := Nat.mod_lt b.accumulated hsize
    unfold rounds at hfuel
    omega
  | succ fuel ih =>
    rcases hinner : Limiter.tryAcquireOne b.rateLimiter e with ⟨r, inner, e₁⟩
    have hstill : e₁ = e := by
      have := Still.still b.rateLimiter hgaps
      rwa [hinner] at this
    subst hstill
    simp only [accumulate, hinner] at h
    cases r with
    | false =>
      simp only [Prod.mk.injEq, true_and] at h
      obtain ⟨rfl, rfl⟩ := h
      exact scheduled_refused hstart hinner
    | true =>
      simp only at h
      split_ifs at h with hfull
      · cases (Prod.mk.inj h).1
      · have hrounds := rounds_succ hsize inner hfull
        have hkeep : inner.scheduledStartingTime = b.rateLimiter.scheduledStartingTime := by
          have := ScheduledStartingRateLimiter.scheduledStartingTime_kept b.rateLimiter e₁
          rwa [show b.rateLimiter.tryAcquireOne e₁ = _ from hinner] at this
        exact ih (b := { b with rateLimiter := inner, accumulated := b.accumulated + 1 }) hsize (by omega)
          (by simp only [hkeep]; exact hstart) h

end BurstingRateLimiter

section

variable {requestsPerSecond burstSize : ℕ} (hrps : 0 < requestsPerSecond) (hburst : 0 < burstSize) (start : ℤ)

/-- The bursting limiter after its linear limiter was first polled. -/
def polledBurst (requestsPerSecond burstSize : ℕ) (start now : ℤ) : Burst where
  rateLimiter := ⟨{ frequency := ⟨requestsPerSecond⟩, startTime := some now }, start, true⟩
  burstSize := burstSize

include hrps hburst in
theorem first_poll {now : ℤ} (hnow : start ≤ now) (delay : ℕ) :
    BurstingRateLimiter.tryAcquireOne
        { rateLimiter := ⟨{ frequency := ⟨requestsPerSecond⟩ }, start, false⟩, burstSize := burstSize }
        ⟨now, [], delay⟩ =
      (false, polledBurst requestsPerSecond burstSize start now, ⟨now, [], delay⟩) := by
  obtain ⟨k, rfl⟩ : ∃ k, burstSize = k + 1 := ⟨burstSize - 1, by omega⟩
  have hdue : LinearRateLimiter.due ⟨requestsPerSecond⟩ 0 = 0 := LinearRateLimiter.due_zero _ hrps
  have hnot : ¬ now < start := by omega
  simp [BurstingRateLimiter.tryAcquireOne, BurstingRateLimiter.rounds, BurstingRateLimiter.accumulate,
    Limiter.tryAcquireOne, ScheduledStartingRateLimiter.tryAcquireOne, LinearRateLimiter.tryAcquireOne,
    LinearRateLimiter.elapsed, Env.monotonicTime, hdue, hnot, polledBurst]

include hrps in
theorem burst_le_due :
    (burstSize : ℤ) ≤ LinearRateLimiter.due ⟨requestsPerSecond⟩ (burstSize * 10 ^ 9 : ℕ) := by
  rw [LinearRateLimiter.due_eq _ hrps, Int.le_floor]
  have hone : (1 : ℚ) ≤ requestsPerSecond := by exact_mod_cast hrps
  have hpos : (0 : ℚ) ≤ burstSize := Nat.cast_nonneg _
  push_cast
  rw [mul_div_assoc, show (1000000000 : ℚ) / 10 ^ 9 = 1 by norm_num, mul_one]
  nlinarith

include hrps hburst in
theorem polledBurst_stocked {now t : ℤ} (h : now ≤ t) :
    (polledBurst requestsPerSecond burstSize start now).Stocked t := by
  refine ⟨LinearRateLimiter.within_mono (t := now) ⟨hrps, ?_, ?_⟩ h, hburst, fun hr => (by cases hr),
    fun hr => (by cases hr)⟩
  all_goals
    show (0 : ℤ) ≤ LinearRateLimiter.due ⟨requestsPerSecond⟩ (now - now)
    rw [sub_self, LinearRateLimiter.due_zero _ hrps]

include hrps hburst in
theorem second_poll {now : ℤ} (hnow : start ≤ now) (delay : ℕ) :
    ((polledBurst requestsPerSecond burstSize start now).tryAcquireOne
      ⟨now + (burstSize * 10 ^ 9 : ℕ), [], delay⟩).1 = true := by
  rcases htry : (polledBurst requestsPerSecond burstSize start now).tryAcquireOne
    ⟨now + (burstSize * 10 ^ 9 : ℕ), [], delay⟩ with ⟨r, b, e'⟩
  cases r with
  | true => rfl
  | false =>
    exfalso
    have htried := BurstingRateLimiter.tryAcquireOne_spec
      (polledBurst_stocked hrps hburst start (by simp only; omega)) htry
    obtain ⟨hlt, hsize, -⟩ :=
      BurstingRateLimiter.tryAcquireOne_bounded (b := polledBurst requestsPerSecond burstSize start now)
      ⟨hburst, Nat.zero_le _, fun _ => hburst⟩ htry
    have hrefused : (bottom b).ceiling (now + (burstSize * 10 ^ 9 : ℕ)) ≤ net b.rateLimiter :=
      BurstingRateLimiter.accumulate_refused
        (b := { polledBurst requestsPerSecond burstSize start now with previouslyReleasing := some false })
        (e := ⟨now + (burstSize * 10 ^ 9 : ℕ), [], delay⟩) _ hburst le_rfl rfl
        (by simp only [polledBurst]; omega) htry
    -- All that was granted is in stock, and the stock is short of a burst.
    have hnet : net b.rateLimiter - (b.accumulated : ℤ) = 0 := htried.net
    have hdue : (burstSize : ℤ) ≤ LinearRateLimiter.due ⟨requestsPerSecond⟩ (burstSize * 10 ^ 9 : ℕ) :=
      burst_le_due hrps
    unfold LinearRateLimiter.ceiling at hrefused
    rw [htried.fixed.startTime now rfl, htried.fixed.frequency] at hrefused
    simp only [add_sub_cancel_left] at hrefused
    have hsize : b.burstSize = burstSize := hsize
    have : LinearRateLimiter.due ⟨requestsPerSecond⟩ (burstSize * 10 ^ 9 : ℕ) ≤ net b.rateLimiter := hrefused
    omega

end

/-- A burst is completed with a delay, so that its first acquisition waits in the queue. -/
theorem reaches_overdue {requestsPerSecond burstSize : ℕ} (hrps : 0 < requestsPerSecond)
    (hburst : 0 < burstSize)
    {jitterUniform start : ℤ} {stack : Stack} (hjitter : 0 < jitterUniform)
    (hcreate : create requestsPerSecond burstSize jitterUniform start = .ok stack) (time : ℤ) :
    ∃ cs s d now, Runs.exec Session.step { stack := stack, time := time, maxDelay := jitterUniform.toNat } cs = some s ∧
      s.Overdue d 1 ∧ (bottom s.stack).startTime = some now := by
  have hinit := counted_init hcreate time jitterUniform.toNat
  obtain ⟨gap, hgap⟩ : ∃ gap : ℕ, start ≤ time + gap := ⟨(start - time).toNat, by omega⟩
  have hstack : stack = .burstingJittered { rateLimiter :=
      { rateLimiter := ⟨{ frequency := ⟨requestsPerSecond⟩ }, start, false⟩, burstSize := burstSize } } := by
    simp only [create, Nat.ne_of_gt hrps, Nat.ne_of_gt hburst, if_false, hjitter, if_true,
      Except.ok.injEq] at hcreate
    exact hcreate.symm
  have hfirst := step_burstingJittered hinit hstack gap (Nat.zero_le _)
  simp only [poll_eq, first_poll hrps hburst start hgap, Bool.false_eq_true, if_false,
    DelegatingRateLimiterImpl.popDue] at hfirst
  have hcounted := (Session.step_counted hinit hfirst).1
  have hsecond := step_burstingJittered hcounted rfl (burstSize * 10 ^ 9)
    (show 1 ≤ jitterUniform.toNat by omega)
  have hgrant := second_poll hrps hburst start hgap 1
  simp only [poll_eq, hgrant, if_true, DelegatingRateLimiterImpl.insertTiming, List.orderedInsert,
    DelegatingRateLimiterImpl.popDue] at hsecond
  rw [if_neg (by push_cast; omega)] at hsecond
  simp only [Bool.false_eq_true, if_false] at hsecond
  obtain ⟨hcounted', hfixed⟩ := Session.step_counted hcounted hsecond
  refine ⟨[.tryAcquireOne [gap] 0, .tryAcquireOne [burstSize * 10 ^ 9] 1], _, _, time + gap, ?_,
    ⟨hcounted', rfl, ?_, by simp, by simp⟩, hfixed.startTime _ rfl⟩
  · simp only [Runs.exec_cons_eq_some]
    exact ⟨_, hfirst, _, hsecond, rfl⟩
  · obtain ⟨hlt, hsize, -⟩ := BurstingRateLimiter.tryAcquireOne_bounded
      (b := polledBurst requestsPerSecond burstSize start (time + gap))
        ⟨hburst, Nat.zero_le _, fun _ => hburst⟩
      (e := ⟨time + gap + (burstSize * 10 ^ 9 : ℕ), [], 1⟩) rfl
    exact ⟨hsize ▸ hburst, hlt.le, fun _ => hlt⟩

/-- No assertion of a sequencer's stack can be violated exactly when it does not have bursts under
jitter. -/
theorem assertions_hold_iff {requestsPerSecond burstSize : ℕ} {jitterUniform start : ℤ} {stack : Stack}
    (hcreate : create requestsPerSecond burstSize jitterUniform start = .ok stack) (time : ℤ) :
    (∀ cs s, Runs.exec Session.step { stack := stack, time := time, maxDelay := jitterUniform.toNat } cs = some s →
      s.violations = []) ↔ burstSize = 0 ∨ jitterUniform ≤ 0 := by
  have hinit := counted_init hcreate time jitterUniform.toNat
  have hrps := create_positive hcreate
  constructor
  · intro hsafe
    by_contra hboth
    simp only [not_or, not_le] at hboth
    have hburst : 0 < burstSize := Nat.pos_of_ne_zero hboth.1
    obtain ⟨cs, s, d, now, hrun, hover, hstart⟩ := reaches_overdue hrps hburst hboth.2 hcreate time
    obtain ⟨cs', u, hrun', hviol⟩ := polls_violate
      ((bottom s.stack).ceiling (s.time + (1 : ℕ)) - net d.rateLimiter).toNat hover hstart (by omega)
    exact hviol (hsafe (cs ++ cs') u ((Runs.exec_append_eq_some _).mpr ⟨s, hrun, hrun'⟩))
  · intro hconfig cs s hrun
    have hbounded : stack.Bounded := by
      unfold create at hcreate
      split_ifs at hcreate with _ hburst hjitter hjitter
      all_goals cases hcreate
      · trivial
      · trivial
      · exact absurd hconfig (by omega)
      · exact ⟨Nat.pos_of_ne_zero hburst, Nat.zero_le _, fun _ => Nat.pos_of_ne_zero hburst⟩
    have hsafe : Session.Safe { stack := stack, time := time, maxDelay := jitterUniform.toNat } :=
      ⟨hinit, hbounded, fun hr => (by cases hr), rfl⟩
    exact (Runs.exec_inv Session.step_safe hsafe hrun).quiet

theorem assertions_hold_bursting :
    ∃ stack, create 10 2 0 0 = .ok stack ∧
      ∀ cs s, Runs.exec Session.step { stack := stack, time := 0, maxDelay := 0 } cs = some s →
        s.violations = [] := by
  obtain ⟨stack, hstack⟩ : ∃ stack, create 10 2 0 0 = .ok stack := ⟨_, rfl⟩
  exact ⟨stack, hstack, (assertions_hold_iff hstack 0).mpr (.inr le_rfl)⟩

/-- The second poll fills the queue, the third is refused below and answered from the queue. -/
def delayedRun : List Call :=
  [.tryAcquireOne [0] 0, .tryAcquireOne [1000000000] 1, .tryAcquireOne [1] 0, .releaseOne []]

theorem delayed_burst_violates :
    ∃ stack s, create 1 1 1000 0 = .ok stack ∧
      Runs.exec Session.step { stack := stack, time := 0, maxDelay := 1000 } delayedRun = some s ∧
      s.violations = [.assert "previously_releasing_ != std::nullopt && previously_releasing_ == true"] := by
  obtain ⟨stack, hstack⟩ : ∃ stack, create 1 1 1000 0 = .ok stack := ⟨_, rfl⟩
  have hmap : (Runs.exec Session.step { stack := stack, time := 0, maxDelay := 1000 } delayedRun).map
      Session.violations =
        some [.assert "previously_releasing_ != std::nullopt && previously_releasing_ == true"] := by
    cases hstack
    decide +kernel
  obtain ⟨s, hrun, hs⟩ := Option.map_eq_some_iff.mp hmap
  exact ⟨stack, s, hstack, hrun, hs⟩

end Nighthawk.RateLimiter

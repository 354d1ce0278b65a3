import Nighthawk.Lib.Runs
import Nighthawk.RateLimiter.Start

/-!
# The rate ceiling

However a sequencer's stack is put together and called, it never has more acquisitions out than its
linear limiter could have granted since it was first polled, and none before the start.
-/

namespace Nighthawk.RateLimiter

namespace Stack

instance : Meter Stack where
  bottom
    | plain l => bottom l
    | bursting l => bottom l
    | jittered l => bottom l
    | burstingJittered l => bottom l
  starts
    | plain l => starts l
    | bursting l => starts l
    | jittered l => starts l
    | burstingJittered l => starts l
  net
    | plain l => net l
    | bursting l => net l
    | jittered l => net l
    | burstingJittered l => net l
  Valid
    | plain l, t => Valid l t
    | bursting l, t => Valid l t
    | jittered l, t => Valid l t
    | burstingJittered l, t => Valid l t

theorem tried_of {σ : Type} [Meter σ] (f : σ → Stack) (hb : ∀ l, bottom (f l) = bottom l)
    (hs : ∀ l, starts (f l) = starts l) (hn : ∀ l, net (f l) = net l) (hv : ∀ l t, Valid (f l) t ↔ Valid l t)
    {l l' : σ} {e e' : Env} {r : Bool} (h : Tried l e r l' e') : Tried (f l) e r (f l') e' where
  later := h.later
  fixed := ⟨by rw [hs, hs,
    h.fixed.starts], by rw [hb, hb, h.fixed.frequency], by rw [hb, hb]; exact h.fixed.startTime⟩
  valid := (hv _ _).mpr h.valid
  net := by rw [hn, hn, h.net]
  opened hr := by unfold Open; rw [hs]; exact h.opened hr

theorem givenBack_of {σ : Type} [Meter σ] (f : σ → Stack) (hb : ∀ l, bottom (f l) = bottom l)
    (hs : ∀ l, starts (f l) = starts l) (hn : ∀ l, net (f l) = net l) (hv : ∀ l t, Valid (f l) t ↔ Valid l t)
    {l l' : σ} {e e' : Env} (h : GivenBack l e l' e') : GivenBack (f l) e (f l') e' where
  later := h.later
  fixed := ⟨by rw [hs, hs,
    h.fixed.starts], by rw [hb, hb, h.fixed.frequency], by rw [hb, hb]; exact h.fixed.startTime⟩
  valid := (hv _ _).mpr h.valid
  net := by rw [hn, hn, h.net]

theorem tryAcquireOne_spec {s : Stack} {e : Env} (hs : Valid s e.time) {r : Bool} {s' : Stack} {e' : Env}
    (h : s.tryAcquireOne e = (r, s', e')) : Tried s e r s' e' := by
  cases s with
  | plain l =>
    simp only [tryAcquireOne, Prod.mk.injEq] at h
    obtain ⟨rfl, rfl, rfl⟩ := h
    exact tried_of plain (fun _ => rfl) (fun _ => rfl) (fun _ => rfl) (fun _ _ => Iff.rfl)
      (LawfulMeter.try_spec (s := l) hs rfl)
  | bursting l =>
    simp only [tryAcquireOne, Prod.mk.injEq] at h
    obtain ⟨rfl, rfl, rfl⟩ := h
    exact tried_of bursting (fun _ => rfl) (fun _ => rfl) (fun _ => rfl) (fun _ _ => Iff.rfl)
      (LawfulMeter.try_spec (s := l) hs rfl)
  | jittered l =>
    simp only [tryAcquireOne, Prod.mk.injEq] at h
    obtain ⟨rfl, rfl, rfl⟩ := h
    exact tried_of jittered (fun _ => rfl) (fun _ => rfl) (fun _ => rfl) (fun _ _ => Iff.rfl)
      (LawfulMeter.try_spec (s := l) hs rfl)
  | burstingJittered l =>
    simp only [tryAcquireOne, Prod.mk.injEq] at h
    obtain ⟨rfl, rfl, rfl⟩ := h
    exact tried_of burstingJittered (fun _ => rfl) (fun _ => rfl) (fun _ => rfl) (fun _ _ => Iff.rfl)
      (LawfulMeter.try_spec (s := l) hs rfl)

theorem releaseOne_spec {s : Stack} {e : Env} (hs : Valid s e.time) (ho : Open s e.time)
    (hc : Clean (s.releaseOne e)) : GivenBack s e (s.releaseOne e).limiter (s.releaseOne e).env := by
  cases s with
  | plain l =>
    exact givenBack_of plain (fun _ => rfl) (fun _ => rfl) (fun _ => rfl) (fun _ _ => Iff.rfl)
      (LawfulMeter.release_spec (s := l) hs ho hc)
  | bursting l =>
    exact givenBack_of bursting (fun _ => rfl) (fun _ => rfl) (fun _ => rfl) (fun _ _ => Iff.rfl)
      (LawfulMeter.release_spec (s := l) hs ho hc)
  | jittered l =>
    exact givenBack_of jittered (fun _ => rfl) (fun _ => rfl) (fun _ => rfl) (fun _ _ => Iff.rfl)
      (LawfulMeter.release_spec (s := l) hs ho hc)
  | burstingJittered l =>
    exact givenBack_of burstingJittered (fun _ => rfl) (fun _ => rfl) (fun _ => rfl) (fun _ _ => Iff.rfl)
      (LawfulMeter.release_spec (s := l) hs ho hc)

instance : LawfulMeter Stack where
  valid_mono {s _ _} hs h := by
    cases s with
    | plain l => exact LawfulMeter.valid_mono (s := l) hs h
    | bursting l => exact LawfulMeter.valid_mono (s := l) hs h
    | jittered l => exact LawfulMeter.valid_mono (s := l) hs h
    | burstingJittered l => exact LawfulMeter.valid_mono (s := l) hs h
  net_le {s _} hs := by
    cases s with
    | plain l => exact LawfulMeter.net_le (s := l) hs
    | bursting l => exact LawfulMeter.net_le (s := l) hs
    | jittered l => exact LawfulMeter.net_le (s := l) hs
    | burstingJittered l => exact LawfulMeter.net_le (s := l) hs
  try_spec hs h := tryAcquireOne_spec hs h
  release_spec hs ho hc := releaseOne_spec hs ho hc

instance : Starting Stack where
  Dormant
    | plain l => Dormant l
    | bursting l => Dormant l
    | jittered l => Dormant l
    | burstingJittered l => Dormant l
  startTime_eq {s} h := by
    cases s with
    | plain l => exact Starting.startTime_eq (s := l) h
    | bursting l => exact Starting.startTime_eq (s := l) h
    | jittered l => exact Starting.startTime_eq (s := l) h
    | burstingJittered l => exact Starting.startTime_eq (s := l) h
  try_spec {s e r s' e'} h hcall := by
    cases s with
    | plain l =>
      cases hcall
      exact Starting.try_spec (s := l) h rfl
    | bursting l =>
      cases hcall
      exact Starting.try_spec (s := l) h rfl
    | jittered l =>
      cases hcall
      exact Starting.try_spec (s := l) h rfl
    | burstingJittered l =>
      cases hcall
      exact Starting.try_spec (s := l) h rfl

/-- The jitter limiter is not waiting for a successful call. -/
def paired : Stack → Bool
  | jittered l => !l.sanityCheckPendingRelease
  | burstingJittered l => !l.sanityCheckPendingRelease
  | _ => true

end Stack

theorem DelegatingRateLimiterImpl.sanity_of_popDue {σ : Type} {d : DelegatingRateLimiterImpl σ} {now : ℤ}
    (h : (d.popDue now).1 = true) : (d.popDue now).2.sanityCheckPendingRelease = false := by
  unfold popDue at h ⊢
  split at h
  · cases h
  · split_ifs at h ⊢
    rfl

namespace Stack

theorem paired_of_success {s s' : Stack} {e e' : Env} (h : s.tryAcquireOne e = (true, s', e')) :
    s'.paired = true := by
  cases s with
  | plain l | bursting l =>
    simp only [tryAcquireOne, Prod.mk.injEq] at h
    obtain ⟨-, rfl, -⟩ := h
    rfl
  | jittered l | burstingJittered l =>
    simp only [tryAcquireOne, Prod.mk.injEq] at h
    obtain ⟨hr, rfl, -⟩ := h
    simp only [paired, Bool.not_eq_true']
    exact DelegatingRateLimiterImpl.sanity_of_popDue hr

theorem releaseOne_clean {s : Stack} {e : Env} (hp : s.paired = true) (ho : Open s e.time) :
    Clean (s.releaseOne e) := by
  cases s with
  | plain l => exact Steady.clean (s := l) ho
  | bursting l => exact Steady.clean (s := l) ho
  | jittered l | burstingJittered l =>
    have hsanity : l.sanityCheckPendingRelease = false := by simpa [paired] using hp
    show Clean (DelegatingRateLimiterImpl.releaseOne l e)
    unfold DelegatingRateLimiterImpl.releaseOne
    rw [if_neg (by simp [hsanity])]
    exact Steady.clean (s := l.rateLimiter) ho

end Stack

/-! ## Runs -/

/-- The linear limiter was not polled yet, or it counts from the first poll that reached it. -/
def Session.Begun (s : Session) : Prop :=
  ∀ start, starts s.stack = [start] →
    (Dormant s.stack ∧ s.mayRelease = false ∧ s.firstPoll start = none) ∨
      ∃ t, (bottom s.stack).startTime = some t ∧ s.firstPoll start = some t

/-- The acquisitions handed out in a session are those that its stack counts. -/
structure Session.Counted (s : Session) : Prop where
  valid : Valid s.stack s.time
  count : net s.stack = s.acquiredAt.length - s.released
  ready : s.mayRelease = true → s.stack.paired = true ∧ Open s.stack s.time
  clean : ∀ v ∈ s.violations, v.fatal = false
  started : ∀ u ∈ s.acquiredAt, Open s.stack u
  begun : s.Begun

theorem open_singleton {σ : Type} [Meter σ] {s : σ} {start : ℤ} (h : starts s = [start]) (t : ℤ) :
    Open s t ↔ start ≤ t := by
  unfold Open
  rw [h]
  exact List.forall_mem_singleton

namespace Session

theorem Begun.startTime_eq {s : Session} (h : s.Begun) {start : ℤ} (hstarts : starts s.stack = [start]) :
    (bottom s.stack).startTime = s.firstPoll start := by
  rcases h start hstarts with ⟨hdormant, -, hnone⟩ | ⟨t, hstart, hfirst⟩
  · rw [hnone]
    exact Starting.startTime_eq hdormant
  · rw [hstart, hfirst]

theorem tryAcquireOne_begun {s : Session} (hs : s.Begun) {gaps : List ℕ} {delay : ℕ} {r : Bool}
    {stack : Stack} {e : Env}
    (htry : s.stack.tryAcquireOne ⟨s.time, gaps, delay⟩ = (r, stack, e)) (hfixed : Fixed s.stack stack)
    (acquiredAt : List ℤ) :
    Begun { s with
      stack := stack, time := e.time, mayRelease := r, polledAt := s.polledAt ++ [e.time], acquiredAt } := by
  intro start hstarts
  rw [show starts stack = starts s.stack from hfixed.starts] at hstarts
  rcases hs start hstarts with ⟨hdormant, -, hnone⟩ | ⟨t, hstart, hfirst⟩
  · obtain ⟨hr, -, hcases⟩ := Starting.try_spec hdormant htry
    rw [open_singleton hstarts] at hcases
    unfold firstPoll at hnone ⊢
    rw [List.find?_append, hnone, Option.none_or]
    rcases hcases with ⟨hdormant, hclosed⟩ | ⟨hstart, hopen⟩
    · exact Or.inl ⟨hdormant, hr, by simpa using hclosed⟩
    · exact Or.inr ⟨e.time, hstart, by simpa using hopen⟩
  · refine Or.inr ⟨t, hfixed.startTime t hstart, ?_⟩
    unfold firstPoll at hfirst ⊢
    rw [List.find?_append, hfirst, Option.some_or]

theorem releaseOne_begun {s : Session} (hs : s.Begun) (hmay : s.mayRelease = true) {stack : Stack}
    (hfixed : Fixed s.stack stack) (time : ℤ) (released : ℕ) (violations : List Violation) :
    Begun { s with stack := stack, time, mayRelease := false, released, violations } := by
  intro start hstarts
  rw [show starts stack = starts s.stack from hfixed.starts] at hstarts
  rcases hs start hstarts with ⟨-, hnot, -⟩ | ⟨t, hstart, hfirst⟩
  · rw [hmay] at hnot
    cases hnot
  · exact Or.inr ⟨t, hfixed.startTime t hstart, hfirst⟩

theorem tryAcquireOne_counted {s : Session} (hs : s.Counted) {gaps : List ℕ} {delay : ℕ} {t : Session}
    (h : s.step (.tryAcquireOne gaps delay) = some t) : t.Counted ∧ Fixed s.stack t.stack := by
  simp only [step, Option.ite_none_right_eq_some, Option.some.injEq] at h
  obtain ⟨-, rfl⟩ := h
  rcases htry : s.stack.tryAcquireOne ⟨s.time, gaps, delay⟩ with ⟨r, stack, e⟩
  have htried := LawfulMeter.try_spec (e := ⟨s.time, gaps, delay⟩) hs.valid htry
  have hstarted : ∀ u ∈ s.acquiredAt, Open stack u := fun u hu => open_fixed (hs.started u hu) htried.fixed
  refine ⟨⟨htried.valid, ?_, fun hr => ?_, hs.clean, ?_,
    tryAcquireOne_begun hs.begun htry htried.fixed _⟩, htried.fixed⟩
  · simp only [htried.net, hs.count]
    cases r
    · simp
    · simp only [if_true, List.length_append, List.length_singleton]
      push_cast
      ring
  · simp only at hr
    subst hr
    exact ⟨Stack.paired_of_success htry, htried.opened rfl⟩
  · cases r with
    | false => exact hstarted
    | true =>
      intro u hu
      simp only [if_true, List.mem_append, List.mem_singleton] at hu
      rcases hu with hu | rfl
      · exact hstarted u hu
      · exact htried.opened rfl

theorem releaseOne_counted {s : Session} (hs : s.Counted) {gaps : List ℕ} {t : Session}
    (h : s.step (.releaseOne gaps) = some t) : t.Counted ∧ Fixed s.stack t.stack := by
  simp only [step, Option.ite_none_right_eq_some, Option.some.injEq] at h
  obtain ⟨⟨hmay, -⟩, rfl⟩ := h
  obtain ⟨hpaired, hopen⟩ := hs.ready hmay
  have hclean : Clean (s.stack.releaseOne ⟨s.time, gaps, 0⟩) := Stack.releaseOne_clean hpaired hopen
  have hback := Stack.releaseOne_spec (e := ⟨s.time, gaps, 0⟩) hs.valid hopen hclean
  refine ⟨⟨hback.valid, ?_, fun hr => (by cases hr), ?_, fun u hu => open_fixed (hs.started u hu) hback.fixed,
    releaseOne_begun hs.begun hmay hback.fixed _ _ _⟩, hback.fixed⟩
  · simp only [hback.net, hs.count]
    push_cast
    ring
  · intro v hv
    rcases List.mem_append.mp hv with hv | hv
    · exact hs.clean v hv
    · exact hclean v hv

theorem step_counted {s : Session} (hs : s.Counted) {c : Call} {t : Session} (h : s.step c = some t) :
    t.Counted ∧ Fixed s.stack t.stack := by
  cases c with
  | tryAcquireOne gaps delay => exact tryAcquireOne_counted hs h
  | releaseOne gaps => exact releaseOne_counted hs h

theorem exec_counted {s : Session} (hs : s.Counted) {cs : List Call} {t : Session}
    (h : Runs.exec step s cs = some t) : t.Counted ∧ Fixed s.stack t.stack := by
  have hkeep : ∀ u c v, (Counted u ∧ Fixed s.stack u.stack) → step u c = some v →
      (Counted v ∧ Fixed s.stack v.stack) := by
    intro u c v hu hv
    obtain ⟨hcount, hfixed⟩ := step_counted hu.1 hv
    exact ⟨hcount, hu.2.trans hfixed⟩
  exact Runs.exec_inv hkeep ⟨hs, ⟨rfl, rfl, fun _ ht => ht⟩⟩ h

end Session

theorem create_positive {requestsPerSecond burstSize : ℕ} {jitterUniform scheduledStartingTime : ℤ}
    {stack : Stack}
    (h : create requestsPerSecond burstSize jitterUniform scheduledStartingTime = .ok stack) :
    0 < requestsPerSecond := by
  unfold create at h
  split_ifs at h <;> omega

theorem create_dormant {requestsPerSecond burstSize : ℕ} {jitterUniform scheduledStartingTime : ℤ}
    {stack : Stack}
    (h : create requestsPerSecond burstSize jitterUniform scheduledStartingTime = .ok stack) :
    Dormant stack := by
  have hrps := create_positive h
  unfold create at h
  split_ifs at h with hzero hburst hjitter hjitter
  all_goals cases h
  · exact ⟨rfl, hrps, rfl⟩
  · exact ⟨hrps, rfl⟩
  · exact ⟨rfl, Nat.pos_of_ne_zero hburst, rfl, hrps, rfl⟩
  · exact ⟨Nat.pos_of_ne_zero hburst, rfl, hrps, rfl⟩

theorem stocked_init {l : ScheduledStartingRateLimiter LinearRateLimiter} {t : ℤ} (hl : Valid l t)
    {burstSize : ℕ}
    (hb : 0 < burstSize) : BurstingRateLimiter.Stocked { rateLimiter := l, burstSize := burstSize } t :=
  ⟨hl, hb, fun hr => (by cases hr), fun hr => (by cases hr)⟩

theorem create_spec {requestsPerSecond burstSize : ℕ} {jitterUniform scheduledStartingTime : ℤ}
    {stack : Stack}
    (h : create requestsPerSecond burstSize jitterUniform scheduledStartingTime = .ok stack) (t : ℤ) :
    Valid stack t ∧ net stack = 0 ∧ starts stack = [scheduledStartingTime] ∧
      (bottom stack).frequency = ⟨requestsPerSecond⟩ := by
  unfold create at h
  split_ifs at h with hrps hburst hjitter hjitter
  all_goals
    cases h
    have hwithin : LinearRateLimiter.Within { frequency := ⟨requestsPerSecond⟩ } t :=
      ⟨Nat.pos_of_ne_zero hrps, le_rfl, le_rfl⟩
  · exact ⟨⟨hwithin, fun hne => absurd rfl hne⟩, rfl, rfl, rfl⟩
  · exact ⟨hwithin, rfl, rfl, rfl⟩
  · exact ⟨⟨stocked_init hwithin (Nat.pos_of_ne_zero hburst), fun hne => absurd rfl hne⟩, rfl, rfl, rfl⟩
  · exact ⟨stocked_init hwithin (Nat.pos_of_ne_zero hburst), rfl, rfl, rfl⟩

theorem counted_init {requestsPerSecond burstSize : ℕ} {jitterUniform scheduledStartingTime : ℤ}
    {stack : Stack}
    (h : create requestsPerSecond burstSize jitterUniform scheduledStartingTime = .ok stack) (t : ℤ)
    (maxDelay : ℕ) :
    Session.Counted { stack := stack, time := t, maxDelay := maxDelay } := by
  obtain ⟨hvalid, hnet, -, -⟩ := create_spec h t
  exact ⟨hvalid, hnet, fun hr => (by cases hr), fun v hv => (by cases hv), fun u hu => (by cases hu),
    fun _ _ => Or.inl ⟨create_dormant h, rfl, rfl⟩⟩

/-- The acquisitions due at time `t` when the linear limiter was first polled at `start`. -/
def allowance (requestsPerSecond : ℕ) (start : Option ℤ) (t : ℤ) : ℤ :=
  match start with
  | none => 0
  | some start => ⌊((t - start : ℤ) : ℚ) / 10 ^ 9 * requestsPerSecond + 1 / 2⌋

theorem Session.Counted.le_allowance {requestsPerSecond : ℕ} {s : Session} (h : s.Counted)
    (hrps : 0 < requestsPerSecond)
    (hfrequency : (bottom s.stack).frequency = ⟨requestsPerSecond⟩) {u : ℤ} (hu : s.time ≤ u) :
    (s.acquiredAt.length : ℤ) - s.released ≤ allowance requestsPerSecond (bottom s.stack).startTime u := by
  have hle := LawfulMeter.net_le (LawfulMeter.valid_mono h.valid hu)
  rw [h.count, LinearRateLimiter.ceiling] at hle
  unfold allowance
  cases hstart : (bottom s.stack).startTime with
  | none => simpa [hstart] using hle
  | some start =>
    simp only [hstart, hfrequency] at hle
    rwa [LinearRateLimiter.due_eq _ hrps] at hle

/-- At any time a stack has at most the allowance out, and none of it from before the start. The
allowance counts from the poll that first reached the linear limiter. -/
theorem rate_ceiling {requestsPerSecond burstSize : ℕ} {jitterUniform scheduledStartingTime : ℤ}
    {stack : Stack}
    (hcreate : create requestsPerSecond burstSize jitterUniform scheduledStartingTime = .ok stack)
    (time : ℤ) (maxDelay : ℕ) (cs : List Call) {s : Session}
    (hrun : Runs.exec Session.step { stack := stack, time := time, maxDelay := maxDelay } cs = some s) :
    (∀ t, s.time ≤ t →
      (s.acquiredAt.length : ℤ) - s.released ≤
        allowance requestsPerSecond (s.firstPoll scheduledStartingTime) t) ∧
    (∀ u ∈ s.acquiredAt, scheduledStartingTime ≤ u) ∧
    (bottom s.stack).startTime = s.firstPoll scheduledStartingTime := by
  obtain ⟨-, -, hstarts, hfrequency⟩ := create_spec hcreate time
  obtain ⟨hcounted, hfixed⟩ := Session.exec_counted (counted_init hcreate time maxDelay) hrun
  have hone : starts s.stack = [scheduledStartingTime] := hfixed.starts.trans hstarts
  have hfirst := hcounted.begun.startTime_eq hone
  refine ⟨?_, ?_, hfirst⟩
  · intro t ht
    rw [← hfirst]
    exact hcounted.le_allowance (create_positive hcreate) (hfixed.frequency.trans hfrequency) ht
  · intro u hu
    exact (open_singleton hone u).mp (hcounted.started u hu)

/-- Polled at time zero, then a second later, when the first of two acquisitions is handed back. -/
def burstRun : List Call :=
  [.tryAcquireOne [] 0, .tryAcquireOne [1000000000] 0, .releaseOne [], .tryAcquireOne [] 0,
    .tryAcquireOne [] 0]

theorem rate_ceiling_burst :
    ∃ stack s, create 10 2 1000 0 = .ok stack ∧
      Runs.exec Session.step { stack := stack, time := 0, maxDelay := 1000 } burstRun = some s ∧
      s.acquiredAt = [1000000000, 1000000000, 1000000000] ∧ s.released = 1 ∧ s.firstPoll 0 = some 0 ∧
      (s.acquiredAt.length : ℤ) - s.released ≤ allowance 10 (s.firstPoll 0) s.time ∧
      (∀ u ∈ s.acquiredAt, 0 ≤ u) ∧ (bottom s.stack).startTime = s.firstPoll 0 := by
  obtain ⟨stack, hstack⟩ : ∃ stack, create 10 2 1000 0 = .ok stack := ⟨_, rfl⟩
  have hmap : (Runs.exec Session.step { stack := stack, time := 0, maxDelay := 1000 } burstRun).map
      (fun s => (s.acquiredAt, s.released, s.firstPoll 0)) =
        some ([1000000000, 1000000000, 1000000000], 1, some 0) := by
    cases hstack
    decide +kernel
  obtain ⟨s, hrun, hs⟩ := Option.map_eq_some_iff.mp hmap
  simp only [Prod.mk.injEq] at hs
  obtain ⟨hacquired, hreleased, hfirst⟩ := hs
  obtain ⟨hceiling, hstart, hpolled⟩ := rate_ceiling hstack 0 1000 burstRun hrun
  exact ⟨stack, s, hstack, hrun, hacquired, hreleased, hfirst, hceiling s.time le_rfl, hstart, hpolled⟩

end Nighthawk.RateLimiter

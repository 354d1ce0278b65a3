import Mathlib.Data.Multiset.AddSub
import Nighthawk.RateLimiter.Caller

/-!
# The queue of the jitter limiter

Each acquisition of the wrapped limiter is given a time, and is handed out once that time has
come. The queue holds the times that are still to come, the earliest first.
-/

namespace Nighthawk.RateLimiter

/-- The delay is drawn after the wrapped limiter was asked, which leaves it alone. -/
class KeepsDelay (σ : Type) [Limiter σ] : Prop where
  try_delay {s : σ} {e : Env} {r : Bool} {s' : σ} {e' : Env} :
    Limiter.tryAcquireOne s e = (r, s', e') → e'.delay = e.delay

instance : KeepsDelay Scripted where
  try_delay {s e r s' e'} h := by
    simp only [Limiter.tryAcquireOne, Scripted.tryAcquireOne] at h
    split at h <;> cases h <;> rfl

namespace DelegatingRateLimiterImpl

/-! ## The queue -/

theorem orderedInsert_sorted {l : List ℤ} (h : l.Pairwise (· ≤ ·)) (a : ℤ) :
    (l.orderedInsert (· < ·) a).Pairwise (· ≤ ·) := by
  induction l with
  | nil => exact List.pairwise_singleton _ _
  | cons b l ih =>
    obtain ⟨hb, hl⟩ := List.pairwise_cons.mp h
    rw [List.orderedInsert_cons]
    split_ifs with hab
    · refine List.pairwise_cons.mpr ⟨fun c hc => ?_, h⟩
      rcases List.mem_cons.mp hc with rfl | hc
      · exact hab.le
      · exact hab.le.trans (hb c hc)
    · refine List.pairwise_cons.mpr ⟨fun c hc => ?_, ih hl⟩
      rcases (List.mem_orderedInsert _).mp hc with rfl | hc
      · exact not_lt.mp hab
      · exact hb c hc

variable {σ : Type}

/-- A pop at `now`: the earliest time left the queue because it had come, or there is none that
has come. -/
structure Popped (now : ℤ) (queue : List ℤ) (r : Bool) (rest : List ℤ) : Prop where
  due : r = true → ∃ x, x ≤ now ∧ queue = x :: rest
  none : r = false → rest = queue ∧ ∀ x ∈ queue, now < x

theorem popDue_popped {d : DelegatingRateLimiterImpl σ}
    (h : d.distributedTimings.Pairwise (· ≤ ·)) (now : ℤ) :
    Popped now d.distributedTimings (d.popDue now).1 (d.popDue now).2.distributedTimings := by
  unfold popDue
  split
  · rename_i hq
    exact ⟨nofun, fun _ => ⟨rfl, by simp [hq]⟩⟩
  · rename_i front rest hq
    rw [hq] at h ⊢
    split_ifs with hdue
    · exact ⟨fun _ => ⟨front, hdue, rfl⟩, nofun⟩
    · refine ⟨nofun, fun _ => ⟨hq, fun x hx => ?_⟩⟩
      rcases List.mem_cons.mp hx with rfl | hx
      · exact not_le.mp hdue
      · exact (not_le.mp hdue).trans_le ((List.pairwise_cons.mp h).1 x hx)

theorem Popped.sublist {now : ℤ} {queue rest : List ℤ} {r : Bool} (h : Popped now queue r rest) :
    rest.Sublist queue := by
  cases r with
  | true =>
    obtain ⟨x, -, rfl⟩ := h.due rfl
    exact List.sublist_cons_self _ _
  | false => rw [(h.none rfl).1]

theorem Popped.length_eq {now : ℤ} {queue rest : List ℤ} {r : Bool} (h : Popped now queue r rest) :
    rest.length + (if r then 1 else 0) = queue.length := by
  cases r with
  | true =>
    obtain ⟨x, -, rfl⟩ := h.due rfl
    rfl
  | false =>
    rw [(h.none rfl).1]
    rfl

theorem popDue_frame (d : DelegatingRateLimiterImpl σ) (now : ℤ) :
    (d.popDue now).2.sanityCheckPendingRelease = (!(d.popDue now).1 && d.sanityCheckPendingRelease) ∧
      (d.popDue now).2.rateLimiter = d.rateLimiter := by
  unfold popDue
  split
  · simp
  · split_ifs <;> simp

/-! ## One poll -/

/-- A poll at `now` that adds the times `new` to the queue, and then pops it. -/
structure Polled (d d' : DelegatingRateLimiterImpl σ) (now : ℤ) (new : List ℤ) (r : Bool) : Prop where
  queue : ∃ queue, queue.Perm (new ++ d.distributedTimings) ∧ queue.Pairwise (· ≤ ·) ∧
    Popped now queue r d'.distributedTimings
  guard : d'.sanityCheckPendingRelease = (!r && d.sanityCheckPendingRelease)

theorem Polled.sorted {d d' : DelegatingRateLimiterImpl σ} {now : ℤ} {new : List ℤ} {r : Bool}
    (h : Polled d d' now new r) : d'.distributedTimings.Pairwise (· ≤ ·) := by
  obtain ⟨queue, -, hsorted, hpopped⟩ := h.queue
  exact hsorted.sublist hpopped.sublist

theorem Polled.length_eq {d d' : DelegatingRateLimiterImpl σ} {now : ℤ} {new : List ℤ} {r : Bool}
    (h : Polled d d' now new r) :
    d'.distributedTimings.length + (if r then 1 else 0) = new.length + d.distributedTimings.length := by
  obtain ⟨queue, hperm, -, hpopped⟩ := h.queue
  rw [hpopped.length_eq, hperm.length_eq, List.length_append]

theorem length_scheduled (granted : Bool) (x : ℤ) :
    (if granted then [x] else []).length = if granted then 1 else 0 := by
  cases granted <;> rfl

variable [Limiter σ]

theorem tryAcquireOne_polled {d : DelegatingRateLimiterImpl σ} {e : Env}
    (h : d.distributedTimings.Pairwise (· ≤ ·))
    {r : Bool} {d' : DelegatingRateLimiterImpl σ} {e' : Env} (hcall : d.tryAcquireOne e = (r, d', e')) :
    ∃ granted, Limiter.tryAcquireOne d.rateLimiter e.monotonicTime.2 = (granted, d'.rateLimiter, e') ∧
      Polled d d' e.monotonicTime.1 (if granted then [e.monotonicTime.1 + e'.delay] else []) r := by
  rcases hinner : Limiter.tryAcquireOne d.rateLimiter e.monotonicTime.2 with ⟨granted, inner, e₁⟩
  simp only [tryAcquireOne, hinner, Prod.mk.injEq] at hcall
  obtain ⟨rfl, rfl, rfl⟩ := hcall
  refine ⟨granted, ?_, ?_⟩
  · rw [(popDue_frame _ _).2]
    cases granted <;> rfl
  · refine ⟨⟨_, ?_, ?_, popDue_popped ?_ _⟩, ?_⟩
    · cases granted with
      | true => exact List.perm_orderedInsert _ _ _
      | false => exact List.Perm.refl _
    · cases granted with
      | true => exact orderedInsert_sorted h _
      | false => exact h
    · cases granted with
      | true => exact orderedInsert_sorted h _
      | false => exact h
    · rw [(popDue_frame _ _).1]
      cases granted <;> rfl

end DelegatingRateLimiterImpl

/-! ## Runs -/

/-- The caller of a jitter limiter. `scheduled` has every time that was given to an acquisition
of the wrapped limiter, and `released` those that left the queue. -/
structure Jitter (σ : Type) where
  caller : Caller (DelegatingRateLimiterImpl (Counted σ))
  scheduled : Multiset ℤ := 0
  released : Multiset ℤ := 0

namespace Jitter

variable {σ : Type}

def pending (j : Jitter σ) : Multiset ℤ := j.caller.limiter.distributedTimings

def now (j : Jitter σ) (gaps : List ℕ) : ℤ := (Env.monotonicTime ⟨j.caller.time, gaps, 0⟩).1

/-- The guard in `releaseOne` lets a call through. -/
def guardOpen (s : Caller (DelegatingRateLimiterImpl (Counted σ))) : Bool :=
  !s.limiter.sanityCheckPendingRelease

variable [Limiter σ]

/-- Whether the call got an acquisition from the wrapped limiter. -/
def granted (j : Jitter σ) (s : Caller (DelegatingRateLimiterImpl (Counted σ))) : Bool :=
  s.limiter.rateLimiter.successes ≠ j.caller.limiter.rateLimiter.successes

def given (j : Jitter σ) (s : Caller (DelegatingRateLimiterImpl (Counted σ))) : Call → Multiset ℤ
  | .tryAcquireOne gaps delay => if j.granted s then {j.now gaps + delay} else 0
  | .releaseOne _ => 0

/-- Any call, for as long as no release runs into the guard. -/
def step (j : Jitter σ) (c : Call) : Option (Jitter σ) :=
  (j.caller.step guardOpen c).map fun s =>
    { caller := s, scheduled := j.scheduled + j.given s c
      released := j.released + (j.pending + j.given s c - s.limiter.distributedTimings) }

/-- The queue is in order and holds what was scheduled and not released. What the wrapped limiter
granted is held by the caller or waits. The guard is open after a success until a release. -/
structure Ordered (j : Jitter σ) : Prop where
  sorted : j.caller.limiter.distributedTimings.Pairwise (· ≤ ·)
  balance : j.scheduled = j.released + j.pending
  granted : j.caller.limiter.rateLimiter.successes = j.caller.successes + j.pending.card
  releases : j.caller.limiter.rateLimiter.releases = j.caller.releases
  guard : j.caller.limiter.sanityCheckPendingRelease = !j.caller.fresh

structure Pops (j j' : Jitter σ) (now : ℤ) (r : Bool) : Prop where
  success : r = true → ∃ x, x ≤ now ∧ j'.released = x ::ₘ j.released ∧ ∀ y ∈ j'.pending, x ≤ y
  refusal : r = false → j'.released = j.released ∧ ∀ y ∈ j'.pending, now < y

omit [Limiter σ] in
theorem now_eq (j : Jitter σ) (gaps : List ℕ) (delay : ℕ) :
    (Env.monotonicTime ⟨j.caller.time, gaps, delay⟩).1 = j.now gaps := by
  cases gaps <;> rfl

instance [KeepsDelay σ] : KeepsDelay (Counted σ) where
  try_delay {c e r c' e'} h := by
    rcases hinner : Limiter.tryAcquireOne c.limiter e with ⟨r₁, inner, e₁⟩
    simp only [Limiter.tryAcquireOne] at h hinner
    simp only [Counted.tryAcquireOne, hinner, Prod.mk.injEq] at h
    obtain ⟨-, -, rfl⟩ := h
    exact KeepsDelay.try_delay hinner

theorem cons_sub (x : ℤ) (rest : List ℤ) : ((x :: rest : List ℤ) : Multiset ℤ) - rest = {x} := by
  rw [← Multiset.cons_coe, ← Multiset.singleton_add, Multiset.add_sub_cancel_right]

theorem given_eq [KeepsDelay σ] {j : Jitter σ} {gaps : List ℕ} {delay : ℕ} {r granted : Bool}
    {d' : DelegatingRateLimiterImpl (Counted σ)} {e' : Env}
    (hinner : Limiter.tryAcquireOne j.caller.limiter.rateLimiter
      (Env.monotonicTime ⟨j.caller.time, gaps, delay⟩).2 =
      (granted, d'.rateLimiter, e')) :
    j.given (j.caller.polled r d' e'.time) (.tryAcquireOne gaps delay) =
      ((if granted then [(Env.monotonicTime ⟨j.caller.time, gaps, delay⟩).1 + e'.delay] else [] : List ℤ) :
        Multiset ℤ) := by
  have hdelay : e'.delay = delay := by
    refine (KeepsDelay.try_delay hinner).trans ?_
    cases gaps <;> rfl
  have hsuccesses := Counted.successes_spec hinner
  have hgranted : j.granted (j.caller.polled r d' e'.time) = granted := by
    simp only [Jitter.granted, Caller.polled, hsuccesses]
    cases granted <;> simp
  rw [given, hgranted, now_eq, hdelay]
  cases granted <;> rfl

section

variable {j : Jitter σ} {now t : ℤ} {new queue : List ℤ} {r : Bool}
    {d' : DelegatingRateLimiterImpl (Counted σ)}

/-- The caller after a poll that gives out the times `new`. The queue just before the pop is `queue`. -/
def polled (j : Jitter σ) (new queue : List ℤ) (r : Bool)
    (d' : DelegatingRateLimiterImpl (Counted σ)) (t : ℤ) :
    Jitter σ where
  caller := j.caller.polled r d' t
  scheduled := j.scheduled + new
  released := j.released + (queue - d'.distributedTimings)

omit [Limiter σ] in
theorem polled_ordered (h : j.Ordered) (hqueue : queue.Perm (new ++ j.caller.limiter.distributedTimings))
    (hordered : queue.Pairwise (· ≤ ·))
    (hpopped : DelegatingRateLimiterImpl.Popped now queue r d'.distributedTimings)
    (hsuccesses : d'.rateLimiter.successes = j.caller.limiter.rateLimiter.successes + new.length)
    (hreleases : d'.rateLimiter.releases = j.caller.limiter.rateLimiter.releases)
    (hguard : d'.sanityCheckPendingRelease = (!r && j.caller.limiter.sanityCheckPendingRelease)) :
    (j.polled new queue r d' t).Ordered := by
  constructor
  case sorted => exact hordered.sublist hpopped.sublist
  case balance =>
    have hrest : (d'.distributedTimings : Multiset ℤ) ≤ queue := Multiset.coe_le.mpr hpopped.sublist.subperm
    show j.scheduled + (new : Multiset ℤ) =
      j.released + ((queue : Multiset ℤ) - d'.distributedTimings) + d'.distributedTimings
    rw [add_assoc, tsub_add_cancel_of_le hrest, h.balance, add_assoc, Multiset.coe_eq_coe.mpr hqueue,
      ← Multiset.coe_add, add_comm (new : Multiset ℤ)]
    rfl
  case granted =>
    have hlen := hpopped.length_eq
    rw [hqueue.length_eq, List.length_append] at hlen
    have hgranted : _ = j.caller.successes + j.caller.limiter.distributedTimings.length := h.granted
    show d'.rateLimiter.successes = j.caller.successes + (if r then 1 else 0) + d'.distributedTimings.length
    omega
  case releases => exact hreleases.trans h.releases
  case guard =>
    show d'.sanityCheckPendingRelease = !(r || j.caller.fresh)
    rw [hguard, h.guard, Bool.not_or]

omit [Limiter σ] in
theorem polled_pops (hordered : queue.Pairwise (· ≤ ·))
    (hpopped : DelegatingRateLimiterImpl.Popped now queue r d'.distributedTimings) :
    j.Pops (j.polled new queue r d' t) now r := by
  constructor
  case success =>
    rintro rfl
    obtain ⟨x, hx, rfl⟩ := hpopped.due rfl
    refine ⟨x, hx, ?_, (List.pairwise_cons.mp hordered).1⟩
    show j.released + (_ - (d'.distributedTimings : Multiset ℤ)) = _
    rw [cons_sub, add_comm, Multiset.singleton_add]
  case refusal =>
    rintro rfl
    obtain ⟨heq, hlate⟩ := hpopped.none rfl
    refine ⟨?_, ?_⟩
    · show j.released + ((queue : Multiset ℤ) - d'.distributedTimings) = j.released
      rw [heq, tsub_self, add_zero]
    · intro y hy
      exact hlate y (heq ▸ hy)

end

theorem poll_pops [KeepsDelay σ] {j j' : Jitter σ} {gaps : List ℕ} {delay : ℕ} (h : j.Ordered)
    (hs : j.step (.tryAcquireOne gaps delay) = some j') :
    j'.Ordered ∧ ∃ r, j'.caller.answer = some r ∧ j.Pops j' (j.now gaps) r := by
  rcases hcall : j.caller.limiter.tryAcquireOne ⟨j.caller.time, gaps, delay⟩ with ⟨r, d', e'⟩
  obtain ⟨granted, hinner, hpolled⟩ := DelegatingRateLimiterImpl.tryAcquireOne_polled h.sorted hcall
  have hgiven := given_eq (r := r) hinner
  have hsuccesses := Counted.successes_spec hinner
  have hreleases : d'.rateLimiter.releases = j.caller.limiter.rateLimiter.releases :=
    Counted.releases_spec hinner
  rw [← DelegatingRateLimiterImpl.length_scheduled] at hsuccesses
  generalize (if granted then
    [(Env.monotonicTime ⟨j.caller.time, gaps, delay⟩).1 + (e'.delay : ℤ)] else []) = new
    at hpolled hgiven hsuccesses
  obtain ⟨queue, hperm, hordered, hpopped⟩ := hpolled.queue
  rw [now_eq] at hpopped
  have hpending : j.pending + (new : Multiset ℤ) = queue := by
    rw [Multiset.coe_eq_coe.mpr hperm, ← Multiset.coe_add, add_comm]
    rfl
  have hj' : j.polled new queue r d' e'.time = j' := by
    simp only [step, Caller.step, Option.map_some, Option.some.injEq, Caller.poll_eq hcall, hgiven,
      hpending] at hs
    exact hs
  rw [← hj']
  exact ⟨polled_ordered h hperm hordered hpopped hsuccesses hreleases hpolled.guard, r, rfl,
    polled_pops hordered hpopped⟩

theorem release_ordered {j j' : Jitter σ} {gaps : List ℕ} (h : j.Ordered)
    (hs : j.step (.releaseOne gaps) = some j') : j'.Ordered := by
  obtain ⟨s, hstep, rfl⟩ := Option.map_eq_some_iff.mp hs
  simp only [Caller.step] at hstep
  split_ifs at hstep with hopen
  cases hstep
  have hpending : j.caller.limiter.sanityCheckPendingRelease = false := by simpa [guardOpen] using hopen
  have hlimiter : (j.caller.release gaps).limiter =
      { j.caller.limiter with
        rateLimiter := (Limiter.releaseOne j.caller.limiter.rateLimiter ⟨j.caller.time, gaps, 0⟩).limiter
        sanityCheckPendingRelease := true } := by
    simp only [Caller.release, Limiter.releaseOne, DelegatingRateLimiterImpl.releaseOne, hpending,
      Bool.false_eq_true, if_false]
  constructor
  case sorted =>
    rw [hlimiter]
    exact h.sorted
  case balance =>
    simp only [pending, given, hlimiter, add_zero, tsub_self]
    exact h.balance
  case granted =>
    simp only [pending, hlimiter]
    exact h.granted
  case releases =>
    rw [hlimiter]
    exact congrArg (· + 1) h.releases
  case guard => rw [hlimiter]; rfl

theorem step_ordered [KeepsDelay σ] {j j' : Jitter σ} {c : Call} (h : j.Ordered) (hs : j.step c = some j') :
    j'.Ordered := by
  cases c with
  | tryAcquireOne gaps delay => exact (poll_pops h hs).1
  | releaseOne gaps => exact release_ordered h hs

end Jitter

/-- The jitter limiter over any wrapped limiter. Its queue stays in order. A success releases the
earliest waiting time, which has come, and after a refusal every scheduled time that has come is
released. What the wrapped limiter granted is held by the caller or waits. The guard lets the
first release after a success through, and no other. -/
theorem jitter_order {σ : Type} [Limiter σ] [KeepsDelay σ] (l : σ) (t : ℤ) (cs : List Call) (j : Jitter σ)
    (hr : Runs.exec Jitter.step
      { caller := { limiter := { rateLimiter := { limiter := l } }, time := t } } cs =
      some j) :
    j.caller.limiter.distributedTimings.Pairwise (· ≤ ·) ∧
      (∀ gaps delay j', j.step (.tryAcquireOne gaps delay) = some j' →
        (j'.caller.answer = some true →
          ∃ x, x ≤ j.now gaps ∧ j'.released = x ::ₘ j.released ∧ ∀ y ∈ j'.pending, x ≤ y) ∧
        (j'.caller.answer = some false →
          j'.released = j.released ∧ ∀ x ≤ j.now gaps, j'.scheduled.count x = j'.released.count x)) ∧
      j.scheduled = j.released + j.pending ∧
      (j.caller.limiter.rateLimiter.successes : ℤ) - j.caller.limiter.rateLimiter.releases =
        j.caller.held + j.pending.card ∧
      ∀ e, (j.caller.limiter.releaseOne e).limiter.rateLimiter.releases =
        j.caller.limiter.rateLimiter.releases + if j.caller.fresh then 1 else 0 := by
  have h : j.Ordered := by
    refine Runs.exec_inv (fun _ _ _ => Jitter.step_ordered) ?_ hr
    exact ⟨List.Pairwise.nil, rfl, rfl, rfl, rfl⟩
  refine ⟨h.sorted, fun gaps delay j' hs => ?_, h.balance, ?_, fun e => ?_⟩
  · obtain ⟨hordered, r, hanswer, hpops⟩ := Jitter.poll_pops h hs
    rw [hanswer]
    refine ⟨fun hr => hpops.success (Option.some.inj hr), fun hr => ?_⟩
    obtain ⟨hsame, hlate⟩ := hpops.refusal (Option.some.inj hr)
    refine ⟨hsame, fun x hx => ?_⟩
    have hnot : x ∉ j'.pending := fun hin => absurd (hlate x hin) (not_lt.mpr hx)
    rw [hordered.balance, Multiset.count_add, Multiset.count_eq_zero_of_notMem hnot, add_zero]
  · have hgranted := h.granted
    have hreleases := h.releases
    simp only [Caller.held]
    omega
  · simp only [DelegatingRateLimiterImpl.releaseOne, h.guard]
    cases j.caller.fresh <;> rfl

/-- The second acquisition has the shorter delay and is released first. -/
def jitterCalls : List Call := [.tryAcquireOne [] 5, .tryAcquireOne [] 1, .tryAcquireOne [1] 0]

theorem jitter_order_second_first :
    ∃ j : Jitter Scripted,
      Runs.exec Jitter.step
        { caller := { limiter := { rateLimiter := { limiter := ⟨[true, true]⟩ } }, time := 0 } }
          jitterCalls = some j ∧
        j.caller.answer = some true ∧ j.released = {1} ∧ j.pending = {5} ∧
          j.scheduled = j.released + j.pending := by
  obtain ⟨j, hj, hanswer, hreleased, hpending⟩ : ∃ j : Jitter Scripted,
      Runs.exec Jitter.step
        { caller := { limiter := { rateLimiter := { limiter := ⟨[true, true]⟩ } }, time := 0 } }
          jitterCalls = some j ∧
        j.caller.answer = some true ∧ j.released = {1} ∧ j.pending = {5} := ⟨_, rfl, rfl, rfl, rfl⟩
  exact ⟨j, hj, hanswer, hreleased, hpending, (jitter_order _ 0 jitterCalls j hj).2.2.1⟩

end Nighthawk.RateLimiter

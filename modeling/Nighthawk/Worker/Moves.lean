import Nighthawk.Worker.Matched

/-!
# What an event does to a worker

`Joined` is what holds between two events. `Moves` says once what each event can do to a worker
that is joined.
-/

namespace Nighthawk.Worker

open RateLimiter (Session Fixed)
open Sequencer (SequencerImpl Balanced books)
open Sequencer.SequencerImpl (Attempt Script)

/-! ## The limiter -/

/-- `n` of the acquisitions were used. -/
structure Metered (n : ℕ) (l : Session) : Prop where
  counted : l.Counted
  acquired : l.acquiredAt.length = l.released + n

section

variable {n delay : ℕ} {l l' : Session}

theorem Metered.acquire (h : Metered n l) (hstep : l.step (.tryAcquireOne [] delay) = some l') :
    Metered (n + if l'.mayRelease then 1 else 0) l' := by
  refine ⟨(Session.tryAcquireOne_counted h.counted hstep).1, ?_⟩
  have hacquired := h.acquired
  simp only [Session.step, Option.ite_none_right_eq_some, Option.some.injEq] at hstep
  obtain ⟨-, rfl⟩ := hstep
  cases (l.stack.tryAcquireOne ⟨l.time, [], delay⟩).1 with
  | false => exact hacquired
  | true =>
    simp only [if_true, List.length_append, List.length_singleton]
    omega

theorem Metered.release (h : Metered (n + 1) l) (hstep : l.step (.releaseOne []) = some l') :
    Metered n l' := by
  refine ⟨(Session.releaseOne_counted h.counted hstep).1, ?_⟩
  have hacquired := h.acquired
  simp only [Session.step, Option.ite_none_right_eq_some, Option.some.injEq] at hstep
  obtain ⟨-, rfl⟩ := hstep
  simp only
  omega

theorem Metered.later (h : Metered n l) (gap : ℕ) : Metered n { l with time := l.time + gap } :=
  ⟨h.counted.later gap, h.acquired⟩

end

variable {c : Config} {w w' : ClientWorkerImpl}

theorem inlineEvents_limiter {arrivals : List ClientWorkerImpl.Arrival} {completions : List (ℕ × ℤ)}
    (h : w.inlineEvents c arrivals = some (w', completions)) :
    ∃ gap : ℕ, w'.limiter = { w.limiter with time := w.limiter.time + gap } := by
  refine inlineEvents_keeps (P := fun u => ∃ gap : ℕ, u.limiter =
    { w.limiter with time := w.limiter.time + gap })
    ?_ ⟨0, by simp⟩ h
  intro a _ u u' r ⟨gap, hu⟩ hstream
  have hframe : u'.limiter = u.limiter := (streamEvent_frame hstream).2.1
  refine ⟨⟨gap, hframe.trans hu⟩, fun _ => ⟨gap + a.gap, ?_⟩⟩
  simp only [ClientWorkerImpl.updateApproximateMonotonicTime, hframe, hu]
  push_cast
  rw [add_assoc]

theorem turn_metered {n calls : ℕ} {t : ClientWorkerImpl.Turn} {r : Option Attempt} (hm : Metered n w.limiter)
    (h : w.turn c calls t = some (w', r)) :
    Metered (n + r.elim 0 accepted) w'.limiter ∧ Fixed w.limiter.stack w'.limiter.stack := by
  obtain ⟨limiter, hlimiter, hcases⟩ := turn_cases h
  have hacquire := hm.acquire hlimiter
  have hfixed := (Session.tryAcquireOne_counted hm.counted hlimiter).2
  rcases hcases with ⟨hmay, rfl, rfl⟩ | ⟨hmay, b, completions, -, -, -, hinline, rfl⟩ | ⟨hmay, _,
    hrelease, rfl, rfl⟩
  · rw [hmay] at hacquire
    exact ⟨hacquire, hfixed⟩
  · rw [hmay] at hacquire
    obtain ⟨gap, hgap⟩ := inlineEvents_limiter hinline
    rw [hgap]
    exact ⟨hacquire.later gap, hfixed⟩
  · rw [hmay] at hacquire
    exact ⟨hacquire.release hrelease, hfixed.trans (Session.releaseOne_counted hacquire.counted hrelease).2⟩

theorem loop_metered {n calls : ℕ} {turns : List ClientWorkerImpl.Turn} {attempts : List Attempt}
    (hm : Metered n w.limiter) (h : w.loop c calls turns = some (w', attempts)) :
    Metered (n + (attempts.map accepted).sum) w'.limiter ∧ Fixed w.limiter.stack w'.limiter.stack := by
  refine loop_keeps (P := fun n u => Metered n u.limiter ∧ Fixed w.limiter.stack u.limiter.stack) ?_
    ⟨hm, ⟨rfl, rfl, fun _ ht => ht⟩⟩ h
  intro t _ n u calls u' r ⟨hmetered, hfixed⟩ hone
  obtain ⟨hmetered', hfixed'⟩ := turn_metered hmetered hone
  exact ⟨hmetered', hfixed.trans hfixed'⟩

/-! ## The requests that the client started -/

theorem inlineEvents_started {arrivals : List ClientWorkerImpl.Arrival} {completions : List (ℕ × ℤ)}
    (h : w.inlineEvents c arrivals = some (w', completions)) :
    w'.benchmark.started = w.benchmark.started := by
  refine inlineEvents_keeps (P := fun u => u.benchmark.started = w.benchmark.started) ?_ rfl h
  intro a _ u u' r hu hstream
  have hframe := (streamEvent_frame hstream).1.trans hu
  exact ⟨hframe, fun _ => hframe⟩

theorem loop_started {calls : ℕ} {turns : List ClientWorkerImpl.Turn} {attempts : List Attempt}
    (h : w.loop c calls turns = some (w', attempts)) :
    w'.benchmark.started = w.benchmark.started + (attempts.map accepted).sum := by
  have hrun := loop_keeps (P := fun n u => u.benchmark.started = w.benchmark.started + n) (n := 0) ?_ rfl h
  · rwa [Nat.zero_add] at hrun
  intro t _ n u calls u' r hu hone
  obtain ⟨limiter, -, ⟨-, rfl, rfl⟩ | ⟨-, b, completions, -, hstarted, -, hinline, rfl⟩ | ⟨-, _,
    -, rfl, rfl⟩⟩ :=
    turn_cases hone
  · exact hu
  · rw [inlineEvents_started hinline]
    show b.started = w.benchmark.started + (n + 1)
    omega
  · exact hu

/-- What the loop leaves alone. -/
def rest (w : ClientWorkerImpl) : ℕ × Stage := (w.gracefulStopRequested, w.stage)

theorem inlineEvents_rest {arrivals : List ClientWorkerImpl.Arrival} {completions : List (ℕ × ℤ)}
    (h : w.inlineEvents c arrivals = some (w', completions)) : rest w' = rest w := by
  refine inlineEvents_keeps (P := fun u => rest u = rest w) ?_ rfl h
  intro a _ u u' r hu hstream
  obtain ⟨-, -, -, hstage, hgraceful⟩ := streamEvent_frame hstream
  have hframe : rest u' = rest w := by rw [← hu, rest, hstage, hgraceful, rest]
  exact ⟨hframe, fun _ => hframe⟩

theorem loop_rest {calls : ℕ} {turns : List ClientWorkerImpl.Turn} {attempts : List Attempt}
    (h : w.loop c calls turns = some (w', attempts)) : rest w' = rest w := by
  refine loop_keeps (P := fun _ u => rest u = rest w) (n := 0) ?_ rfl h
  intro t _ n u calls u' r hu hone
  obtain ⟨limiter, -, ⟨-, -, rfl⟩ | ⟨-, b, completions, -, -, -, hinline, -⟩ | ⟨-, _, -, -, rfl⟩⟩ :=
    turn_cases hone
  · exact hu
  · exact (inlineEvents_rest hinline).trans hu
  · exact hu

/-- No stream holds the callback of the warm-up. -/
def WarmedUp (w : ClientWorkerImpl) : Prop := ∀ p ∈ w.callbacks, p.2 ≠ .exitDispatcher

theorem streamEvent_warmedUp {id : ℕ} {e : BenchmarkClient.StreamEvent} {r : Option CompletionCallback}
    (hw : WarmedUp w)
    (h : w.streamEvent c id e = some (w', r)) : WarmedUp w' := by
  obtain ⟨b, -, -, ⟨-, rfl, -⟩ | ⟨_, -, -, rfl, -⟩⟩ := streamEvent_cases h
  · exact hw
  · exact fun p hp => hw p (List.mem_of_mem_filter hp)

theorem turn_warmedUp {calls : ℕ} {t : ClientWorkerImpl.Turn} {r : Option Attempt} (hw : WarmedUp w)
    (h : w.turn c calls t = some (w', r)) : WarmedUp w' := by
  obtain ⟨limiter, -, ⟨-, -, rfl⟩ | ⟨-, b, completions, -, -, -, hinline, -⟩ | ⟨-, _, -, -, rfl⟩⟩ :=
    turn_cases h
  · exact hw
  · refine inlineEvents_keeps (P := WarmedUp) (fun a _ v v' r hv hstream => ?_) ?_ hinline
    · have hv' := streamEvent_warmedUp hv hstream
      exact ⟨hv', fun _ => hv'⟩
    · exact List.forall_mem_cons.mpr ⟨by simp, hw⟩
  · exact hw

theorem loop_warmedUp {calls : ℕ} {turns : List ClientWorkerImpl.Turn} {attempts : List Attempt}
    (hw : WarmedUp w)
    (h : w.loop c calls turns = some (w', attempts)) : WarmedUp w' :=
  loop_keeps (P := fun _ u => WarmedUp u) (n := 0) (fun _ _ _ _ _ _ _ hu hone => turn_warmedUp hu hone) hw h

/-! ## A run of the sequencer -/

theorem entered_frame (s : SequencerImpl) (r : Script) :
    (Sequencer.entered s r).outstanding = s.outstanding ∧ (Sequencer.entered s r).calls = s.calls ∧
      (Sequencer.entered s r).targetsInitiated = s.targetsInitiated ∧
        (Balanced 0 s → Balanced 0 (Sequencer.entered s r)) := by
  have hassert := Sequencer.books_assert s s.running "running_"
  simp only [books, Prod.mk.injEq] at hassert
  refine ⟨?_, ?_, ?_, fun hb => ?_⟩
  case refine_4 =>
    have hnow : Balanced 0 { s.assert s.running "running_" with monotonicTime := r.now } :=
      Sequencer.balanced_of_books hb (Sequencer.books_assert s _ _)
    exact Sequencer.evaluate_balanced hnow _
  all_goals
    unfold Sequencer.entered SequencerImpl.evaluate
    split_ifs
    · simp [SequencerImpl.log, hassert]
    · simp [hassert]

theorem stop_frame (s : SequencerImpl) (failed : Bool) :
    (s.stop failed).outstanding = s.outstanding ∧ (s.stop failed).targetsInitiated = s.targetsInitiated := by
  unfold SequencerImpl.stop SequencerImpl.log SequencerImpl.unblockAndUpdateStatisticIfNeeded
    SequencerImpl.assert
  constructor <;> simp only <;> split_ifs <;> rfl

theorem runs_unique {e : Sequencer.Event} {r r' : Script} (h : e.Runs r) (h' : e.Runs r') : r = r' := by
  cases e with
  | completion id time => cases h
  | _ => exact h.symm.trans h'

theorem evaluate_status {s : SequencerImpl} (h : s.lastTerminationStatus = .proceed)
    (statuses : List Sequencer.Status) :
    (s.evaluate statuses).lastTerminationStatus = Sequencer.evaluateChain statuses := by
  unfold SequencerImpl.evaluate
  rw [if_pos h]

theorem run_cases {event : Script → Sequencer.Event} (hevent : ∀ r, (event r).Runs r)
    {p : ClientWorkerImpl.Poll}
    (hm : Matched w.sequencer w) (hb : Balanced 0 w.sequencer) (hp : Sequencer.Phase w.sequencer)
    (h : w.run c event p = some w') :
    let w₁ := w.updateApproximateMonotonicTime p.gap
    let status := Sequencer.evaluateChain (w₁.predicates c p)
    ∃ s' r, Sequencer.step w.sequencer (event r) = some s' ∧
      ((status ≠ .proceed ∧ w' = { w₁ with sequencer := s' } ∧ Matched s' w₁ ∧ Sequencer.Ended status s' ∧
        s'.targetsInitiated = w.sequencer.targetsInitiated) ∨
      (status = .proceed ∧ ∃ w₂ attempts, w₁.loop c w.sequencer.calls p.turns = some (w₂, attempts) ∧
        w' = { w₂ with sequencer := s' } ∧ Matched s' w₂ ∧
        s'.targetsInitiated = w.sequencer.targetsInitiated + (attempts.map accepted).sum)) := by
  intro w₁ status
  unfold ClientWorkerImpl.run at h
  obtain ⟨⟨w₂, attempts⟩, hserve, h⟩ := Option.bind_eq_some_iff.mp h
  obtain ⟨s', hstep, heq⟩ := Option.map_eq_some_iff.mp h
  refine ⟨s', _, hstep, ?_⟩
  have hm₁ : Matched w.sequencer w₁ := hm.congr rfl rfl rfl rfl
  obtain ⟨id, time, hcompletion, -⟩ | ⟨fromPeriodic, r, periodic, spin, hr, hlive, hrun⟩ :=
    Sequencer.step_cases hp hstep
  · have := hevent ⟨w₁.limiter.time, w₁.predicates c p, attempts⟩
    rw [show event _ = _ from hcompletion] at this
    cases this
  obtain rfl := runs_unique (hevent _) hr
  have hstatus : w₁.sequencer.lastTerminationStatus = .proceed := hlive.status
  obtain ⟨houtstanding, hcalls, hinitiated, hbalanced⟩ :=
    entered_frame (Sequencer.woken w.sequencer periodic spin)
    ⟨w₁.limiter.time, w₁.predicates c p, attempts⟩
  unfold ClientWorkerImpl.serve at hserve
  rw [evaluate_status hstatus] at hserve
  rcases Sequencer.run_cases hlive.status hrun with ⟨hend, hs'⟩ | ⟨hproceed, u, hu, hs'⟩
  · rw [if_pos hend] at hserve
    cases hserve
    obtain ⟨hout, hinit⟩ := stop_frame (Sequencer.entered (Sequencer.woken w.sequencer periodic spin)
      ⟨w₁.limiter.time, w₁.predicates c p, []⟩) (status = .fail)
    have hended : Sequencer.Ended status s' := by
      have hnow : Sequencer.Live (!fromPeriodic)
        { Sequencer.woken w.sequencer periodic spin with monotonicTime := w₁.limiter.time } := { hlive with }
      rw [hs', hlive.entered_eq]
      exact Sequencer.ended_stop hnow hend
    refine Or.inl ⟨hend, heq.symm, hm₁.congr ?_ rfl rfl rfl, hended, ?_⟩
    · rw [hs']
      exact hout.trans houtstanding
    · rw [hs']
      exact hinit.trans hinitiated
  · rw [if_neg (not_not.mpr hproceed)] at hserve
    have hmatched := hm₁.congr (t := Sequencer.entered (Sequencer.woken w.sequencer periodic spin)
      ⟨w₁.limiter.time, w₁.predicates c p, attempts⟩) houtstanding rfl rfl rfl
    obtain ⟨v, hv, hmatched', hinit⟩ := loop_matched hmatched
      (hbalanced (Sequencer.balanced_of_books hb rfl)) (by rw [hcalls]; exact hserve) w₁.limiter.time
    obtain rfl : u = v := Option.some.inj (hu.symm.trans hv)
    have hbooks := Sequencer.books_reschedule u fromPeriodic
    simp only [books, Prod.mk.injEq] at hbooks
    refine Or.inr ⟨hproceed, w₂, attempts, hserve, heq.symm, hmatched'.congr ?_ rfl rfl rfl, ?_⟩
    · rw [hs']
      exact hbooks.2.2.2.2.1
    · rw [hs', hbooks.2.1, hinit, hinitiated]
      rfl

/-! ## Whole runs -/

/-- What holds of a worker between two events. -/
structure Joined (c : Config) (w : ClientWorkerImpl) : Prop where
  matched : Matched w.sequencer w
  balanced : Balanced 0 w.sequencer
  phase : Sequencer.Phase w.sequencer
  metered : Metered w.sequencer.targetsInitiated w.limiter
  waiting : w.stage ≠ .phase → w.sequencer.started = false
  warmedUp : w.stage ≠ .warmingUp → WarmedUp w
  warming : w.stage = .warmingUp → ∃ id, w.callbacks = [(id, .exitDispatcher)]
  started : ∃ k, w.benchmark.started = w.sequencer.targetsInitiated + k ∧
    k ≤ if c.warmup ∧ w.stage ≠ .created then 1 else 0

theorem fresh_of_not_started {s : SequencerImpl} (hp : Sequencer.Phase s) (h : s.started = false) :
    ∃ i, s = { idleStrategy := i } := by
  cases hp with
  | fresh i hs => exact ⟨i, hs⟩
  | live hs => simp [hs.started] at h
  | ended status hs => simp [hs.started] at h

theorem Joined.idle (h : Joined c w) (hstage : w.stage ≠ .phase) (hwarm : w.stage ≠ .warmingUp) :
    w.callbacks = [] := by
  have houtstanding := h.matched.outstanding
  obtain ⟨i, hfresh⟩ := fresh_of_not_started h.phase (h.waiting hstage)
  rw [hfresh] at houtstanding
  have hnone : ∀ p ∈ w.callbacks, p.2.target = none := by
    have hnil : targets w.callbacks = [] := by simpa using houtstanding.symm
    exact List.filterMap_eq_nil_iff.mp hnil
  rw [List.eq_nil_iff_forall_not_mem]
  intro p hp
  have hexit := h.warmedUp hwarm p hp
  have htarget := hnone p hp
  cases hcallback : p.2 with
  | exitDispatcher => exact hexit hcallback
  | sequencer id => simp [hcallback, CompletionCallback.target] at htarget

/-! ## What an event can do -/

/-- The event runs the sequencer of this worker. -/
inductive Polls (w : ClientWorkerImpl) :
    Event → ClientWorkerImpl.Poll → (Script → Sequencer.Event) → ClientWorkerImpl → Prop
  | start (hstage : w.stage = .ready) (p : ClientWorkerImpl.Poll) :
    Polls w (.start p) p .start { w.setShouldMeasureLatencies true with stage := .phase }
  | periodicTimer (hstage : w.stage = .phase) (p : ClientWorkerImpl.Poll) :
    Polls w (.periodicTimer p) p .periodicTimer w
  | spinTimer (hstage : w.stage = .phase) (p : ClientWorkerImpl.Poll) : Polls w (.spinTimer p) p .spinTimer w

theorem Polls.runs {e : Event} {p : ClientWorkerImpl.Poll} {event : Script → Sequencer.Event}
    {u : ClientWorkerImpl}
    (h : Polls w e p event u) (r : Script) : (event r).Runs r := by
  cases h <;> rfl

theorem Polls.stage {e : Event} {p : ClientWorkerImpl.Poll} {event : Script → Sequencer.Event}
    {u : ClientWorkerImpl}
    (h : Polls w e p event u) : u.stage = .phase := by
  cases h with
  | start hstage p => rfl
  | periodicTimer hstage p => exact hstage
  | spinTimer hstage p => exact hstage

theorem Polls.joined {e : Event} {p : ClientWorkerImpl.Poll} {event : Script → Sequencer.Event}
    {u : ClientWorkerImpl}
    (h : Polls w e p event u) (hj : Joined c w) : Joined c u := by
  cases h with
  | start hstage p =>
    obtain ⟨k, hk, hle⟩ := hj.started
    have hwarmed : WarmedUp w := hj.warmedUp (by simp [hstage])
    refine ⟨hj.matched.congr rfl rfl rfl rfl, hj.balanced, hj.phase, hj.metered, fun hne => absurd rfl hne,
      fun _ => hwarmed, fun hwarming => (by cases hwarming), k, hk, ?_⟩
    simpa [hstage] using hle
  | periodicTimer hstage p => exact hj
  | spinTimer hstage p => exact hj

inductive Moves (c : Config) (w : ClientWorkerImpl) : Event → ClientWorkerImpl → Prop
  | ready {pool : Bool} {request : Option BenchmarkClient.Request} {now : ℤ} (hstage : w.stage = .created) :
    Moves c w (.work pool request now) { w.setShouldMeasureLatencies false with stage := .ready }
  | warmUp {pool : Bool} {request : Option BenchmarkClient.Request} {now : ℤ} {b : BenchmarkClient.Benchmark}
    (hstage : w.stage = .created) (hwarmup : c.warmup = true)
    (hstart : BenchmarkClient.step c.client (w.setShouldMeasureLatencies false).benchmark
      (.tryStartRequest pool request now) = some b)
    (hstarted : b.started = w.benchmark.started + 1)
    (hkeys : b.streams.map Prod.fst = w.benchmark.started :: w.benchmark.streams.map Prod.fst) :
    Moves c w (.work pool request now)
      { w with
        benchmark := b
        callbacks := (w.benchmark.started, .exitDispatcher) :: w.callbacks
        stage := .warmingUp }
  | stop {e : Event} {p : ClientWorkerImpl.Poll} {event : Script →
    Sequencer.Event} {u : ClientWorkerImpl} {s : SequencerImpl}
    {r : Script} (hpoll : Polls w e p event u) (hstep : Sequencer.step u.sequencer (event r) = some s)
    (hstatus : Sequencer.evaluateChain ((u.updateApproximateMonotonicTime p.gap).predicates c p) ≠ .proceed)
    (hended : Sequencer.Ended
      (Sequencer.evaluateChain ((u.updateApproximateMonotonicTime p.gap).predicates c p)) s)
    (hmatched : Matched s u) (hinit : s.targetsInitiated = u.sequencer.targetsInitiated) :
    Moves c w e { u.updateApproximateMonotonicTime p.gap with sequencer := s }
  | serve {e : Event} {p : ClientWorkerImpl.Poll} {event : Script → Sequencer.Event} {u v : ClientWorkerImpl}
    {s : SequencerImpl} {r : Script} {attempts : List Attempt}
    (hpoll : Polls w e p event u) (hstep : Sequencer.step u.sequencer (event r) = some s)
    (hstatus : Sequencer.evaluateChain ((u.updateApproximateMonotonicTime p.gap).predicates c p) = .proceed)
    (hloop : (u.updateApproximateMonotonicTime p.gap).loop c u.sequencer.calls p.turns = some (v, attempts))
    (hmatched : Matched s v)
    (hinit : s.targetsInitiated = u.sequencer.targetsInitiated + (attempts.map accepted).sum) :
    Moves c w e { v with sequencer := s }
  | ongoing {a : ClientWorkerImpl.Arrival} {v : ClientWorkerImpl}
    (hstream : w.streamEvent c a.id a.event = some (v, none)) : Moves c w (.stream a) v
  | warmedUp {a : ClientWorkerImpl.Arrival} {v : ClientWorkerImpl}
    (hstream : w.streamEvent c a.id a.event = some (v, some .exitDispatcher)) :
    Moves c w (.stream a) { v with stage := .ready }
  | complete {a : ClientWorkerImpl.Arrival} {v : ClientWorkerImpl} {id : ℕ} {s : SequencerImpl}
    (hstream : w.streamEvent c a.id a.event = some (v, some (.sequencer id)))
    (hcomplete : w.sequencer.complete id (w.limiter.time + a.gap) = some s) :
    Moves c w (.stream a) { v.updateApproximateMonotonicTime a.gap with sequencer := s }
  | cancel :
    Moves c w .requestExecutionCancellation { w with gracefulStopRequested := w.gracefulStopRequested + 1 }
  | terminate (hexited : w.sequencer.dispatcherExited = true) :
    Moves c w .terminate (w.setShouldMeasureLatencies false)

theorem Polls.moves {e : Event} {p : ClientWorkerImpl.Poll} {event : Script → Sequencer.Event}
    {u : ClientWorkerImpl}
    (hpoll : Polls w e p event u) (hj : Joined c w) (h : u.run c event p = some w') : Moves c w e w' := by
  have hu := hpoll.joined hj
  obtain ⟨s, r, hstep, ⟨hstatus, rfl, hmatched, hended, hinit⟩ | ⟨hstatus, v, attempts, hloop, rfl,
    hmatched, hinit⟩⟩ :=
    run_cases hpoll.runs hu.matched hu.balanced hu.phase h
  · exact .stop hpoll hstep hstatus hended (hmatched.congr rfl rfl rfl rfl) hinit
  · exact .serve hpoll hstep hstatus hloop hmatched hinit

theorem started_of_timer {s t : SequencerImpl} (hp : Sequencer.Phase s) {e : Sequencer.Event} {r : Script}
    (he : e = .periodicTimer r ∨ e = .spinTimer r) (h : Sequencer.step s e = some t) : s.started = true := by
  cases hp with
  | fresh i hs =>
    subst hs
    rcases he with rfl | rfl <;> cases h
  | live hs => exact hs.started
  | ended status hs => exact hs.started

theorem timer_stage {event : Script → Sequencer.Event}
    (hevent : ∀ r, event r = .periodicTimer r ∨ event r = .spinTimer r)
    {p : ClientWorkerImpl.Poll} (hj : Joined c w) (h : w.run c event p = some w') : w.stage = .phase := by
  have hruns : ∀ r, (event r).Runs r := by
    intro r
    rcases hevent r with he | he <;> rw [he] <;> rfl
  obtain ⟨s', r, hstep, -⟩ := run_cases hruns hj.matched hj.balanced hj.phase h
  have hstarted := started_of_timer hj.phase (hevent r) hstep
  by_contra hne
  rw [hj.waiting hne] at hstarted
  cases hstarted

theorem step_moves {e : Event} (hj : Joined c w) (h : step c w e = some w') : Moves c w e w' := by
  cases e with
  | work pool request now =>
    simp only [step] at h
    split_ifs at h with hstage hwarmup
    · rw [not_not] at hstage
      obtain ⟨⟨w₁, started⟩, hstart, rfl⟩ := Option.map_eq_some_iff.mp h
      rcases tryStartRequest_cases hstart with ⟨rfl, rfl⟩ | ⟨rfl, b, hb, hstarted, hkeys, rfl⟩
      · exact .ready hstage
      · exact .warmUp hstage hwarmup hb hstarted hkeys
    · rw [not_not] at hstage
      cases h
      exact .ready hstage
  | start p =>
    simp only [step] at h
    split_ifs at h with hstage
    exact (Polls.start hstage p).moves hj h
  | periodicTimer p => exact (Polls.periodicTimer (timer_stage (fun _ => Or.inl rfl) hj h) p).moves hj h
  | spinTimer p => exact (Polls.spinTimer (timer_stage (fun _ => Or.inr rfl) hj h) p).moves hj h
  | stream a =>
    simp only [step] at h
    split at h
    · cases h
    · rename_i v hstream
      cases h
      exact .ongoing hstream
    · rename_i v hstream
      cases h
      exact .warmedUp hstream
    · rename_i v id hstream
      obtain ⟨s, hs, rfl⟩ := Option.map_eq_some_iff.mp h
      obtain ⟨-, hlimiter, hsequencer, -⟩ := streamEvent_frame hstream
      refine .complete hstream ?_
      simp only [ClientWorkerImpl.updateApproximateMonotonicTime, hlimiter, hsequencer] at hs
      exact hs
  | requestExecutionCancellation =>
    cases h
    exact .cancel
  | terminate =>
    simp only [step] at h
    split_ifs at h with hexited
    cases h
    exact .terminate hexited

theorem Joined.stage_of_ended (hj : Joined c w) {id : ℕ} {e : BenchmarkClient.StreamEvent}
    {callback : CompletionCallback}
    (h : w.streamEvent c id e = some (w', some callback)) :
    (callback = .exitDispatcher ↔ w.stage = .warmingUp) ∧ (w.stage = .warmingUp → w'.callbacks = []) := by
  have hmem := mem_of_ended h
  obtain ⟨b, -, -, ⟨hr, -⟩ | ⟨_, -, -, rfl, -⟩⟩ := streamEvent_cases h
  · cases hr
  refine ⟨⟨fun hexit => ?_, fun hwarming => ?_⟩, fun hwarming => ?_⟩
  · by_contra hne
    exact hj.warmedUp hne _ hmem hexit
  · obtain ⟨id', hcallbacks⟩ := hj.warming hwarming
    rw [hcallbacks, List.mem_singleton] at hmem
    exact congrArg Prod.snd hmem
  · obtain ⟨id', hcallbacks⟩ := hj.warming hwarming
    rw [hcallbacks, List.mem_singleton] at hmem
    obtain ⟨rfl, -⟩ := Prod.mk.inj hmem
    simp [hcallbacks]

theorem moves_joined {e : Event} (hj : Joined c w) (h : Moves c w e w') : Joined c w' := by
  obtain ⟨k, hk, hle⟩ := hj.started
  cases h with
  | ready hstage =>
    have hwarmed : WarmedUp w := hj.warmedUp (by simp [hstage])
    refine ⟨hj.matched.congr rfl rfl rfl rfl, hj.balanced, hj.phase, hj.metered,
      fun _ => hj.waiting (by simp [hstage]),
      fun _ => hwarmed, fun hwarming => (by cases hwarming), k, hk, ?_⟩
    simp only [hstage, ne_eq, not_true, and_false, if_false] at hle
    exact hle.trans (Nat.zero_le _)
  | warmUp hstage hwarmup hstart hstarted hkeys =>
    rename_i b
    have hempty := hj.idle (by simp [hstage]) (by simp [hstage])
    have hstreams := hj.matched.streams
    have houtstanding := hj.matched.outstanding
    simp only [hempty, List.map_nil] at hstreams houtstanding
    simp only [hempty]
    refine ⟨⟨?_, List.nodup_singleton _, ?_, houtstanding⟩, hj.balanced, hj.phase, hj.metered,
      fun _ => hj.waiting (by simp [hstage]), fun hne => absurd rfl hne, fun _ => ⟨_, rfl⟩, k + 1, ?_, ?_⟩
    · show [w.benchmark.started] = b.streams.map Prod.fst
      rw [hkeys, ← hstreams]
    · intro id hid
      rw [List.mem_singleton.mp hid]
      show w.benchmark.started < b.started
      omega
    · show b.started = w.sequencer.targetsInitiated + (k + 1)
      omega
    · simp only [hstage, ne_eq, not_true, and_false, if_false, Nat.le_zero] at hle
      simp [hwarmup, hle]
  | stop hpoll hstep hstatus hended hmatched hinit =>
    have hu := hpoll.joined hj
    have hstage := hpoll.stage
    have hwarmed : WarmedUp _ := hu.warmedUp (by simp [hstage])
    refine ⟨hmatched.congr rfl rfl rfl rfl, Sequencer.step_balanced _ _ _ hu.balanced hstep,
      Sequencer.step_phase _ _ _ hu.phase hstep, ?_, fun hne => absurd hstage hne, fun _ => hwarmed,
      fun hwarming => ?_, ?_⟩
    · rw [hinit]
      exact hu.metered.later _
    · exact absurd (hstage.symm.trans hwarming) (by simp)
    · rw [hinit]
      exact hu.started
  | serve hpoll hstep hstatus hloop hmatched hinit =>
    rename_i p event u v s r attempts
    have hu := hpoll.joined hj
    have hstage : v.stage = .phase := (congrArg Prod.snd (loop_rest hloop)).trans hpoll.stage
    have hbefore : WarmedUp (u.updateApproximateMonotonicTime p.gap) := hu.warmedUp (by simp [hpoll.stage])
    have hwarmed : WarmedUp v := loop_warmedUp hbefore hloop
    obtain ⟨k, hk, hle⟩ := hu.started
    refine ⟨hmatched.congr rfl rfl rfl rfl, Sequencer.step_balanced _ _ _ hu.balanced hstep,
      Sequencer.step_phase _ _ _ hu.phase hstep, ?_, fun hne => absurd hstage hne, fun _ => hwarmed,
      fun hwarming => ?_, k,
      ?_, ?_⟩
    · rw [hinit]
      exact (loop_metered (hu.metered.later _) hloop).1
    · exact absurd (hstage.symm.trans hwarming) (by simp)
    · have hstarted := loop_started hloop
      simp only [ClientWorkerImpl.updateApproximateMonotonicTime] at hstarted
      rw [hstarted, hinit]
      omega
    · simpa [hpoll.stage, hstage] using hle
  | ongoing hstream =>
    obtain ⟨hstarted, hlimiter, hsequencer, hstage, -⟩ := streamEvent_frame hstream
    have hmatched := hj.matched.ongoing hstream
    have hwarmed := fun hne => streamEvent_warmedUp (hj.warmedUp hne) hstream
    obtain ⟨b, -, -, ⟨-, rfl, -⟩ | ⟨_, hr, -⟩⟩ := streamEvent_cases hstream
    · exact ⟨hmatched, hj.balanced, hj.phase, hj.metered, hj.waiting, hwarmed, hj.warming, k,
        hstarted.trans hk, hle⟩
    · cases hr
  | warmedUp hstream =>
    obtain ⟨hstarted, hlimiter, hsequencer, -⟩ := streamEvent_frame hstream
    obtain ⟨hexit, hempty⟩ := hj.stage_of_ended hstream
    have hwarming := hexit.mp rfl
    have hmatched := hj.matched.exit hstream
    refine ⟨hmatched.congr (by rw [hsequencer]) rfl rfl rfl, ?_, ?_, ?_, fun _ => ?_, fun _ => ?_,
      fun hready => (by cases hready), k, ?_, ?_⟩
    · simp only [hsequencer]; exact hj.balanced
    · simp only [hsequencer]; exact hj.phase
    · simp only [hsequencer, hlimiter]; exact hj.metered
    · simp only [hsequencer]
      exact hj.waiting (by simp [hwarming])
    · intro p hp
      simp [hempty hwarming] at hp
    · simp only [hstarted, hsequencer]; exact hk
    · simpa [hwarming] using hle
  | complete hstream hcomplete =>
    rename_i a v id s
    obtain ⟨hstarted, hlimiter, hsequencer, hstage, -⟩ := streamEvent_frame hstream
    obtain ⟨hexit, -⟩ := hj.stage_of_ended hstream
    have hcalm : w.stage ≠ .warmingUp := fun hwarming => by cases hexit.mpr hwarming
    have hwarmed : WarmedUp v := streamEvent_warmedUp (hj.warmedUp hcalm) hstream
    obtain ⟨t, ht, hmatched⟩ := hj.matched.complete hj.balanced.distinct hstream (w.limiter.time + a.gap)
    obtain rfl : t = s := Option.some.inj (ht.symm.trans hcomplete)
    obtain ⟨_, -, -, hbooks⟩ := Sequencer.complete_books ht
    simp only [books, Prod.mk.injEq] at hbooks
    have hinit : t.targetsInitiated = w.sequencer.targetsInitiated := hbooks.2.1
    refine ⟨hmatched.congr rfl rfl rfl rfl, Sequencer.complete_balanced hj.balanced ht,
      Sequencer.step_phase _ (.completion id _) _ hj.phase ht, ?_, fun hne => ?_, fun _ => hwarmed,
      fun hwarming => ?_, k, ?_, ?_⟩
    · simp only [ClientWorkerImpl.updateApproximateMonotonicTime, hlimiter, hinit]
      exact hj.metered.later a.gap
    · -- A sequencer that has not started has no callback.
      have hne' : w.stage ≠ .phase := hstage ▸ hne
      obtain ⟨i, hfresh⟩ := fresh_of_not_started hj.phase (hj.waiting hne')
      simp [SequencerImpl.complete, hfresh] at ht
    · exact absurd (hstage.symm.trans hwarming) hcalm
    · exact (hstarted.trans hk).trans (by rw [hinit])
    · exact hstage ▸ hle
  | cancel =>
    exact ⟨hj.matched.congr rfl rfl rfl rfl, hj.balanced, hj.phase, hj.metered, hj.waiting,
      hj.warmedUp, hj.warming,
      hj.started⟩
  | terminate hexited =>
    exact ⟨hj.matched.congr rfl rfl rfl rfl, hj.balanced, hj.phase, hj.metered, hj.waiting,
      hj.warmedUp, hj.warming,
      hj.started⟩

/-! ## What only concerns the client -/

/-- The decoder calls inside the target calls of an event. -/
def Event.inline : Event → List ClientWorkerImpl.Arrival
  | .start p | .periodicTimer p | .spinTimer p => p.turns.flatMap (·.inline)
  | _ => []

/-- The decoder calls of an event. -/
def Event.arrivals : Event → List ClientWorkerImpl.Arrival
  | .stream a => [a]
  | e => e.inline

theorem Polls.arrivals {e : Event} {p : ClientWorkerImpl.Poll} {event : Script → Sequencer.Event}
    {u : ClientWorkerImpl}
    (h : Polls w e p event u) : e.arrivals = e.inline ∧ e.inline = p.turns.flatMap (·.inline) := by
  cases h <;> exact ⟨rfl, rfl⟩

section

-- `Q` is what is known of the decoder calls.
variable {Q : BenchmarkClient.StreamEvent → Prop} {P : BenchmarkClient.Benchmark → Prop}
  (hstart : ∀ b pool request now b', P b →
    BenchmarkClient.step c.client b (.tryStartRequest pool request now) = some b' → P b')
  (hdecoder : ∀ b id e b', Q e → P b → BenchmarkClient.step c.client b (.stream id e) = some b' → P b')

include hdecoder in
theorem streamEvent_client {id : ℕ} {e : BenchmarkClient.StreamEvent} {r : Option CompletionCallback}
    (h : w.streamEvent c id e = some (w', r)) (hok : Q e) (hw : P w.benchmark) : P w'.benchmark := by
  obtain ⟨b, hb, -, ⟨-, rfl, -⟩ | ⟨_, -, -, rfl, -⟩⟩ := streamEvent_cases h
  · exact hdecoder _ _ _ _ hok hw hb
  · exact hdecoder _ _ _ _ hok hw hb

include hstart hdecoder

theorem loop_client {calls : ℕ} {turns : List ClientWorkerImpl.Turn} {attempts : List Attempt}
    (h : w.loop c calls turns = some (w', attempts)) (hok : ∀ a ∈ turns.flatMap (·.inline), Q a.event)
    (hw : P w.benchmark) : P w'.benchmark := by
  refine loop_keeps (P := fun _ u => P u.benchmark) (n := 0) ?_ hw h
  intro t ht n u calls u' r hu hone
  obtain ⟨limiter, -, ⟨-, -, rfl⟩ | ⟨-, b, completions, hb, -, -, hinline, -⟩ | ⟨-, _, -, -, rfl⟩⟩ :=
    turn_cases hone
  · exact hu
  · refine inlineEvents_keeps (P := fun u => P u.benchmark) (fun a ha v v' r hv hstream => ?_) ?_ hinline
    · have hv' := streamEvent_client hdecoder hstream (hok a (List.mem_flatMap.mpr ⟨t, ht, ha⟩)) hv
      exact ⟨hv', fun _ => hv'⟩
    · exact hstart _ _ _ _ _ hu hb
  · exact hu

/-- What the calls of the client keep, also when `measure_latencies_` is set, every event keeps. -/
theorem moves_client (hflag : ∀ (u : ClientWorkerImpl) m, P u.benchmark →
    P (u.setShouldMeasureLatencies m).benchmark)
    {e : Event} (hok : ∀ a ∈ e.arrivals, Q a.event) (hw : P w.benchmark) (h : Moves c w e w') :
    P w'.benchmark := by
  have hpolled : ∀ {p event u}, Polls w e p event u → P u.benchmark := by
    intro p event u hpoll
    cases hpoll with
    | start hstage p => exact hflag w true hw
    | periodicTimer hstage p => exact hw
    | spinTimer hstage p => exact hw
  cases h with
  | ready hstage => exact hflag w false hw
  | warmUp hstage hwarmup hb hstarted hkeys => exact hstart _ _ _ _ _ (hflag w false hw) hb
  | stop hpoll hseq hstatus hended hmatched hinit =>
    have hu := hpolled hpoll
    exact hu
  | serve hpoll hseq hstatus hloop hmatched hinit =>
    have hu := hpolled hpoll
    rw [hpoll.arrivals.1, hpoll.arrivals.2] at hok
    have hv := loop_client hstart hdecoder hloop hok hu
    exact hv
  | ongoing hstream => exact streamEvent_client hdecoder hstream (hok _ List.mem_cons_self) hw
  | warmedUp hstream =>
    have hv := streamEvent_client hdecoder hstream (hok _ List.mem_cons_self) hw
    exact hv
  | complete hstream hcomplete =>
    have hv := streamEvent_client hdecoder hstream (hok _ List.mem_cons_self) hw
    exact hv
  | cancel => exact hw
  | terminate hexited => exact hflag w false hw

end

theorem moves_fixed {e : Event} (hj : Joined c w) (h : Moves c w e w') :
    Fixed w.limiter.stack w'.limiter.stack := by
  have hsame : Fixed w.limiter.stack w.limiter.stack := ⟨rfl, rfl, fun _ ht => ht⟩
  cases h with
  | ready hstage => exact hsame
  | warmUp hstage hwarmup hstart hstarted hkeys => exact hsame
  | stop hpoll hstep hstatus hended hmatched hinit => cases hpoll <;> exact hsame
  | serve hpoll hstep hstatus hloop hmatched hinit =>
    have hfixed := (loop_metered ((hpoll.joined hj).metered.later _) hloop).2
    cases hpoll <;> exact hfixed
  | ongoing hstream =>
    rw [(streamEvent_frame hstream).2.1]
    exact hsame
  | warmedUp hstream =>
    simp only [(streamEvent_frame hstream).2.1]
    exact hsame
  | complete hstream hcomplete =>
    simp only [ClientWorkerImpl.updateApproximateMonotonicTime, (streamEvent_frame hstream).2.1]
    exact hsame
  | cancel => exact hsame
  | terminate hexited => exact hsame

end Nighthawk.Worker

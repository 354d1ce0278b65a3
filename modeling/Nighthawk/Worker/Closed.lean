import Nighthawk.Worker.Duration

/-!
# The worker refuses nothing

The model of each part says what the others may do to it: the sequencer only accepts callbacks that
it waits for, a limiter only takes back what it has just granted. Put together, the parts keep to
this, so that only Envoy's own contract is left as an assumption.
-/

namespace Nighthawk.Worker

open BenchmarkClient (StreamEvent)
open Options (OptionsImpl)
open RateLimiter (Session)
open Sequencer (SequencerImpl Balanced)
open Sequencer.SequencerImpl (Attempt Script)

variable {c : Config} {s : SequencerImpl} {w w' : ClientWorkerImpl}

/-! ## Decoder calls -/

def Arrival.toClient (a : ClientWorkerImpl.Arrival) : BenchmarkClient.Event := .stream a.id a.event

theorem exists_streamEvent (hm : Matched s w) {id : ℕ} {e : StreamEvent} {b : BenchmarkClient.Benchmark}
    (h : BenchmarkClient.step c.client w.benchmark (.stream id e) = some b) :
    ∃ w' r, w.streamEvent c id e = some (w', r) ∧ w'.benchmark = b := by
  unfold ClientWorkerImpl.streamEvent
  rw [h, Option.bind_some]
  split_ifs
  · exact ⟨_, _, rfl, rfl⟩
  · -- A stream that can end holds a callback.
    obtain ⟨st, hlookup, -, -⟩ := BenchmarkClient.step_stream h
    have hmem : id ∈ w.callbacks.map Prod.fst := by
      rw [hm.streams]
      exact List.mem_map_of_mem (BenchmarkClient.mem_of_lookup hlookup)
    cases hcallback : w.callbacks.lookup id with
    | none =>
      obtain ⟨p, hp, rfl⟩ := List.mem_map.mp hmem
      simpa using List.lookup_eq_none_iff.mp hcallback p hp
    | some callback => exact ⟨_, _, rfl, rfl⟩

theorem exists_inlineEvents {k : ℕ} {arrivals : List ClientWorkerImpl.Arrival} {b : BenchmarkClient.Benchmark}
    (hm : Matched s w) (hb : Balanced k s) (hwarmed : WarmedUp w)
    (h : Runs.exec (BenchmarkClient.step c.client) w.benchmark (arrivals.map Arrival.toClient) = some b) :
    ∃ r, w.inlineEvents c arrivals = some r := by
  induction arrivals generalizing s w with
  | nil => exact ⟨_, rfl⟩
  | cons a rest ih =>
    obtain ⟨b₁, hb₁, hrest⟩ := (Runs.exec_cons_eq_some _).mp h
    obtain ⟨w₁, r, hstream, rfl⟩ := exists_streamEvent hm hb₁
    have hwarmed₁ := streamEvent_warmedUp hwarmed hstream
    unfold ClientWorkerImpl.inlineEvents
    rw [hstream]
    rcases r with _ | _ | id
    · exact ih (hm.ongoing hstream) hb hwarmed₁ hrest
    · exact absurd rfl (hwarmed _ (mem_of_ended hstream))
    · obtain ⟨t, ht, hmatched⟩ :=
        hm.complete hb.distinct hstream (w₁.updateApproximateMonotonicTime a.gap).limiter.time
      have hlater : Matched t (w₁.updateApproximateMonotonicTime a.gap) := hmatched.congr rfl rfl rfl rfl
      obtain ⟨r, hr⟩ := ih hlater (Sequencer.complete_balanced hb ht) hwarmed₁ hrest
      exact ⟨_, Option.map_eq_some_iff.mpr ⟨r, hr, rfl⟩⟩

theorem exists_start (c : Config) (b : BenchmarkClient.Benchmark) (pool : Bool)
    (request : Option BenchmarkClient.Request)
    (now : ℤ) : ∃ b', BenchmarkClient.step c.client b (.tryStartRequest pool request now) = some b' := by
  simp only [BenchmarkClient.step]
  split <;> exact ⟨_, rfl⟩

/-! ## Turns -/

/-- The jitter is from the sampler's range, and the decoder calls before the target returns keep
to Envoy's contract. -/
def Turn.Lawful (c : Config) (w : ClientWorkerImpl) (t : ClientWorkerImpl.Turn) : Prop :=
  t.delay ≤ w.limiter.maxDelay ∧
    ∀ b, BenchmarkClient.step c.client w.benchmark (.tryStartRequest t.pool t.request t.now) = some b →
      b.started ≠ w.benchmark.started →
        Runs.exec (BenchmarkClient.step c.client) b (t.inline.map Arrival.toClient) ≠ none

/-- Every turn is lawful when the loop gets to it. -/
def Lawful (c : Config) (w : ClientWorkerImpl) (calls : ℕ) : List ClientWorkerImpl.Turn → Prop
  | [] => True
  | t :: rest => Turn.Lawful c w t ∧ ∀ w' a, w.turn c calls t = some (w', some a) → a.accepts = true →
      Lawful c w' (calls + 1) rest

/-- The loop ends within these turns. -/
def Ends (c : Config) (w : ClientWorkerImpl) (calls : ℕ) : List ClientWorkerImpl.Turn → Prop
  | [] => False
  | t :: rest => ∀ w' a, w.turn c calls t = some (w', some a) → a.accepts = true → Ends c w' (calls + 1) rest

theorem exists_turn {n : ℕ} {t : ClientWorkerImpl.Turn} (hm : Matched s w) (hb : Balanced 0 s)
    (hwarmed : WarmedUp w)
    (hmetered : Metered n w.limiter) (h : Turn.Lawful c w t) : ∃ r, w.turn c s.calls t = some r := by
  obtain ⟨hdelay, hinline⟩ := h
  unfold ClientWorkerImpl.turn
  have hacquire : ∃ l, Session.step w.limiter (.tryAcquireOne [] t.delay) = some l :=
    ⟨_, if_pos ⟨hdelay, hmetered.counted.clean⟩⟩
  obtain ⟨l, hl⟩ := hacquire
  rw [hl, Option.bind_some]
  have hafter := hmetered.acquire hl
  cases hmay : l.mayRelease with
  | false => exact ⟨_, rfl⟩
  | true =>
    simp only [Bool.not_true, Bool.false_eq_true, if_false]
    obtain ⟨b, hstart⟩ := exists_start c w.benchmark t.pool t.request t.now
    unfold ClientWorkerImpl.tryStartRequest
    rw [hstart, Option.map_some, Option.bind_some]
    by_cases hsame : b.started = w.benchmark.started
    · obtain ⟨l', hl'⟩ : ∃ l', l.step (.releaseOne []) = some l' := ⟨_, if_pos ⟨hmay, hafter.counted.clean⟩⟩
      simp only [hsame, if_true, Bool.false_eq_true, if_false, hl', Option.map_some]
      exact ⟨_, rfl⟩
    · obtain rfl | ⟨d, -, -, -, -, hb'⟩ := BenchmarkClient.step_tryStartRequest hstart
      · exact absurd rfl hsame
      have hstarted : b.started = w.benchmark.started + 1 := by rw [hb']
      have hkeys : b.streams.map Prod.fst =
        w.benchmark.started :: w.benchmark.streams.map Prod.fst := by rw [hb']; rfl
      obtain ⟨b', hb''⟩ := Option.ne_none_iff_exists'.mp (hinline b hstart hsame)
      have htaken : WarmedUp (taken w l b s.calls) := List.forall_mem_cons.mpr ⟨by simp, hwarmed⟩
      obtain ⟨r, hr⟩ := exists_inlineEvents (hm.taken hstarted hkeys l 0)
        (Sequencer.call_balanced hb 0) htaken hb''
      simp only [hsame, if_false, if_true]
      exact ⟨_, Option.map_eq_some_iff.mpr ⟨r, hr, rfl⟩⟩

theorem exists_loop {n : ℕ} {turns : List ClientWorkerImpl.Turn} (hm : Matched s w) (hb : Balanced 0 s)
    (hwarmed : WarmedUp w) (hmetered : Metered n w.limiter) (hlawful : Lawful c w s.calls turns)
    (hends : Ends c w s.calls turns) : ∃ r, w.loop c s.calls turns = some r := by
  induction turns generalizing s w n with
  | nil => cases hends
  | cons t rest ih =>
    obtain ⟨hlawful, hrest⟩ := hlawful
    obtain ⟨⟨w₁, r⟩, hone⟩ := exists_turn hm hb hwarmed hmetered hlawful
    unfold ClientWorkerImpl.loop
    rw [hone, Option.bind_some]
    cases r with
    | none => exact ⟨_, rfl⟩
    | some a =>
      simp only
      split_ifs with haccepts
      · obtain ⟨u, hu, hmatched, hcalls, -⟩ := turn_matched hm hb hone 0
        obtain ⟨r, hr⟩ := ih hmatched (Sequencer.attempt_balanced hb hu) (turn_warmedUp hwarmed hone)
          (turn_metered hmetered hone).1 (by rw [hcalls]; exact hrest w₁ a hone haccepts)
          (by rw [hcalls]; exact hends w₁ a hone haccepts)
        rw [hcalls] at hr
        exact ⟨_, Option.map_eq_some_iff.mpr ⟨r, hr, rfl⟩⟩
      · exact ⟨_, rfl⟩

/-- Each turn that goes on takes one of the acquisitions that are due, and while the clock stands
still no more become due. -/
theorem ends_of_quiet {n calls requestsPerSecond : ℕ} {startingTime : ℤ} {turns : List ClientWorkerImpl.Turn}
    (hrps : 0 < requestsPerSecond) (hmetered : Metered n w.limiter)
    (hstarts : RateLimiter.starts w.limiter.stack = [startingTime])
    (hfrequency : (RateLimiter.bottom w.limiter.stack).frequency = ⟨requestsPerSecond⟩)
    (hquiet : ∀ a ∈ turns.flatMap (·.inline), a.event.ends = false)
    (hlong : (RateLimiter.LinearRateLimiter.due ⟨requestsPerSecond⟩ (w.limiter.time - startingTime)).toNat <
      n + turns.length) : Ends c w calls turns := by
  induction turns generalizing w n calls with
  | nil =>
    have hle := hmetered.le_due hrps hstarts hfrequency hmetered.counted.valid
    exact absurd hlong (Nat.not_lt.mpr hle)
  | cons t rest ih =>
    intro w' a hone haccepts
    obtain ⟨hmetered', hfixed⟩ := turn_metered hmetered hone
    have htime := turn_time (fun b hb => hquiet b (List.mem_append_left _ hb)) hone
    rw [Option.elim_some, accepted, if_pos haccepts] at hmetered'
    apply ih hmetered' (hfixed.starts.trans hstarts) (hfixed.frequency.trans hfrequency)
    · exact fun b hb => hquiet b (List.mem_append_right _ hb)
    · rw [htime]
      rw [List.length_cons] at hlong
      omega

/-! ## Runs of the sequencer -/

/-- The timer of the event is armed. -/
def Armed (s : SequencerImpl) : Event → Prop
  | .start _ => True
  | .periodicTimer _ => s.periodicTimer = some true
  | .spinTimer _ => s.spinTimer = some true
  | _ => False

theorem Polls.wakes {e : Event} {p : ClientWorkerImpl.Poll} {event : Script → Sequencer.Event}
    {u : ClientWorkerImpl}
    (hpoll : Polls w e p event u) (hj : Joined c w) (harmed : Armed w.sequencer e) :
    ∃ fromPeriodic periodic spin, Sequencer.Live (!fromPeriodic) (Sequencer.woken u.sequencer periodic spin) ∧
      ∀ r, Sequencer.step u.sequencer (event r) =
        (Sequencer.woken u.sequencer periodic spin).run fromPeriodic r := by
  have hphase := hj.phase
  cases hpoll with
  | start hstage p =>
    obtain ⟨i, h⟩ := fresh_of_not_started hphase (hj.waiting (by simp [hstage]))
    refine ⟨false, some true, some false, ?_, fun r => ?_⟩
    · show Sequencer.Live _ (Sequencer.woken w.sequencer _ _)
      rw [h]
      exact ⟨rfl, rfl, rfl, by simp [Sequencer.woken], rfl, by simp [Sequencer.woken], rfl, rfl, rfl⟩
    · show Sequencer.step w.sequencer _ = (Sequencer.woken w.sequencer _ _).run _ _
      rw [h]
      rfl
  | periodicTimer hstage p =>
    change w.sequencer.periodicTimer = some true at harmed
    cases hphase with
    | fresh i h => simp [h] at harmed
    | live h =>
      refine ⟨true, some false, w.sequencer.spinTimer, ?_, fun r => ?_⟩
      · rw [h.woken_eq]
        exact { h with periodic := rfl }
      · rw [h.woken_eq]
        exact if_pos harmed
    | ended status h => simp [h.periodic] at harmed
  | spinTimer hstage p =>
    change w.sequencer.spinTimer = some true at harmed
    cases hphase with
    | fresh i h => simp [h] at harmed
    | live h =>
      refine ⟨false, w.sequencer.periodicTimer, some false, ?_, fun r => ?_⟩
      · rw [h.woken_eq]
        exact { h with spin := by simp }
      · rw [h.woken_eq]
        exact if_pos harmed
    | ended status h => simp [h.spin] at harmed

theorem exists_run {fromPeriodic : Bool} {r : Script} (hstatus : s.lastTerminationStatus = .proceed)
    (hloop : Sequencer.evaluateChain r.predicates = .proceed →
      ∃ t, (Sequencer.entered s r).loop r.now r.attempts = some t) :
    ∃ t, s.run fromPeriodic r = some t := by
  change ∃ t, (if (Sequencer.entered s r).lastTerminationStatus ≠ .proceed then
      some ((Sequencer.entered s r).stop ((Sequencer.entered s r).lastTerminationStatus = .fail))
    else ((Sequencer.entered s r).loop r.now r.attempts).map (·.reschedule fromPeriodic)) = some t
  rw [Sequencer.entered_status hstatus]
  split_ifs with hend
  · exact ⟨_, rfl⟩
  · obtain ⟨t, ht⟩ := hloop (not_not.mp hend)
    exact ⟨_, Option.map_eq_some_iff.mpr ⟨t, ht, rfl⟩⟩

theorem Polls.exists_run {e : Event} {p : ClientWorkerImpl.Poll} {event : Script → Sequencer.Event}
    {u : ClientWorkerImpl}
    (hpoll : Polls w e p event u) (hj : Joined c w) (harmed : Armed w.sequencer e)
    (hlawful : Sequencer.evaluateChain ((u.updateApproximateMonotonicTime p.gap).predicates c p) = .proceed →
      Lawful c (u.updateApproximateMonotonicTime p.gap) u.sequencer.calls p.turns ∧
        Ends c (u.updateApproximateMonotonicTime p.gap) u.sequencer.calls p.turns) :
    ∃ w', u.run c event p = some w' := by
  have hu := hpoll.joined hj
  obtain ⟨fromPeriodic, periodic, spin, hlive, hstep⟩ := hpoll.wakes hj harmed
  have hstatus : u.sequencer.lastTerminationStatus = .proceed := hlive.status
  let u₁ := u.updateApproximateMonotonicTime p.gap
  have hmatched : Matched u.sequencer u₁ := hu.matched.congr rfl rfl rfl rfl
  obtain ⟨⟨u₂, attempts⟩, hserve, hcan⟩ : ∃ r, u₁.serve c (u₁.predicates c p) p.turns = some r ∧
      (Sequencer.evaluateChain (u₁.predicates c p) = .proceed →
        u₁.loop c u.sequencer.calls p.turns = some r) := by
    unfold ClientWorkerImpl.serve
    rw [show u₁.sequencer = u.sequencer from rfl, evaluate_status hstatus]
    split_ifs with hend
    · exact ⟨_, rfl, fun hproceed => absurd hproceed hend⟩
    · have hwarmed : WarmedUp u₁ := hu.warmedUp (by simp [hpoll.stage])
      obtain ⟨hlawful, hends⟩ := hlawful (not_not.mp hend)
      obtain ⟨r, hr⟩ := exists_loop hmatched hu.balanced hwarmed (hu.metered.later p.gap) hlawful hends
      exact ⟨r, hr, fun _ => hr⟩
  obtain ⟨t, ht⟩ : ∃ t,
    Sequencer.step u.sequencer (event ⟨u₁.limiter.time, u₁.predicates c p, attempts⟩) = some t := by
    rw [hstep]
    apply Worker.exists_run hlive.status
    intro hproceed
    obtain ⟨houtstanding, hcalls, -, hbalanced⟩ := entered_frame (Sequencer.woken u.sequencer periodic spin)
      ⟨u₁.limiter.time, u₁.predicates c p, attempts⟩
    have hentered := hmatched.congr (t := Sequencer.entered (Sequencer.woken u.sequencer periodic spin)
      ⟨u₁.limiter.time, u₁.predicates c p, attempts⟩) houtstanding rfl rfl rfl
    obtain ⟨t, ht, -⟩ := loop_matched hentered (hbalanced (Sequencer.balanced_of_books hu.balanced rfl))
      (by rw [hcalls]; exact hcan hproceed) u₁.limiter.time
    exact ⟨t, ht⟩
  refine ⟨{ u₂ with sequencer := t }, ?_⟩
  unfold ClientWorkerImpl.run
  exact Option.bind_eq_some_iff.mpr ⟨_, hserve, Option.map_eq_some_iff.mpr ⟨t, ht, rfl⟩⟩

theorem Polls.frame {e : Event} {p : ClientWorkerImpl.Poll} {event : Script → Sequencer.Event}
    {u : ClientWorkerImpl}
    (h : Polls w e p event u) : u.limiter = w.limiter ∧ u.sequencer = w.sequencer := by
  cases h <;> exact ⟨rfl, rfl⟩

/-- The turns are enough to end the loop, or no target call completes before it returns and there are
more turns than the rate allows targets since the starting time. -/
def Enough (o : OptionsImpl) (startingTime : ℤ) (c : Config) (w : ClientWorkerImpl)
    (turns : List ClientWorkerImpl.Turn) : Prop :=
  Ends c w w.sequencer.calls turns ∨
    (∀ a ∈ turns.flatMap (·.inline), a.event.ends = false) ∧
      (RateLimiter.LinearRateLimiter.due ⟨o.requestsPerSecond.toNat⟩ (w.limiter.time - startingTime)).toNat <
        w.sequencer.targetsInitiated + turns.length

/-- Whatever state a run leads to, the worker handles every decoder call that Envoy's contract
allows, and its sequencer gets through every run that its timers or its start lead to, if the turns
are lawful and enough. -/
theorem worker_serves {o : OptionsImpl} {startingTime time : ℤ} {w₀ : ClientWorkerImpl} {es : List Event}
    (hw : construct o startingTime time = some (.ok w₀)) (hrun : Runs.exec (step c) w₀ es = some w) :
    (∀ a, BenchmarkClient.step c.client w.benchmark (Arrival.toClient a) ≠ none →
      step c w (.stream a) ≠ none) ∧
      ∀ e p event u, Polls w e p event u → Armed w.sequencer e →
        (Sequencer.evaluateChain ((u.updateApproximateMonotonicTime p.gap).predicates c p) = .proceed →
          Lawful c (u.updateApproximateMonotonicTime p.gap) u.sequencer.calls p.turns ∧
            Enough o startingTime c (u.updateApproximateMonotonicTime p.gap) p.turns) →
        step c w e ≠ none := by
  have hj := run_joined hw hrun
  constructor
  · intro a ha
    obtain ⟨b, hb⟩ := Option.ne_none_iff_exists'.mp ha
    obtain ⟨v, r, hstream, -⟩ := exists_streamEvent hj.matched hb
    simp only [step, hstream]
    rcases r with _ | _ | id
    · simp
    · simp
    · obtain ⟨t, ht, -⟩ := hj.matched.complete hj.balanced.distinct hstream
        (v.updateApproximateMonotonicTime a.gap).limiter.time
      have hsequencer : (v.updateApproximateMonotonicTime a.gap).sequencer = w.sequencer :=
        (streamEvent_frame hstream).2.2.1
      simp only [hsequencer, Sequencer.step, ht, Option.map_some]
      simp
  · intro e p event u hpoll harmed henough
    have hends : Enough o startingTime c (u.updateApproximateMonotonicTime p.gap) p.turns →
        Ends c (u.updateApproximateMonotonicTime p.gap) u.sequencer.calls p.turns := by
      rintro (hends | ⟨hquiet, hlong⟩)
      · exact hends
      · obtain ⟨stack, hstack, rfl⟩ := construct_spec hw
        obtain ⟨-, -, hstarts, hfrequency⟩ := RateLimiter.create_spec hstack time
        have hfixed := run_fixed hw hrun
        rw [← hpoll.frame.1] at hfixed
        exact ends_of_quiet (RateLimiter.create_positive hstack) ((hpoll.joined hj).metered.later p.gap)
          (hfixed.starts.trans hstarts) (hfixed.frequency.trans hfrequency) hquiet hlong
    obtain ⟨w', hw'⟩ := hpoll.exists_run hj harmed fun hproceed =>
      ⟨(henough hproceed).1, hends (henough hproceed).2⟩
    rw [Option.ne_none_iff_exists']
    refine ⟨w', ?_⟩
    cases hpoll with
    | start hstage p => exact (if_pos hstage).trans hw'
    | periodicTimer hstage p => exact hw'
    | spinTimer hstage p => exact hw'

/-- The start of the sequencer, with a turn for which nothing is due, and a reset of the stream that
`exchange` has opened. -/
theorem worker_serves_reset :
    ∃ c w₀ w₁ w₃, configure slow 0 0 (fun _ _ => true) = some c ∧ construct slow 0 0 = some (.ok w₀) ∧
      Runs.exec (step c) w₀ (exchange.take 1) = some w₁ ∧ Runs.exec (step c) w₀ (exchange.take 3) = some w₃ ∧
      step c w₁ (.start ⟨0, fun _ => 0, [.plain []]⟩) ≠ none ∧
      step c w₃ (.stream ⟨0, .onResetStream .remoteReset 2 2, 3⟩) ≠ none := by
  obtain ⟨c, hc⟩ : ∃ c, configure slow 0 0 (fun _ _ => true) = some c := ⟨_, rfl⟩
  obtain ⟨w₀, hw⟩ : ∃ w₀, construct slow 0 0 = some (.ok w₀) := ⟨_, rfl⟩
  have hstarted : (Runs.exec (step c) w₀ (exchange.take 1)).map (fun w =>
      (w.stage, w.limiter.time, w.sequencer.targetsInitiated)) = some (.ready, 0, 0) := by
    cases hc
    cases hw
    decide +kernel
  have hmap : (Runs.exec (step c) w₀ (exchange.take 3)).map (fun w =>
    (BenchmarkClient.step c.client w.benchmark
      (.stream 0 (.onResetStream .remoteReset 2 2))).isSome) = some true := by
    cases hc
    cases hw
    decide +kernel
  obtain ⟨w₁, hrun₁, heq⟩ := Option.map_eq_some_iff.mp hstarted
  obtain ⟨hstage, htime, hinitiated⟩ := by simpa only [Prod.mk.injEq] using heq
  obtain ⟨w₃, hrun₃, hallowed⟩ := Option.map_eq_some_iff.mp hmap
  refine ⟨c, w₀, w₁, w₃, hc, hw, hrun₁, hrun₃, ?_, (worker_serves hw hrun₃).1 _ ?_⟩
  · refine (worker_serves hw hrun₁).2 _ _ _ _ (.start hstage _) trivial fun _ =>
      ⟨⟨?_, fun _ _ _ _ => trivial⟩, Or.inr ?_⟩
    · exact ⟨Nat.zero_le _, fun b _ _ => by simp [ClientWorkerImpl.Turn.plain]⟩
    · refine ⟨by simp [ClientWorkerImpl.Turn.plain], ?_⟩
      simp only [ClientWorkerImpl.updateApproximateMonotonicTime, ClientWorkerImpl.setShouldMeasureLatencies,
        htime, hinitiated]
      decide +kernel
  · rw [← Option.isSome_iff_ne_none]
    exact hallowed

end Nighthawk.Worker

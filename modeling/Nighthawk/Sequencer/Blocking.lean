import Mathlib.Algebra.Order.Ring.Int
import Mathlib.Data.List.Pairwise
import Nighthawk.Lib.Stopwatch
import Nighthawk.Sequencer.Shutdown

/-!
# Blocked time

The sequencer is blocked from a refused target call on. `run` takes the time at which it was
entered as the end of that, while a refused call takes the cached time, which completions inside
target calls may have refreshed since.
-/

namespace Nighthawk.Sequencer

/-! ## What the events say -/

/-- A refused call at a time, an accepted call in a run that was entered at a time, or a stop. -/
inductive Moment where
  | refused (time : ℤ)
  | accepted (entered : ℤ)
  | stopped (time : ℤ)
  deriving DecidableEq, Repr

namespace Moment

def mark : Moment → Stopwatch.Mark ℤ
  | refused time => .start time
  | accepted entered => .stop entered
  | stopped time => .stop time

def time (m : Moment) : ℤ := m.mark.time

end Moment

namespace SequencerImpl

/-- The times of the completions that a target call makes before it returns. -/
def Attempt.times (a : Attempt) : List ℤ := a.completions.map Prod.snd

/-- The moments of the loop, with the cached time when it is entered. -/
def attemptMoments (now : ℤ) : ℤ → List Attempt → List Moment
  | _, [] => []
  | time, a :: rest =>
    let time := a.times.getLastD time
    if a.accepts then .accepted now :: attemptMoments now time rest else [.refused time]

def Script.moments (r : Script) : List Moment :=
  if evaluateChain r.predicates = .proceed then attemptMoments r.now r.now r.attempts else [.stopped r.now]

/-- The times that the clock shows when a run refreshes the cached time. -/
def Script.clock (r : Script) : List ℤ :=
  r.now :: if evaluateChain r.predicates = .proceed then r.attempts.flatMap Attempt.times else []

end SequencerImpl

open SequencerImpl (Attempt Script attemptMoments)

def Event.moments : Event → List Moment
  | .start r => r.moments
  | .periodicTimer r => r.moments
  | .spinTimer r => r.moments
  | .completion _ _ => []

def Event.clock : Event → List ℤ
  | .start r => r.clock
  | .periodicTimer r => r.clock
  | .spinTimer r => r.clock
  | .completion _ time => [time]

theorem Event.Runs.moments_eq {e : Event} {r : Script} (h : e.Runs r) : e.moments = r.moments := by
  cases e with
  | completion id time => cases h
  | _ => exact congrArg Script.moments h

def moments (events : List Event) : List Moment := events.flatMap Event.moments

def clock (events : List Event) : List ℤ := events.flatMap Event.clock

/-- The intervals in which the sequencer is blocked. -/
def blockedIntervals (events : List Event) : List (ℤ × ℤ) :=
  (Stopwatch.after Moment.mark (moments events)).intervals

/-! ## The statistic is a stopwatch -/

/-- The sequencer has recorded these moments. -/
structure Records (ms : List Moment) (s : SequencerImpl) : Prop where
  statistic : s.blockedStatistic = (Stopwatch.after Moment.mark ms).intervals.map fun i => i.2 - i.1
  pending : (Stopwatch.after Moment.mark ms).pending = if s.blocked then some s.blockedStart else none

/-- The members that the blocked time is about. -/
def blocking (s : SequencerImpl) : List ℤ × Bool × ℤ := (s.blockedStatistic, s.blocked, s.blockedStart)

variable {ms : List Moment} {s t : SequencerImpl}

theorem Records.of_blocking (h : Records ms s) (heq : blocking t = blocking s) : Records ms t := by
  simp only [blocking, Prod.mk.injEq] at heq
  obtain ⟨h1, h2, h3⟩ := heq
  refine ⟨?_, ?_⟩
  · rw [h1]
    exact h.statistic
  · rw [h2, h3]
    exact h.pending

@[simp] theorem blocking_scheduleSpin (s : SequencerImpl) : blocking s.scheduleSpin = blocking s := by
  unfold SequencerImpl.scheduleSpin
  split <;> rfl

theorem scheduleSpin_time (s : SequencerImpl) : s.scheduleSpin.monotonicTime = s.monotonicTime := by
  unfold SequencerImpl.scheduleSpin
  split <;> rfl

@[simp] theorem blocking_scheduleRun (s : SequencerImpl) : blocking s.scheduleRun = blocking s := by
  unfold SequencerImpl.scheduleRun
  split <;> rfl

theorem scheduleSpin_running (s : SequencerImpl) : s.scheduleSpin.running = s.running := by
  unfold SequencerImpl.scheduleSpin
  split <;> rfl

@[simp] theorem blocking_assert (s : SequencerImpl) (c : Bool) (text : String) :
    blocking (s.assert c text) = blocking s := by
  unfold SequencerImpl.assert
  split <;> rfl

@[simp] theorem blocking_reschedule (s : SequencerImpl) (p : Bool) :
    blocking (s.reschedule p) = blocking s := by
  unfold SequencerImpl.reschedule
  split_ifs <;> simp

theorem Records.unblock (h : Records ms s) {m : Moment} {now : ℤ} (hm : m.mark = .stop now) :
    Records (ms ++ [m]) (s.unblockAndUpdateStatisticIfNeeded now) := by
  have hpending := h.pending
  unfold SequencerImpl.unblockAndUpdateStatisticIfNeeded
  split_ifs with hblocked
  · rw [if_pos hblocked] at hpending
    constructor
    · rw [Stopwatch.after_snoc, hm, Stopwatch.press, hpending]
      simp [h.statistic]
    · rw [Stopwatch.after_snoc, hm, Stopwatch.press, hpending]
      rfl
  · rw [if_neg hblocked] at hpending
    constructor
    · rw [Stopwatch.after_snoc, hm, Stopwatch.press, hpending]
      exact h.statistic
    · rw [Stopwatch.after_snoc, hm, Stopwatch.press, hpending, if_neg hblocked]
      exact hpending

theorem Records.block (h : Records ms s) :
    Records (ms ++ [.refused s.monotonicTime]) s.updateStartBlockingTimeIfNeeded := by
  have hpending := h.pending
  unfold SequencerImpl.updateStartBlockingTimeIfNeeded
  split_ifs with hblocked
  · rw [if_pos hblocked] at hpending
    constructor
    · rw [Stopwatch.after_snoc]
      exact h.statistic
    · rw [Stopwatch.after_snoc, if_pos hblocked]
      simp [Moment.mark, Stopwatch.press, hpending]
  · rw [if_neg hblocked] at hpending
    constructor
    · rw [Stopwatch.after_snoc]
      exact h.statistic
    · rw [Stopwatch.after_snoc]
      simp [Moment.mark, Stopwatch.press, hpending]

theorem unblock_blocking (h : blocking s = blocking t) (now : ℤ) :
    blocking (s.unblockAndUpdateStatisticIfNeeded now) =
      blocking (t.unblockAndUpdateStatisticIfNeeded now) := by
  have heq := h
  simp only [blocking, Prod.mk.injEq] at heq
  unfold SequencerImpl.unblockAndUpdateStatisticIfNeeded
  rw [heq.2.1]
  split_ifs
  · simp only [blocking, heq]
  · exact h

theorem assert_time (s : SequencerImpl) (c : Bool) (text : String) :
    (s.assert c text).monotonicTime = s.monotonicTime := by
  unfold SequencerImpl.assert
  split <;> rfl

theorem stop_eq_unblock (s : SequencerImpl) (failed : Bool) :
    ∃ u : SequencerImpl, blocking u = blocking s ∧ u.monotonicTime = s.monotonicTime ∧
      s.stop failed = (u.unblockAndUpdateStatisticIfNeeded u.monotonicTime).log (.stopped failed) := by
  unfold SequencerImpl.stop
  refine ⟨_, ?_, ?_, rfl⟩
  · split_ifs <;> exact blocking_assert s _ _
  · split_ifs <;> exact assert_time s _ _

theorem stop_blocking (s : SequencerImpl) (failed : Bool) :
    blocking (s.stop failed) = blocking (s.unblockAndUpdateStatisticIfNeeded s.monotonicTime) := by
  obtain ⟨u, hblocking, htime, hstop⟩ := stop_eq_unblock s failed
  rw [hstop, ← htime]
  exact unblock_blocking hblocking _

theorem Records.stop (h : Records ms s) (failed : Bool) :
    Records (ms ++ [.stopped s.monotonicTime]) (s.stop failed) :=
  (h.unblock (m := .stopped s.monotonicTime) rfl).of_blocking (stop_blocking s failed)

theorem unblock_time (s : SequencerImpl) (now : ℤ) :
    (s.unblockAndUpdateStatisticIfNeeded now).monotonicTime = s.monotonicTime := by
  unfold SequencerImpl.unblockAndUpdateStatisticIfNeeded
  split <;> rfl

theorem updateStartBlocking_time (s : SequencerImpl) :
    s.updateStartBlockingTimeIfNeeded.monotonicTime = s.monotonicTime := by
  unfold SequencerImpl.updateStartBlockingTimeIfNeeded
  split <;> rfl

theorem complete_blocking {id : ℕ} {time : ℤ} (ht : s.complete id time = some t) :
    blocking t = blocking s ∧ t.monotonicTime = time := by
  unfold SequencerImpl.complete at ht
  split at ht
  · cases ht
  · simp only [Option.some.injEq] at ht
    rw [← ht]
    split_ifs
    · exact ⟨blocking_scheduleSpin _, scheduleSpin_time _⟩
    · exact ⟨rfl, rfl⟩

theorem complete_running {id : ℕ} {time : ℤ} (ht : s.complete id time = some t) : t.running = s.running := by
  unfold SequencerImpl.complete at ht
  split at ht
  · cases ht
  · simp only [Option.some.injEq] at ht
    rw [← ht]
    split_ifs
    · exact scheduleSpin_running _
    · rfl

theorem completeAll_blocking {cs : List (ℕ × ℤ)} (ht : s.completeAll cs = some t) :
    blocking t = blocking s ∧ t.monotonicTime = (cs.map Prod.snd).getLastD s.monotonicTime := by
  induction cs generalizing s with
  | nil =>
    cases ht
    exact ⟨rfl, rfl⟩
  | cons c cs ih =>
    obtain ⟨u, hu, ht⟩ := Option.bind_eq_some_iff.mp ht
    obtain ⟨hblocking, htime⟩ := complete_blocking hu
    obtain ⟨hrest, hlast⟩ := ih ht
    refine ⟨hrest.trans hblocking, ?_⟩
    rw [hlast, htime, List.map_cons, List.getLastD_cons]

theorem Records.attempt (h : Records ms s) {now : ℤ} {a : Attempt} (ht : s.attempt now a = some t) :
    Records (ms ++ [if a.accepts then .accepted now else .refused (a.times.getLastD s.monotonicTime)]) t ∧
      t.monotonicTime = a.times.getLastD s.monotonicTime := by
  unfold SequencerImpl.attempt at ht
  obtain ⟨u, hu, ht⟩ := Option.bind_eq_some_iff.mp ht
  obtain ⟨hblocking, htime⟩ := completeAll_blocking hu
  have hrecords : Records ms u := h.of_blocking (hblocking.trans rfl)
  have htime : u.monotonicTime = a.times.getLastD s.monotonicTime := htime
  split_ifs at ht ⊢ with haccepts
  · cases ht
    have hlog : Records ms (u.log (.accepted s.calls)) := hrecords.of_blocking rfl
    exact ⟨(hlog.unblock rfl).of_blocking rfl, (unblock_time _ now).trans htime⟩
  · cases ht
    rw [← htime]
    have hdropped : Records ms
        { u.log (.refused s.calls) with outstanding := u.outstanding.filter (·.id ≠ s.calls) } :=
      hrecords.of_blocking rfl
    exact ⟨hdropped.block.of_blocking rfl, updateStartBlocking_time _⟩

theorem Records.loop (h : Records ms s) {now : ℤ} {attempts : List Attempt}
    (ht : s.loop now attempts = some t) :
    Records (ms ++ attemptMoments now s.monotonicTime attempts) t := by
  induction attempts generalizing ms s with
  | nil =>
    cases ht
    rw [attemptMoments, List.append_nil]
    exact h.of_blocking rfl
  | cons a rest ih =>
    obtain ⟨u, hu, ht⟩ := Option.bind_eq_some_iff.mp ht
    obtain ⟨hrecords, htime⟩ := h.attempt hu
    simp only [attemptMoments]
    rw [← htime] at hrecords ⊢
    split_ifs at ht hrecords ⊢
    · have hrest := ih hrecords ht
      rwa [List.append_assoc] at hrest
    · cases ht
      exact hrecords

theorem entered_blocking (s : SequencerImpl) (r : Script) :
    blocking (entered s r) = blocking s ∧ (entered s r).monotonicTime = r.now := by
  unfold entered SequencerImpl.evaluate
  split
  · exact ⟨blocking_assert s _ _, rfl⟩
  · exact ⟨blocking_assert s _ _, rfl⟩

theorem Records.run (h : Records ms s) (hstatus : s.lastTerminationStatus = .proceed) {p : Bool} {r : Script}
    (ht : s.run p r = some t) : Records (ms ++ r.moments) t := by
  obtain ⟨hblocking, htime⟩ := entered_blocking s r
  have hentered : Records ms (entered s r) := h.of_blocking hblocking
  unfold Script.moments
  rcases run_cases hstatus ht with ⟨hend, rfl⟩ | ⟨hproceed, u, hu, rfl⟩
  · rw [if_neg hend, ← htime]
    exact hentered.stop _
  · rw [if_pos hproceed]
    have hloop := hentered.loop hu
    rw [htime] at hloop
    exact hloop.of_blocking (blocking_reschedule u p)

theorem Records.step (h : Records ms s) (hphase : Phase s) {e : Event} (ht : step s e = some t) :
    Records (ms ++ e.moments) t := by
  rcases step_cases hphase ht with ⟨id, time, rfl, hcomplete⟩ | ⟨p, r, periodicTimer, spinTimer,
    hruns, hlive, hrun⟩
  · rw [Event.moments, List.append_nil]
    exact h.of_blocking (complete_blocking hcomplete).1
  · have hwoken : Records ms (woken s periodicTimer spinTimer) := h.of_blocking rfl
    rw [hruns.moments_eq]
    exact hwoken.run hlive.status hrun

/-! ## A stop closes the interval -/

theorem unblock_blocked (s : SequencerImpl) (now : ℤ) :
    (s.unblockAndUpdateStatisticIfNeeded now).blocked = false := by
  unfold SequencerImpl.unblockAndUpdateStatisticIfNeeded
  split_ifs with h
  · rfl
  · exact Bool.eq_false_iff.mpr h

def Closed (s : SequencerImpl) : Prop := s.running = false → s.blocked = false

theorem run_closed {p : Bool} (h : Live (!p) s) {r : Script} (ht : s.run p r = some t) : Closed t := by
  rcases run_cases h.status ht with ⟨-, rfl⟩ | ⟨hproceed, u, hu, rfl⟩
  · intro _
    have heq := stop_blocking (entered s r) (evaluateChain r.predicates = .fail)
    simp only [blocking, Prod.mk.injEq] at heq
    rw [heq.2.1]
    exact unblock_blocked _ _
  · intro hrunning
    have hlive := ((h.entered hproceed).loop hu).reschedule
    rw [hlive.running] at hrunning
    cases hrunning

theorem step_closed {e : Event} (h : Closed s) (hphase : Phase s) (ht : step s e = some t) : Closed t := by
  rcases step_cases hphase ht with ⟨id, time, rfl, hcomplete⟩ | ⟨p, r, _, _, -, hlive, hrun⟩
  · obtain ⟨hblocking, -⟩ := complete_blocking hcomplete
    simp only [blocking, Prod.mk.injEq] at hblocking
    intro hrunning
    rw [hblocking.2.1]
    exact h ((complete_running hcomplete).symm.trans hrunning)
  · exact run_closed hlive hrun

structure Measured (events : List Event) (s : SequencerImpl) : Prop where
  phase : Phase s
  records : Records (moments events) s
  closed : Closed s

theorem measured_init (i : IdleStrategy) : Measured [] { idleStrategy := i } :=
  ⟨.fresh i rfl, ⟨rfl, rfl⟩, fun _ => rfl⟩

theorem step_measured {events : List Event} {e : Event} (h : Measured events s) (ht : step s e = some t) :
    Measured (events ++ [e]) t := by
  refine ⟨step_phase s e t h.phase ht, ?_, step_closed h.closed h.phase ht⟩
  rw [moments, List.flatMap_append, List.flatMap_singleton]
  exact h.records.step h.phase ht

theorem measured_of_exec {i : IdleStrategy} {events : List Event}
    (h : Runs.exec step { idleStrategy := i } events = some s) : Measured events s :=
  Runs.exec_history (measured_init i) (fun _ _ _ _ _ h ht => step_measured h ht) h

/-! ## The clock -/

theorem Attempt.lastTime_mem (a : Attempt) (time : ℤ) : a.times.getLastD time ∈ time :: a.times := by
  rw [List.getLastD_eq_getLast?]
  cases hlast : a.times.getLast? with
  | none => exact List.mem_cons_self
  | some u => exact List.mem_cons_of_mem _ (List.mem_of_getLast? hlast)

theorem Attempt.lastTime_mem_flatMap (a : Attempt) (rest : List Attempt) (time : ℤ) :
    a.times.getLastD time ∈ time :: (a :: rest).flatMap Attempt.times := by
  rw [List.flatMap_cons, ← List.cons_append]
  exact List.mem_append_left _ (Attempt.lastTime_mem a time)

theorem attemptMoments_time {now time : ℤ} {attempts : List Attempt} {m : Moment}
    (hm : m ∈ attemptMoments now time attempts) : m.time ∈ now :: time :: attempts.flatMap Attempt.times := by
  induction attempts generalizing time with
  | nil => cases hm
  | cons a rest ih =>
    have hlast := Attempt.lastTime_mem_flatMap a rest time
    simp only [attemptMoments] at hm
    split_ifs at hm with haccepts
    · rcases List.mem_cons.mp hm with rfl | hm
      · exact List.mem_cons_self
      · rcases List.mem_cons.mp (ih hm) with hnow | hrest
        · rw [hnow]
          exact List.mem_cons_self
        · rcases List.mem_cons.mp hrest with hlate | hrest
          · rw [hlate]
            exact List.mem_cons_of_mem _ hlast
          · rw [List.flatMap_cons]
            exact List.mem_cons_of_mem _ (List.mem_cons_of_mem _ (List.mem_append_right _ hrest))
    · rw [List.mem_singleton.mp hm]
      exact List.mem_cons_of_mem _ hlast

/-- Only the last call of a loop is refused, and it is refused after the loop was entered. -/
theorem attemptMoments_sorted {now time : ℤ} {attempts : List Attempt}
    (h : ∀ t ∈ time :: attempts.flatMap Attempt.times, now ≤ t) :
    ((attemptMoments now time attempts).map Moment.time).Pairwise (· ≤ ·) := by
  induction attempts generalizing time with
  | nil => exact List.Pairwise.nil
  | cons a rest ih =>
    simp only [attemptMoments]
    split_ifs with haccepts
    · have hrest : ∀ t ∈ a.times.getLastD time :: rest.flatMap Attempt.times, now ≤ t := by
        intro t ht
        rcases List.mem_cons.mp ht with rfl | ht
        · exact h _ (Attempt.lastTime_mem_flatMap a rest time)
        · rw [List.flatMap_cons] at h
          exact h t (List.mem_cons_of_mem _ (List.mem_append_right _ ht))
      rw [List.map_cons, List.pairwise_cons]
      refine ⟨fun t ht => ?_, ih hrest⟩
      obtain ⟨m, hm, rfl⟩ := List.mem_map.mp ht
      rcases List.mem_cons.mp (attemptMoments_time hm) with hnow | hm
      · exact hnow.ge
      · exact hrest _ hm
    · exact List.pairwise_singleton _ _

theorem Script.moments_time {r : Script} {m : Moment} (hm : m ∈ r.moments) : m.time ∈ r.clock := by
  unfold SequencerImpl.Script.moments at hm
  unfold SequencerImpl.Script.clock
  split_ifs at hm ⊢
  · simpa using attemptMoments_time hm
  · rw [List.mem_singleton.mp hm]
    exact List.mem_cons_self

theorem Script.moments_sorted {r : Script} (h : r.clock.Pairwise (· ≤ ·)) :
    (r.moments.map Moment.time).Pairwise (· ≤ ·) := by
  unfold SequencerImpl.Script.moments
  unfold SequencerImpl.Script.clock at h
  split_ifs at h ⊢
  · refine attemptMoments_sorted fun t ht => ?_
    rcases List.mem_cons.mp ht with rfl | ht
    · exact le_rfl
    · exact (List.pairwise_cons.mp h).1 t ht
  · exact List.pairwise_singleton _ _

theorem Event.moments_time {e : Event} {m : Moment} (hm : m ∈ e.moments) : m.time ∈ e.clock := by
  cases e with
  | completion id time => cases hm
  | _ => exact Script.moments_time hm

theorem Event.moments_sorted {e : Event} (h : e.clock.Pairwise (· ≤ ·)) :
    (e.moments.map Moment.time).Pairwise (· ≤ ·) := by
  cases e with
  | completion id time => exact List.Pairwise.nil
  | _ => exact Script.moments_sorted h

theorem moments_time {events : List Event} {m : Moment} (hm : m ∈ moments events) :
    m.time ∈ clock events := by
  obtain ⟨e, he, hm⟩ := List.mem_flatMap.mp hm
  exact List.mem_flatMap.mpr ⟨e, he, Event.moments_time hm⟩

theorem moments_sorted {events : List Event} (h : (clock events).Pairwise (· ≤ ·)) :
    ((moments events).map Moment.time).Pairwise (· ≤ ·) := by
  obtain ⟨heach, hacross⟩ := List.pairwise_flatMap.mp h
  rw [moments, List.pairwise_map, List.pairwise_flatMap]
  refine ⟨fun e he => List.pairwise_map.mp (Event.moments_sorted (heach e he)),
    hacross.imp fun hle m hm m' hm' => ?_⟩
  exact hle _ (Event.moments_time hm) _ (Event.moments_time hm')

/-! ## Soundness -/

theorem mem_bounds {l : List ℤ} (h : l.Pairwise (· ≤ ·)) {t : ℤ} (ht : t ∈ l) :
    l.headD 0 ≤ t ∧ t ≤ l.getLastD 0 := by
  have hne : l ≠ [] := List.ne_nil_of_mem ht
  rw [List.headD_eq_head?_getD, List.head?_eq_some_head hne, List.getLastD_eq_getLast?,
    List.getLast?_eq_some_getLast hne]
  exact ⟨h.rel_head ht, h.rel_getLast ht⟩

theorem blocked_sound {events : List Event} (hclock : (clock events).Pairwise (· ≤ ·)) :
    Stopwatch.Sound ((clock events).headD 0) ((clock events).getLastD 0)
      (Stopwatch.after Moment.mark (moments events)) := by
  refine Stopwatch.sound_after Moment.mark (moments_sorted hclock)
    (fun m hm => (mem_bounds hclock (moments_time hm)).1)
      (fun m hm => (mem_bounds hclock (moments_time hm)).2) ?_
  cases hevents : clock events with
  | nil => exact le_rfl
  | cons t ts =>
    rw [← hevents]
    have hmem : t ∈ clock events := by simp [hevents]
    exact (mem_bounds hclock hmem).1.trans (mem_bounds hclock hmem).2

theorem Moment.mark_eq_start {m : Moment} {t : ℤ} (h : m.mark = .start t) : m = .refused t := by
  cases m <;> cases h
  rfl

theorem Moment.mark_eq_stop {m : Moment} {t : ℤ} (h : m.mark = .stop t) :
    m = .accepted t ∨ m = .stopped t := by
  cases m <;> cases h
  · exact Or.inl rfl
  · exact Or.inr rfl

/-- With a clock that never goes back, the recorded blocked times are the lengths of disjoint
intervals in order. Each begins with a refused call and ends with the first later run in which a
call is accepted, or with the stop, which leaves none open. Together they are not longer than the
time from the start to the last event. -/
theorem blocked_time_sound (i : IdleStrategy) (events : List Event) (hclock : (clock events).Pairwise (· ≤ ·))
    (s : SequencerImpl) (h : Runs.exec step { idleStrategy := i } events = some s) :
    s.blockedStatistic = (blockedIntervals events).map (fun i => i.2 - i.1) ∧
      (∀ value ∈ s.blockedStatistic, 0 ≤ value) ∧
      (blockedIntervals events).Pairwise (fun i j => i.2 ≤ j.1) ∧
      (∀ i ∈ blockedIntervals events, ∃ before refusals ending later,
        moments events = before ++ .refused i.1 :: refusals ++ ending :: later ∧
          (ending = .accepted i.2 ∨ ending = .stopped i.2) ∧ ∀ m ∈ refusals, ∃ time, m = .refused time) ∧
      (s.running = false → s.blocked = false) ∧
      s.blockedStatistic.sum ≤ (clock events).getLastD 0 - (clock events).headD 0 := by
  have hm := measured_of_exec h
  have hsound := blocked_sound hclock
  refine ⟨hm.records.statistic, fun value hvalue => ?_, hsound.disjoint, fun i hi => ?_, hm.closed, ?_⟩
  · rw [hm.records.statistic] at hvalue
    obtain ⟨i, hi, rfl⟩ := List.mem_map.mp hvalue
    exact sub_nonneg.mpr (hsound.ordered i hi)
  · obtain ⟨before, m, refusals, ending, later, hsplit, hstart, hstop, hrefusals⟩ :=
      Stopwatch.of_mem_intervals Moment.mark hi
    obtain rfl := Moment.mark_eq_start hstart
    refine ⟨before, refusals, ending, later, hsplit, Moment.mark_eq_stop hstop, fun m hm => ?_⟩
    obtain ⟨t, ht⟩ := hrefusals m hm
    exact ⟨t, Moment.mark_eq_start ht⟩
  · rw [hm.records.statistic]
    exact hsound.total.trans (sub_le_sub_right hsound.pending _)

/-- A call that is refused after a completion at 3, a run at 10 with an accepted and a refused
call, and a stop at 20. -/
def blockedRun : List Event :=
  [.start ⟨1, [.proceed], [⟨[], true⟩, ⟨[(0, 3)], false⟩]⟩,
    .spinTimer ⟨10, [.proceed], [⟨[], true⟩, ⟨[(2, 12)], false⟩]⟩,
    .periodicTimer ⟨20, [.terminate], []⟩]

theorem blocked_time_sound_two_intervals :
    ∃ s, Runs.exec step { idleStrategy := .poll } blockedRun = some s ∧ s.blockedStatistic = [7, 8] ∧
      blockedIntervals blockedRun = [(3, 10), (12, 20)] ∧ s.blocked = false ∧
        s.blockedStatistic.sum ≤ 20 - 1 := by
  obtain ⟨s, hs, hstatistic, hrunning⟩ : ∃ s, Runs.exec step { idleStrategy := .poll } blockedRun = some s ∧
      s.blockedStatistic = [7, 8] ∧ s.running = false := ⟨_, rfl, rfl, rfl⟩
  obtain ⟨-, -, -, -, hclosed, hsum⟩ := blocked_time_sound .poll blockedRun (by decide) s hs
  exact ⟨s, hs, hstatistic, rfl, hclosed hrunning, hsum⟩

end Nighthawk.Sequencer

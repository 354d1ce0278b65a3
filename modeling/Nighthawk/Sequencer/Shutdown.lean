import Nighthawk.Lib.Runs
import Nighthawk.Sequencer.Code
import Mathlib.Tactic.SplitIfs

/-!
# Timers and shutdown

Between events a sequencer is not started yet, or runs with an armed periodic timer, or has
stopped and has no timers. It leaves the second phase once, in the event in which a termination
predicate answers something else than `PROCEED`.
-/

namespace Nighthawk.Sequencer

/-- The interactions of a sequencer that has no reason to stop. -/
def Interaction.quiet : Interaction → Bool
  | .evaluated status => status = .proceed
  | .stopped _ => false
  | _ => true

/-- While it runs. Inside an event of the periodic timer that timer is not armed. -/
structure Live (armed : Bool) (s : SequencerImpl) : Prop where
  started : s.started = true
  running : s.running = true
  periodic : s.periodicTimer = some armed
  spin : s.spinTimer ≠ none
  status : s.lastTerminationStatus = .proceed
  trace : ∀ i ∈ s.trace, i.quiet = true
  failed : s.failedTerminations = 0
  exited : s.dispatcherExited = false
  faults : s.faults = []

/-- After a stop for this status. -/
structure Ended (status : Status) (s : SequencerImpl) : Prop where
  started : s.started = true
  running : s.running = false
  periodic : s.periodicTimer = none
  spin : s.spinTimer = none
  reason : status ≠ .proceed
  trace : ∃ earlier after, s.trace = earlier ++ .evaluated status :: .stopped (status = .fail) :: after ∧
    (∀ i ∈ earlier, i.quiet = true) ∧ ∀ i ∈ after, ∃ id, i = .completed id
  failed : s.failedTerminations = if status = .fail then 1 else 0
  exited : s.dispatcherExited = true
  faults : s.faults = []

inductive Phase (s : SequencerImpl) : Prop
  | fresh (i : IdleStrategy) (h : s = { idleStrategy := i })
  | live (h : Live true s)
  | ended (status : Status) (h : Ended status s)

/-! ## While it runs -/

variable {armed : Bool} {s t : SequencerImpl}

theorem Live.log (h : Live armed s) {i : Interaction} (hi : i.quiet = true) : Live armed (s.log i) := by
  refine { h with trace := ?_ }
  intro j hj
  rcases List.mem_append.mp hj with hj | hj
  · exact h.trace j hj
  · rw [List.mem_singleton.mp hj]
    exact hi

theorem Live.scheduleSpin (h : Live armed s) : Live armed s.scheduleSpin := by
  unfold SequencerImpl.scheduleSpin
  split
  · rename_i hnone
    exact absurd hnone h.spin
  · exact { h with spin := by simp }

theorem Live.scheduleRun (h : Live armed s) : Live true s.scheduleRun := by
  unfold SequencerImpl.scheduleRun
  rw [h.periodic]
  exact { h with periodic := rfl }

theorem Live.unblock (h : Live armed s) (now : ℤ) : Live armed (s.unblockAndUpdateStatisticIfNeeded now) := by
  unfold SequencerImpl.unblockAndUpdateStatisticIfNeeded
  split
  · exact { h with }
  · exact h

theorem Live.updateStartBlocking (h : Live armed s) : Live armed s.updateStartBlockingTimeIfNeeded := by
  unfold SequencerImpl.updateStartBlockingTimeIfNeeded
  split
  · exact h
  · exact { h with }

theorem Live.complete (h : Live armed s) {id : ℕ} {time : ℤ} (ht : s.complete id time = some t) :
    Live armed t := by
  unfold SequencerImpl.complete at ht
  split at ht
  · cases ht
  · have hlog := h.log (i := .completed id) rfl
    simp only [Option.some.injEq] at ht
    rw [← ht, if_pos hlog.running]
    exact Live.scheduleSpin { hlog with }

theorem Live.completeAll (h : Live armed s) {cs : List (ℕ × ℤ)} (ht : s.completeAll cs = some t) :
    Live armed t := by
  induction cs generalizing s with
  | nil =>
    cases ht
    exact h
  | cons c cs ih =>
    obtain ⟨u, hu, ht⟩ := Option.bind_eq_some_iff.mp ht
    exact ih (h.complete hu) ht

theorem Live.attempt (h : Live armed s) {now : ℤ} {a : SequencerImpl.Attempt}
    (ht : s.attempt now a = some t) :
    Live armed t := by
  unfold SequencerImpl.attempt at ht
  obtain ⟨u, hu, ht⟩ := Option.bind_eq_some_iff.mp ht
  have hcall : Live armed (s.call now) := { h.log (i := .acquired) rfl with }
  have hlive := hcall.completeAll hu
  split_ifs at ht
  · cases ht
    exact { (hlive.log (i := .accepted s.calls) rfl).unblock now with }
  · cases ht
    have hdrop : Live armed
        { u.log (.refused s.calls) with outstanding := u.outstanding.filter (·.id ≠ s.calls) } :=
      { hlive.log (i := .refused s.calls) rfl with }
    exact hdrop.updateStartBlocking.log rfl

theorem Live.loop (h : Live armed s) {now : ℤ} {attempts : List SequencerImpl.Attempt}
    (ht : s.loop now attempts = some t) : Live armed t := by
  induction attempts generalizing s with
  | nil =>
    cases ht
    exact h.log rfl
  | cons a rest ih =>
    obtain ⟨u, hu, ht⟩ := Option.bind_eq_some_iff.mp ht
    have hlive := h.attempt hu
    split_ifs at ht
    · exact ih hlive ht
    · cases ht
      exact hlive

theorem Live.reschedule {p : Bool} (h : Live (!p) s) : Live true (s.reschedule p) := by
  unfold SequencerImpl.reschedule
  cases p with
  | true => exact h.scheduleRun
  | false =>
    have hlive : Live true s := h
    simp only [Bool.false_eq_true, if_false]
    split_ifs
    · exact hlive.scheduleSpin
    · exact hlive.scheduleSpin
    · exact hlive

/-! ## Stopping -/

theorem stop_eq (hrunning : s.running = true) (hperiodic : s.periodicTimer ≠ none)
    (hspin : s.spinTimer ≠ none)
    (failed : Bool) :
    ∃ blocked blockedStatistic, s.stop failed =
      { s with
        failedTerminations := s.failedTerminations + if failed then 1 else 0
        running := false
        periodicTimer := none
        spinTimer := none
        dispatcherExited := true
        blocked := blocked
        blockedStatistic := blockedStatistic
        trace := s.trace ++ [.stopped failed] } := by
  unfold SequencerImpl.stop SequencerImpl.assert SequencerImpl.unblockAndUpdateStatisticIfNeeded
  refine ⟨false, if s.blocked then
    s.blockedStatistic ++ [s.monotonicTime - s.blockedStart] else s.blockedStatistic, ?_⟩
  cases failed <;> cases hb : s.blocked <;> simp [hrunning, hperiodic, hspin, hb, SequencerImpl.log]

theorem ended_stop (h : Live armed s) {status : Status} (hstatus : status ≠ .proceed) :
    Ended status (({ s.log (.evaluated status) with lastTerminationStatus := status } : SequencerImpl).stop
      (status = .fail)) := by
  have hperiodic : s.periodicTimer ≠ none := by simp [h.periodic]
  obtain ⟨_, _, heq⟩ := stop_eq (s := { s.log (.evaluated status) with lastTerminationStatus := status })
    h.running hperiodic h.spin (status = .fail)
  rw [heq]
  refine ⟨h.started, rfl, rfl, rfl, hstatus, ⟨s.trace, [], ?_, h.trace, by simp⟩, ?_, rfl, h.faults⟩
  · simp [SequencerImpl.log]
  · simp [SequencerImpl.log, h.failed]

theorem Ended.complete {status : Status} (h : Ended status s) {id : ℕ} {time : ℤ}
    (ht : s.complete id time = some t) : Ended status t := by
  unfold SequencerImpl.complete at ht
  split at ht
  · cases ht
  · have hoff : ¬(s.log (.completed id)).running = true := by
      show ¬s.running = true
      simp [h.running]
    simp only [Option.some.injEq] at ht
    rw [← ht, if_neg hoff]
    obtain ⟨earlier, after, htrace, hquiet, hafter⟩ := h.trace
    refine { h with trace := ⟨earlier, after ++ [.completed id], ?_, hquiet, ?_⟩ }
    · show s.trace ++ [.completed id] = _
      rw [htrace]
      simp
    · intro i hi
      rcases List.mem_append.mp hi with hi | hi
      · exact hafter i hi
      · exact ⟨id, List.mem_singleton.mp hi⟩

/-! ## Whole runs -/

def entered (s : SequencerImpl) (r : SequencerImpl.Script) : SequencerImpl :=
  SequencerImpl.evaluate { s.assert s.running "running_" with monotonicTime := r.now } r.predicates

theorem assert_status (s : SequencerImpl) (c : Bool) (text : String) :
    (s.assert c text).lastTerminationStatus = s.lastTerminationStatus := by
  unfold SequencerImpl.assert
  split <;> rfl

theorem entered_status (h : s.lastTerminationStatus = .proceed) (r : SequencerImpl.Script) :
    (entered s r).lastTerminationStatus = evaluateChain r.predicates := by
  unfold entered SequencerImpl.evaluate
  rw [if_pos ((assert_status s _ _).trans h)]

theorem run_cases (h : s.lastTerminationStatus = .proceed) {p : Bool} {r : SequencerImpl.Script}
    (ht : s.run p r = some t) :
    (evaluateChain r.predicates ≠ .proceed ∧ t = (entered s r).stop (evaluateChain r.predicates = .fail)) ∨
      (evaluateChain r.predicates = .proceed ∧
        ∃ u, (entered s r).loop r.now r.attempts = some u ∧ t = u.reschedule p) := by
  change (if (entered s r).lastTerminationStatus ≠ .proceed then
      some ((entered s r).stop ((entered s r).lastTerminationStatus = .fail))
    else ((entered s r).loop r.now r.attempts).map (·.reschedule p)) = some t at ht
  rw [entered_status h] at ht
  split_ifs at ht with hend
  · exact Or.inl ⟨hend, (Option.some.inj ht).symm⟩
  · obtain ⟨u, hu, heq⟩ := Option.map_eq_some_iff.mp ht
    exact Or.inr ⟨not_not.mp hend, u, hu, heq.symm⟩

theorem Live.entered_eq (h : Live armed s) (r : SequencerImpl.Script) :
    entered s r = { ({ s with monotonicTime := r.now } : SequencerImpl).log
      (.evaluated (evaluateChain r.predicates)) with
      lastTerminationStatus := evaluateChain r.predicates } := by
  simp [entered, SequencerImpl.assert, SequencerImpl.evaluate, h.running, h.status]

theorem Live.entered (h : Live armed s) {r : SequencerImpl.Script}
    (hproceed : evaluateChain r.predicates = .proceed) :
    Live armed (entered s r) := by
  have hnow : Live armed { s with monotonicTime := r.now } := { h with }
  have hlog := hnow.log (i := .evaluated (evaluateChain r.predicates)) (decide_eq_true hproceed)
  rw [h.entered_eq]
  exact { hlog with status := hproceed }

theorem run_phase {p : Bool} (h : Live (!p) s) {r : SequencerImpl.Script}
    (ht : s.run p r = some t) : Phase t := by
  rcases run_cases h.status ht with ⟨hend, rfl⟩ | ⟨hproceed, u, hu, rfl⟩
  · have hnow : Live (!p) { s with monotonicTime := r.now } := { h with }
    rw [h.entered_eq]
    exact .ended _ (ended_stop hnow hend)
  · exact .live ((h.entered hproceed).loop hu).reschedule

/-- The sequencer when its start or a timer leads to a run. -/
def woken (s : SequencerImpl) (periodicTimer spinTimer : Option Bool) : SequencerImpl :=
  { s with started := true, running := true, periodicTimer, spinTimer }

theorem Live.woken_eq (h : Live armed s) (periodicTimer spinTimer : Option Bool) :
    woken s periodicTimer spinTimer = { s with periodicTimer, spinTimer } := by
  unfold woken
  rw [h.started, h.running]

def Event.Runs : Event → SequencerImpl.Script → Prop
  | .start r, r' => r = r'
  | .periodicTimer r, r' => r = r'
  | .spinTimer r, r' => r = r'
  | .completion _ _, _ => False

theorem step_cases {e : Event} (hs : Phase s) (ht : step s e = some t) :
    (∃ id time, e = .completion id time ∧ s.complete id time = some t) ∨
      ∃ p r periodicTimer spinTimer, e.Runs r ∧ Live (!p) (woken s periodicTimer spinTimer) ∧
        (woken s periodicTimer spinTimer).run p r = some t := by
  cases e with
  | completion id time => exact Or.inl ⟨id, time, rfl, ht⟩
  | start r =>
    cases hs with
    | fresh i h =>
      subst h
      refine Or.inr ⟨false, r, some true, some false, rfl, ?_, ht⟩
      exact ⟨rfl, rfl, rfl, by simp [woken], rfl, by simp [woken], rfl, rfl, rfl⟩
    | live h => simp [step, h.started] at ht
    | ended status h => simp [step, h.started] at ht
  | periodicTimer r =>
    cases hs with
    | fresh i h => subst h; cases ht
    | live h =>
      simp only [step, h.periodic, if_true] at ht
      refine Or.inr ⟨true, r, some false, s.spinTimer, rfl, ?_⟩
      rw [h.woken_eq]
      exact ⟨{ h with periodic := rfl }, ht⟩
    | ended status h => simp [step, h.periodic] at ht
  | spinTimer r =>
    cases hs with
    | fresh i h => subst h; cases ht
    | live h =>
      simp only [step] at ht
      split_ifs at ht
      refine Or.inr ⟨false, r, s.periodicTimer, some false, rfl, ?_⟩
      rw [h.woken_eq]
      exact ⟨{ h with spin := by simp }, ht⟩
    | ended status h => simp [step, h.spin] at ht

theorem step_phase (s : SequencerImpl) (e : Event) (t : SequencerImpl) (hs : Phase s)
    (ht : step s e = some t) :
    Phase t := by
  rcases step_cases hs ht with ⟨id, time, rfl, hcomplete⟩ | ⟨p, r, _, _, -, hlive, hrun⟩
  · cases hs with
    | fresh i h => subst h; cases ht
    | live h => exact .live (h.complete hcomplete)
    | ended status h => exact .ended status (h.complete hcomplete)
  · exact run_phase hlive hrun

theorem phase_of_exec {i : IdleStrategy} {events : List Event}
    (h : Runs.exec step { idleStrategy := i } events = some s) : Phase s :=
  Runs.exec_inv step_phase (.fresh i rfl) h

/-- The first status that is not `PROCEED`. -/
def firstEnd : List Interaction → Option Status
  | [] => none
  | .evaluated status :: rest => if status = .proceed then firstEnd rest else some status
  | _ :: rest => firstEnd rest

def Interaction.isStopped : Interaction → Bool
  | .stopped _ => true
  | _ => false

theorem firstEnd_append {earlier : List Interaction} (h : ∀ i ∈ earlier, i.quiet = true)
    (rest : List Interaction) :
    firstEnd (earlier ++ rest) = firstEnd rest := by
  induction earlier with
  | nil => rfl
  | cons i earlier ih =>
    have hrest := ih fun j hj => h j (List.mem_cons_of_mem _ hj)
    have hi := h i List.mem_cons_self
    cases i with
    | evaluated status =>
      have hproceed : status = .proceed := of_decide_eq_true hi
      rw [List.cons_append, firstEnd, if_pos hproceed, hrest]
    | stopped failed => cases hi
    | _ => rw [List.cons_append, firstEnd, hrest]; simp

theorem countP_isStopped_of_quiet {l : List Interaction} (h : ∀ i ∈ l, i.quiet = true) :
    l.countP Interaction.isStopped = 0 := by
  rw [List.countP_eq_zero]
  intro i hi hstopped
  have hquiet := h i hi
  cases i with
  | stopped failed => cases hquiet
  | _ => cases hstopped

theorem Ended.firstEnd_eq {status : Status} (h : Ended status s) : firstEnd s.trace = some status := by
  obtain ⟨earlier, after, htrace, hquiet, -⟩ := h.trace
  rw [htrace, firstEnd_append hquiet, firstEnd, if_neg h.reason]

theorem Live.firstEnd_eq (h : Live armed s) : firstEnd s.trace = none := by
  rw [← List.append_nil s.trace, firstEnd_append h.trace]
  rfl

theorem Ended.countP_isStopped {status : Status} (h : Ended status s) :
    s.trace.countP Interaction.isStopped = 1 := by
  obtain ⟨earlier, after, htrace, hquiet, hafter⟩ := h.trace
  have hcompleted : ∀ i ∈ after, i.quiet = true := by
    intro i hi
    obtain ⟨id, rfl⟩ := hafter i hi
    rfl
  rw [htrace, List.countP_append, countP_isStopped_of_quiet hquiet, List.countP_cons, List.countP_cons,
    countP_isStopped_of_quiet hcompleted]
  rfl

theorem Ended.after_stop {status : Status} (h : Ended status s) {before after : List Interaction}
    {failed : Bool}
    (hsplit : s.trace = before ++ .stopped failed :: after) : ∀ i ∈ after, ∃ id, i = .completed id := by
  obtain ⟨earlier, rest, htrace, hquiet, hrest⟩ := h.trace
  have hearlier : Interaction.stopped failed ∉ earlier ++ [.evaluated status] := by
    intro hmem
    rcases List.mem_append.mp hmem with hmem | hmem
    · cases hquiet _ hmem
    · simp at hmem
  have hlater : Interaction.stopped failed ∉ rest := by
    intro hmem
    obtain ⟨id, hid⟩ := hrest _ hmem
    cases hid
  rw [htrace, List.append_cons, List.append_cons_inj_of_notMem hearlier hlater] at hsplit
  rw [← hsplit.2.2]
  exact hrest

/-- After every event of every run. -/
theorem single_shutdown (i : IdleStrategy) (events : List Event) (s : SequencerImpl)
    (h : Runs.exec step { idleStrategy := i } events = some s) :
    (s.running = true ↔ s.periodicTimer = some true ∧ s.spinTimer ≠ none) ∧
      (firstEnd s.trace ≠ none → s.running = false ∧ ∃ failed, .stopped failed ∈ s.trace) ∧
      s.trace.countP Interaction.isStopped ≤ 1 ∧
      s.failedTerminations = (if firstEnd s.trace = some .fail then 1 else 0) ∧
      (∀ before after failed, s.trace = before ++ .stopped failed :: after →
        ∀ i ∈ after, ∃ id, i = .completed id) ∧
      s.faults = [] := by
  cases phase_of_exec h with
  | fresh i h =>
    subst h
    exact ⟨by simp, by simp [firstEnd], by simp, rfl, by simp, rfl⟩
  | live h =>
    refine ⟨by simp [h.running, h.periodic, h.spin], by simp [h.firstEnd_eq],
      ?_, by simp [h.firstEnd_eq, h.failed], ?_,
      h.faults⟩
    · rw [countP_isStopped_of_quiet h.trace]
      exact Nat.zero_le 1
    · intro before after failed hsplit
      have hstopped : Interaction.stopped failed ∈ s.trace := by simp [hsplit]
      cases h.trace _ hstopped
  | ended status h =>
    refine ⟨by simp [h.running, h.periodic], fun _ => ⟨h.running, ?_⟩, Nat.le_of_eq h.countP_isStopped, ?_,
      fun _ _ _ => h.after_stop, h.faults⟩
    · obtain ⟨earlier, after, htrace, -⟩ := h.trace
      exact ⟨status = .fail, by rw [htrace]; simp⟩
    · rw [h.firstEnd_eq, h.failed]
      simp

/-- A failing predicate with one target call still open, and the callback of that call after the stop. -/
def failedRun : List Event :=
  [.start ⟨0, [.proceed], [⟨[], true⟩]⟩, .periodicTimer ⟨1, [.terminate, .fail], []⟩, .completion 0 3]

theorem single_shutdown_failed :
    ∃ s, Runs.exec step { idleStrategy := .poll } failedRun = some s ∧ firstEnd s.trace = some .fail ∧
      s.running = false ∧ s.failedTerminations = 1 ∧ s.targetsCompleted = 1 ∧ s.faults = [] := by
  refine ⟨_, rfl, rfl, ?_, ?_, rfl, ?_⟩
  · exact ((single_shutdown .poll failedRun _ rfl).2.1 (by decide)).1
  · exact (single_shutdown .poll failedRun _ rfl).2.2.2.1
  · exact (single_shutdown .poll failedRun _ rfl).2.2.2.2.2

/-! ## Waiting -/

/-- The dispatcher handles these events until it is told to exit. -/
def waitForCompletion (s : SequencerImpl) (events : List Event) : Option SequencerImpl :=
  let exited := if s.running then (Runs.exec step s events).filter (·.dispatcherExited) else some s
  exited.map fun s => s.assert (!s.running) "!running_"

theorem waitForCompletion_faults {i : IdleStrategy} {before events : List Event}
    (h : Runs.exec step { idleStrategy := i } before = some s) (ht : waitForCompletion s events = some t) :
    t.running = false ∧ t.faults = [] := by
  obtain ⟨u, hu, rfl⟩ := Option.map_eq_some_iff.mp ht
  have hphase : Phase u ∧ u.running = false := by
    split_ifs at hu with hrunning
    · obtain ⟨hexec, hexited⟩ := Option.filter_eq_some_iff.mp hu
      have hphase := Runs.exec_inv step_phase (phase_of_exec h) hexec
      refine ⟨hphase, ?_⟩
      cases hphase with
      | fresh i h => rw [h]
      | live h => simp [h.exited] at hexited
      | ended status h => exact h.running
    · cases hu
      exact ⟨phase_of_exec h, by simpa using hrunning⟩
  obtain ⟨hphase, hrunning⟩ := hphase
  simp only [SequencerImpl.assert, hrunning, Bool.not_false, if_true, true_and]
  cases hphase with
  | fresh i h => rw [h]
  | live h => exact h.faults
  | ended status h => exact h.faults

end Nighthawk.Sequencer

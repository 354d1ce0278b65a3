import Nighthawk.Lib.Keyed
import Nighthawk.Lib.Runs
import Nighthawk.Sequencer.Code

/-!
# Acquisitions, target calls and completions

Each acquisition of the rate limiter is used for one target call that is accepted, or is given
back. Each accepted call has a callback, which the target invokes at most once.
-/

namespace Nighthawk.Sequencer

def Interaction.isAccepted : Interaction → Bool
  | .accepted _ => true
  | _ => false

def Interaction.isCompleted : Interaction → Bool
  | .completed _ => true
  | _ => false

/-- Each release comes after a refused target call, and the only limiter call before that is the
successful one that led to it. -/
def ReleasesFollowRefusals (trace : List Interaction) : Prop :=
  ∀ before after, trace = before ++ .released :: after →
    ∃ earlier inside id, before = earlier ++ .acquired :: inside ++ [.refused id] ∧
      ∀ i ∈ inside, i.isCompleted = true

/-- The books while `k` target calls have not returned yet. -/
structure Balanced (k : ℕ) (s : SequencerImpl) : Prop where
  acquired : s.trace.count .acquired = s.targetsInitiated + s.trace.count .released + k
  accepted : s.trace.countP Interaction.isAccepted = s.targetsInitiated
  latency : s.latencyStatistic.length = s.targetsCompleted
  callbacks : s.targetsCompleted + s.outstanding.length = s.targetsInitiated + k
  distinct : (s.outstanding.map Callback.id).Nodup
  fresh : ∀ c ∈ s.outstanding, c.id < s.calls
  releases : ReleasesFollowRefusals s.trace

/-! ## The trace -/

theorem releases_snoc {trace : List Interaction} (h : ReleasesFollowRefusals trace) {i : Interaction}
    (hi : i ≠ .released) : ReleasesFollowRefusals (trace ++ [i]) := by
  intro before after heq
  rcases List.eq_nil_or_concat after with rfl | ⟨after', last, rfl⟩
  · have := (List.append_inj' heq rfl).2
    simp only [List.cons.injEq, and_true] at this
    exact absurd this hi
  · rw [List.concat_eq_append, ← List.cons_append, ← List.append_assoc] at heq
    exact h before after' (List.append_inj' heq rfl).1

theorem releases_released {trace earlier inside : List Interaction} {id : ℕ}
    (h : ReleasesFollowRefusals trace)
    (heq : trace = earlier ++ .acquired :: inside ++ [.refused id])
    (hin : ∀ i ∈ inside, i.isCompleted = true) :
    ReleasesFollowRefusals (trace ++ [.released]) := by
  intro before after hsplit
  rcases List.eq_nil_or_concat after with rfl | ⟨after', last, rfl⟩
  · have := (List.append_inj' hsplit rfl).1
    exact ⟨earlier, inside, id, this ▸ heq, hin⟩
  · rw [List.concat_eq_append, ← List.cons_append, ← List.append_assoc] at hsplit
    exact h before after' (List.append_inj' hsplit rfl).1

/-! ## What leaves the books alone -/

/-- The members that the books are about. -/
def books (s : SequencerImpl) : List Interaction × ℕ × ℕ × List ℤ × List Callback × ℕ :=
  (s.trace, s.targetsInitiated, s.targetsCompleted, s.latencyStatistic, s.outstanding, s.calls)

theorem balanced_of_books {k : ℕ} {s t : SequencerImpl} (hs : Balanced k s) (h : books t = books s) :
    Balanced k t := by
  simp only [books, Prod.mk.injEq] at h
  obtain ⟨h1, h2, h3, h4, h5, h6⟩ := h
  obtain ⟨b1, b2, b3, b4, b5, b6, b7⟩ := hs
  constructor
  · rw [h1, h2]; exact b1
  · rw [h1, h2]; exact b2
  · rw [h4, h3]; exact b3
  · rw [h3, h5, h2]; exact b4
  · rw [h5]; exact b5
  · rw [h5, h6]; exact b6
  · rw [h1]; exact b7

@[simp] theorem books_assert (s : SequencerImpl) (c : Bool) (text : String) :
    books (s.assert c text) = books s := by
  unfold SequencerImpl.assert
  split <;> rfl

@[simp] theorem books_scheduleRun (s : SequencerImpl) : books s.scheduleRun = books s := by
  unfold SequencerImpl.scheduleRun
  split <;> rfl

@[simp] theorem books_scheduleSpin (s : SequencerImpl) : books s.scheduleSpin = books s := by
  unfold SequencerImpl.scheduleSpin
  split <;> rfl

@[simp] theorem books_unblock (s : SequencerImpl) (now : ℤ) :
    books (s.unblockAndUpdateStatisticIfNeeded now) = books s := by
  unfold SequencerImpl.unblockAndUpdateStatisticIfNeeded
  split <;> rfl

@[simp] theorem books_updateStartBlocking (s : SequencerImpl) :
    books s.updateStartBlockingTimeIfNeeded = books s := by
  unfold SequencerImpl.updateStartBlockingTimeIfNeeded
  split <;> rfl

@[simp] theorem books_reschedule (s : SequencerImpl) (p : Bool) : books (s.reschedule p) = books s := by
  unfold SequencerImpl.reschedule
  split_ifs <;> simp

theorem log_balanced {k : ℕ} {s : SequencerImpl} (hs : Balanced k s) {i : Interaction} (h1 : i ≠ .acquired)
    (h2 : i ≠ .released) (h3 : i.isAccepted = false) : Balanced k (s.log i) := by
  obtain ⟨b1, b2, b3, b4, b5, b6, b7⟩ := hs
  refine ⟨?_, ?_, b3, b4, b5, b6, releases_snoc b7 h2⟩
  · simpa [SequencerImpl.log, List.count_singleton, h1, h2] using b1
  · simpa [SequencerImpl.log, h3] using b2

theorem stop_balanced {k : ℕ} {s : SequencerImpl} (hs : Balanced k s) (failed : Bool) :
    Balanced k (s.stop failed) := by
  unfold SequencerImpl.stop
  apply log_balanced _ (by simp) (by simp) rfl
  apply balanced_of_books hs
  rw [books_unblock]
  split_ifs <;> exact books_assert s _ _

theorem evaluate_balanced {k : ℕ} {s : SequencerImpl} (hs : Balanced k s) (predicates : List Status) :
    Balanced k (s.evaluate predicates) := by
  unfold SequencerImpl.evaluate
  split
  · exact balanced_of_books (log_balanced hs (by simp) (by simp) rfl) rfl
  · exact hs

/-! ## Completions -/

theorem complete_books {s t : SequencerImpl} {id : ℕ} {time : ℤ} (h : s.complete id time = some t) :
    ∃ c ∈ s.outstanding, c.id = id ∧
      books t = (s.trace ++ [.completed id], s.targetsInitiated, s.targetsCompleted + 1,
        s.latencyStatistic ++ [time - c.now], s.outstanding.filter (·.id ≠ id), s.calls) := by
  unfold SequencerImpl.complete at h
  split at h
  · cases h
  · rename_i c hfind
    simp only [Option.some.injEq] at h
    refine ⟨c, List.mem_of_find?_eq_some hfind, by simpa using List.find?_some hfind, ?_⟩
    rw [← h]
    split_ifs
    · rw [books_scheduleSpin]; rfl
    · rfl

theorem complete_balanced {k : ℕ} {s t : SequencerImpl} (hs : Balanced k s) {id : ℕ} {time : ℤ}
    (h : s.complete id time = some t) : Balanced k t := by
  obtain ⟨c, hc, rfl, hbooks⟩ := complete_books h
  obtain ⟨b1, b2, b3, b4, b5, b6, b7⟩ := log_balanced (i := .completed c.id) hs (by simp) (by simp) rfl
  have hlen := Keyed.length_filter_ne Callback.id b5 hc
  have hsub : (s.outstanding.filter (·.id ≠ c.id)).Sublist s.outstanding := List.filter_sublist
  refine balanced_of_books (s := { s.log (.completed c.id) with
    outstanding := s.outstanding.filter (·.id ≠ c.id)
    latencyStatistic := s.latencyStatistic ++ [time - c.now]
    targetsCompleted := s.targetsCompleted + 1 }) ⟨b1, b2, ?_, ?_, b5.sublist (hsub.map _), ?_, b7⟩ hbooks
  · show (s.latencyStatistic ++ [time - c.now]).length = s.targetsCompleted + 1
    rw [List.length_append, List.length_singleton]
    exact congrArg (· + 1) b3
  · simp only [SequencerImpl.log] at b4 hlen ⊢
    omega
  · exact fun d hd => b6 d (hsub.subset hd)

theorem completeAll_balanced {k : ℕ} {s t : SequencerImpl} (hs : Balanced k s) {cs : List (ℕ × ℤ)}
    (h : s.completeAll cs = some t) :
    Balanced k t ∧ t.calls = s.calls ∧
      ∃ inside, t.trace = s.trace ++ inside ∧ ∀ i ∈ inside, i.isCompleted = true := by
  induction cs generalizing s with
  | nil =>
    cases h
    exact ⟨hs, rfl, [], by simp, by simp⟩
  | cons c cs ih =>
    obtain ⟨u, hu, ht⟩ := Option.bind_eq_some_iff.mp h
    obtain ⟨_, _, _, hbooks⟩ := complete_books hu
    simp only [books, Prod.mk.injEq] at hbooks
    obtain ⟨hbal, hcalls, inside, htrace, hin⟩ := ih (complete_balanced hs hu) ht
    refine ⟨hbal, hcalls.trans hbooks.2.2.2.2.2, .completed c.1 :: inside, ?_, ?_⟩
    · rw [htrace, hbooks.1, List.append_assoc]
      rfl
    · simpa [Interaction.isCompleted] using hin

/-! ## The loop -/

theorem call_balanced {s : SequencerImpl} (hs : Balanced 0 s) (now : ℤ) : Balanced 1 (s.call now) := by
  obtain ⟨b1, b2, b3, b4, b5, b6, b7⟩ := hs
  refine ⟨?_, ?_, b3, ?_, ?_, ?_, releases_snoc b7 (by simp)⟩
  · simp [SequencerImpl.call, SequencerImpl.log, b1]
  · simpa [SequencerImpl.call, SequencerImpl.log, Interaction.isAccepted] using b2
  · simp only [SequencerImpl.call, SequencerImpl.log, List.length_append, List.length_singleton]
    omega
  · simp only [SequencerImpl.call, List.map_append, List.map_cons, List.map_nil, List.nodup_append]
    refine ⟨b5, by simp, ?_⟩
    -- Every earlier id is below the number of calls.
    intro id hid id' hid' heq
    obtain ⟨c, hc, rfl⟩ := List.mem_map.mp hid
    have hlt := b6 c hc
    rw [heq, List.mem_singleton.mp hid'] at hlt
    exact Nat.lt_irrefl _ hlt
  · intro c hc
    rcases List.mem_append.mp hc with hc | hc
    · exact Nat.lt_succ_of_lt (b6 c hc)
    · rw [List.mem_singleton.mp hc]
      exact Nat.lt_succ_self _

theorem accepted_balanced {s : SequencerImpl} (hs : Balanced 1 s) (id : ℕ) (now : ℤ) :
    let t := (s.log (.accepted id)).unblockAndUpdateStatisticIfNeeded now
    Balanced 0 { t with targetsInitiated := t.targetsInitiated + 1 } := by
  intro t
  obtain ⟨b1, b2, b3, b4, b5, b6, b7⟩ := hs
  have hbooks : books t = books (s.log (.accepted id)) := books_unblock _ _
  simp only [books, Prod.mk.injEq] at hbooks
  refine balanced_of_books (s := { s.log (.accepted id) with targetsInitiated := s.targetsInitiated + 1 })
    ⟨?_, ?_, b3, ?_, b5, b6, releases_snoc b7 (by simp)⟩ (by simp only [books, hbooks]; rfl)
  · simp [SequencerImpl.log, b1]
    omega
  · simp [SequencerImpl.log, Interaction.isAccepted, b2]
  · exact b4

theorem refused_balanced {s : SequencerImpl} (hs : Balanced 1 s) {id : ℕ}
    (hid : s.outstanding.any (·.id = id))
    {earlier inside : List Interaction} (htrace : s.trace = earlier ++ .acquired :: inside)
    (hin : ∀ i ∈ inside, i.isCompleted = true) :
    let t := { s.log (.refused id) with outstanding := s.outstanding.filter (·.id ≠ id) }
    Balanced 0 (t.updateStartBlockingTimeIfNeeded.log .released) := by
  intro t
  obtain ⟨c, hc, hcid⟩ := List.any_eq_true.mp hid
  obtain rfl : c.id = id := of_decide_eq_true hcid
  obtain ⟨b1, b2, b3, b4, b5, b6, b7⟩ := hs
  have hlen := Keyed.length_filter_ne Callback.id b5 hc
  have hsub : (s.outstanding.filter (·.id ≠ c.id)).Sublist s.outstanding := List.filter_sublist
  have hbooks := books_updateStartBlocking t
  simp only [books, Prod.mk.injEq] at hbooks
  refine balanced_of_books (s := t.log .released) ⟨?_, ?_, b3, ?_, b5.sublist (hsub.map _), ?_, ?_⟩
    (by simp only [books, SequencerImpl.log, hbooks])
  · simp [t, SequencerImpl.log, b1]
    omega
  · simpa [t, SequencerImpl.log, Interaction.isAccepted] using b2
  · simp only [t, SequencerImpl.log] at hlen ⊢
    omega
  · exact fun d hd => b6 d (hsub.subset hd)
  · have hsplit : s.trace ++ [.refused c.id] =
      earlier ++ .acquired :: inside ++ [.refused c.id] := by rw [htrace]
    exact releases_released (releases_snoc b7 (by simp)) hsplit hin

theorem attempt_balanced {s t : SequencerImpl} (hs : Balanced 0 s) {now : ℤ} {a : SequencerImpl.Attempt}
    (h : s.attempt now a = some t) : Balanced 0 t := by
  unfold SequencerImpl.attempt at h
  obtain ⟨u, hu, ht⟩ := Option.bind_eq_some_iff.mp h
  obtain ⟨hbal, -, inside, htrace, hin⟩ := completeAll_balanced (call_balanced hs now) hu
  have hopen : u.trace = s.trace ++ .acquired :: inside := by
    rw [htrace]
    exact List.append_assoc ..
  split_ifs at ht with hacc hid
  · cases ht
    exact accepted_balanced hbal _ _
  · cases ht
    exact refused_balanced hbal hid hopen hin

theorem loop_balanced {s t : SequencerImpl} (hs : Balanced 0 s) {now : ℤ}
    {attempts : List SequencerImpl.Attempt}
    (h : s.loop now attempts = some t) : Balanced 0 t := by
  induction attempts generalizing s with
  | nil =>
    cases h
    exact log_balanced hs (by simp) (by simp) rfl
  | cons a rest ih =>
    obtain ⟨u, hu, ht⟩ := Option.bind_eq_some_iff.mp h
    have hbal := attempt_balanced hs hu
    split_ifs at ht with hacc hrest
    · exact ih hbal ht
    · cases ht
      exact hbal

/-! ## Whole runs -/

theorem run_balanced {s t : SequencerImpl} (hs : Balanced 0 s) {p : Bool} {r : SequencerImpl.Script}
    (h : s.run p r = some t) : Balanced 0 t := by
  unfold SequencerImpl.run at h
  have hassert : Balanced 0 { s.assert s.running "running_" with monotonicTime := r.now } :=
    balanced_of_books hs (books_assert s _ _)
  have heval := evaluate_balanced hassert r.predicates
  simp only at h
  split_ifs at h
  · cases h
    exact stop_balanced heval _
  · obtain ⟨u, hu, rfl⟩ := Option.map_eq_some_iff.mp h
    exact balanced_of_books (loop_balanced heval hu) (books_reschedule u p)

theorem step_balanced (s : SequencerImpl) (e : Event) (t : SequencerImpl) (hs : Balanced 0 s)
    (h : step s e = some t) : Balanced 0 t := by
  cases e with
  | start r =>
    simp only [step, SequencerImpl.start] at h
    split_ifs at h
    refine run_balanced (balanced_of_books hs ?_) h
    rw [books_scheduleRun]
    exact books_assert s _ _
  | periodicTimer r =>
    simp only [step] at h
    split_ifs at h
    exact run_balanced (balanced_of_books (t := { s with periodicTimer := some false }) hs rfl) h
  | spinTimer r =>
    simp only [step] at h
    split_ifs at h
    exact run_balanced (balanced_of_books (t := { s with spinTimer := some false }) hs rfl) h
  | completion id time => exact complete_balanced hs h

theorem balanced_init (i : IdleStrategy) : Balanced 0 { idleStrategy := i } := by
  refine ⟨rfl, rfl, rfl, rfl, List.nodup_nil, by simp, ?_⟩
  intro before after h
  simp at h

/-- After every event of every run. -/
theorem conservation (i : IdleStrategy) (events : List Event) (s : SequencerImpl)
    (h : Runs.exec step { idleStrategy := i } events = some s) :
    s.trace.count .acquired - s.trace.count .released = s.targetsInitiated ∧
      s.trace.count .released ≤ s.trace.count .acquired ∧
      s.targetsInitiated = s.trace.countP Interaction.isAccepted ∧
      s.latencyStatistic.length = s.targetsCompleted ∧
      s.targetsCompleted ≤ s.targetsInitiated ∧
      ReleasesFollowRefusals s.trace := by
  obtain ⟨b1, b2, b3, b4, -, -, b7⟩ := Runs.exec_inv step_balanced (balanced_init i) h
  exact ⟨by omega, by omega, b2.symm, b3, by omega, b7⟩

/-- A call that completes inside itself, a call that completes after the stop, and a refused one. -/
def stoppedRun : List Event :=
  [.start ⟨0, [.proceed], [⟨[(0, 1)], true⟩, ⟨[], true⟩, ⟨[], false⟩]⟩, .spinTimer ⟨2, [.fail, .proceed], []⟩,
    .completion 1 5]

theorem conservation_after_stop :
    ∃ s, Runs.exec step { idleStrategy := .spin } stoppedRun = some s ∧
      s.running = false ∧ s.targetsInitiated = 2 ∧ s.latencyStatistic = [1, 5] ∧
      s.trace.count .acquired - s.trace.count .released = s.targetsInitiated ∧
        ReleasesFollowRefusals s.trace := by
  refine ⟨_, rfl, rfl, rfl, rfl, ?_, ?_⟩
  · exact (conservation .spin stoppedRun _ rfl).1
  · exact (conservation .spin stoppedRun _ rfl).2.2.2.2.2

end Nighthawk.Sequencer

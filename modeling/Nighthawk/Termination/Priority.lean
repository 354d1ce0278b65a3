import Nighthawk.Termination.Code

/-!
# Which predicate decides

A chain is evaluated from its last predicate to its first, and the first status that is not
`PROCEED` is the result. So the groups count in the reverse of the order in which they were linked.
-/

namespace Nighthawk.Termination

open Options

/-! ## Chains as lists -/

namespace TerminationPredicate

/-- The predicates from the root on. -/
def toList : TerminationPredicate → List Predicate
  | .single own => [own]
  | .linked own linkedChild => own :: linkedChild.toList

theorem evaluateChain_eq (w : World) (p : TerminationPredicate) :
    p.evaluateChain w = Sequencer.evaluateChain (p.toList.map (Predicate.evaluate w)) := by
  induction p with
  | single own => cases h : own.evaluate w <;> simp [evaluateChain, toList, Sequencer.evaluateChain, h]
  | linked own linkedChild ih =>
    rw [evaluateChain, ih]
    rfl

/-- The end of a chain has no child yet, so appending always works. -/
theorem exists_appendToChain (p child : TerminationPredicate) :
    ∃ q, p.appendToChain child = some q ∧ q.toList = p.toList ++ child.toList := by
  induction p with
  | single own => exact ⟨_, rfl, rfl⟩
  | linked own linkedChild ih =>
    obtain ⟨q, hq, hlist⟩ := ih
    refine ⟨.linked own q, by rw [appendToChain, hq]; rfl, ?_⟩
    rw [toList, hlist]
    rfl

theorem modifyAt_link_eq_appendToChain (p child : TerminationPredicate) :
    p.modifyAt (·.link child) (p.toList.length - 1) = p.appendToChain child := by
  induction p with
  | single own => rfl
  | linked own linkedChild ih =>
    have hlength : linkedChild.toList.length = linkedChild.toList.length - 1 + 1 := by
      cases linkedChild <;> simp [toList]
    rw [appendToChain, ← ih]
    show modifyAt _ linkedChild.toList.length (.linked own linkedChild) = _
    rw [hlength]
    rfl

end TerminationPredicate

/-! ## The factory -/

def Chain.AtEnd (c : Chain) : Prop := c.current = c.root.toList.length - 1

theorem link_atEnd {c : Chain} (h : c.AtEnd) (child : Predicate) :
    ∃ c', c.link child = some c' ∧ c'.AtEnd ∧ c'.root.toList = c.root.toList ++ [child] := by
  obtain ⟨q, hq, hlist⟩ := c.root.exists_appendToChain (.single child)
  have hlength : c.root.toList.length - 1 + 1 = c.root.toList.length := by
    cases c.root <;> simp [TerminationPredicate.toList]
  refine ⟨⟨q, c.current + 1⟩, ?_, ?_, hlist⟩
  · rw [Chain.link, h, TerminationPredicate.modifyAt_link_eq_appendToChain, hq, Option.map_some, ← h]
  · rw [Chain.AtEnd, hlist, List.length_append, h, hlength]
    rfl

def configured (terminationStatus : Sequencer.Status) (p : Str × UInt64) : Predicate :=
  .statsCounterAbsoluteThreshold p.1 p.2 terminationStatus

theorem linkConfiguredPredicates_atEnd {c : Chain} (h : c.AtEnd) (predicates : List (Str × UInt64))
    {status : Sequencer.Status} (hstatus : status ≠ .proceed) :
    ∃ c', linkConfiguredPredicates c predicates status = some c' ∧ c'.AtEnd ∧
      c'.root.toList = c.root.toList ++ predicates.map (configured status) := by
  rw [linkConfiguredPredicates, if_neg hstatus]
  induction predicates generalizing c with
  | nil => exact ⟨c, rfl, h, (List.append_nil _).symm⟩
  | cons p predicates ih =>
    obtain ⟨c₁, hlink, hend, hlist⟩ := link_atEnd h (configured status p)
    obtain ⟨c₂, hfold, hend', hlist'⟩ := ih hend
    refine ⟨c₂, ?_, hend', ?_⟩
    · rw [List.foldlM_cons]
      exact Option.bind_eq_some_iff.mpr ⟨c₁, hlink, hfold⟩
    · rw [hlist', hlist, List.append_assoc]
      rfl

theorem linkDuration_atEnd {c : Chain} (h : c.AtEnd) (o : OptionsImpl) (scheduledStartingTime : ℤ) :
    ∃ c', linkDuration c o scheduledStartingTime = some c' ∧ c'.AtEnd ∧
      c'.root.toList = c.root.toList ++ if o.noDuration then
        [] else [durationPredicate o scheduledStartingTime] := by
  unfold linkDuration
  split_ifs
  · exact ⟨c, rfl, h, (List.append_nil _).symm⟩
  · exact link_atEnd h _

/-- The predicates in the order in which they are linked. No assertion fails. -/
theorem exists_create (o : OptionsImpl) (scheduledStartingTime : ℤ) :
    ∃ p, create o scheduledStartingTime = some p ∧ p.toList =
      gracefulStop :: (if o.noDuration then [] else [durationPredicate o scheduledStartingTime]) ++
        o.failurePredicates.map (configured .fail) ++
          o.terminationPredicates.map (configured .terminate) := by
  have hroot : Chain.AtEnd ⟨.single gracefulStop, 0⟩ := rfl
  obtain ⟨c₁, h₁, hend₁, hlist₁⟩ := linkDuration_atEnd hroot o scheduledStartingTime
  obtain ⟨c₂, h₂, hend₂, hlist₂⟩ :=
    linkConfiguredPredicates_atEnd hend₁ o.failurePredicates (show Sequencer.Status.fail ≠ .proceed by decide)
  obtain ⟨c₃, h₃, -, hlist₃⟩ :=
    linkConfiguredPredicates_atEnd hend₂ o.terminationPredicates
      (show Sequencer.Status.terminate ≠ .proceed by decide)
  refine ⟨c₃.root, ?_, ?_⟩
  · simp only [create, h₁, h₂, h₃, Option.bind_eq_bind, Option.bind_some]
    rfl
  · rw [hlist₃, hlist₂, hlist₁]
    rfl

/-! ## Evaluation -/

theorem evaluateChain_append (first last : List Sequencer.Status) :
    Sequencer.evaluateChain (first ++ last) =
      if Sequencer.evaluateChain last = .proceed then
        Sequencer.evaluateChain first else Sequencer.evaluateChain last := by
  induction first with
  | nil =>
    split_ifs with h
    · exact h
    · rfl
  | cons own first ih =>
    rw [List.cons_append, Sequencer.evaluateChain, ih]
    by_cases h : Sequencer.evaluateChain last = .proceed
    · simp only [h, if_true]
      rfl
    · simp only [h, if_false]

def Exceeded (w : World) (predicates : List (Str × UInt64)) : Prop := ∃ p ∈ predicates, w.counters p.1 > p.2

instance (w : World) (predicates : List (Str × UInt64)) : Decidable (Exceeded w predicates) :=
  inferInstanceAs (Decidable (∃ p ∈ predicates, w.counters p.1 > p.2))

theorem exceeded_cons {w : World} {p : Str × UInt64} {predicates : List (Str × UInt64)} :
    Exceeded w (p :: predicates) ↔ w.counters p.1 > p.2 ∨ Exceeded w predicates := by
  simp [Exceeded]

theorem evaluateChain_configured (w : World) (predicates : List (Str × UInt64)) {status : Sequencer.Status}
    (hstatus : status ≠ .proceed) :
    Sequencer.evaluateChain ((predicates.map (configured status)).map (Predicate.evaluate w)) =
      if Exceeded w predicates then status else .proceed := by
  induction predicates with
  | nil => rfl
  | cons p predicates ih =>
    rw [List.map_cons, List.map_cons, Sequencer.evaluateChain, ih]
    simp only [exceeded_cons]
    by_cases hrest : Exceeded w predicates
    · simp only [hrest, if_true, or_true, hstatus, if_false]
    · simp only [hrest, if_false, or_false, if_true]
      rfl

def DurationPassed (o : OptionsImpl) (scheduledStartingTime : ℤ) (w : World) : Prop :=
  o.noDuration = false ∧ w.monotonicTime - scheduledStartingTime > o.duration.toNat * 1000000000

def GracefulStopRequested (w : World) : Prop := w.counters "graceful_stop_requested".toList > 0

instance (o : OptionsImpl) (scheduledStartingTime : ℤ) (w : World) :
    Decidable (DurationPassed o scheduledStartingTime w) :=
  inferInstanceAs (Decidable (_ ∧ _))

instance (w : World) : Decidable (GracefulStopRequested w) := inferInstanceAs (Decidable (_ > _))

theorem evaluate_durationPredicate (o : OptionsImpl) (scheduledStartingTime : ℤ) (w : World)
    (h : o.noDuration = false) :
    (durationPredicate o scheduledStartingTime).evaluate w =
      if DurationPassed o scheduledStartingTime w then .terminate else .proceed := by
  have htime : o.duration.toNat * 1000000 * 1000 = (o.duration.toNat * 1000000000 : ℤ) := by omega
  simp only [durationPredicate, Predicate.evaluate, DurationPassed, h, true_and, htime]

theorem evaluateChain_root (w : World) (o : OptionsImpl) (scheduledStartingTime : ℤ) :
    Sequencer.evaluateChain ((gracefulStop ::
        if o.noDuration then []
          else [durationPredicate o scheduledStartingTime]).map (Predicate.evaluate w)) =
      if DurationPassed o scheduledStartingTime w ∨ GracefulStopRequested w then
        .terminate else .proceed := by
  have hgraceful : gracefulStop.evaluate w = if GracefulStopRequested w then .terminate else .proceed := rfl
  cases hduration : o.noDuration with
  | true =>
    have hnot : ¬DurationPassed o scheduledStartingTime w := fun hpassed => by simp [hpassed.1] at hduration
    simp only [if_true, List.map_cons, List.map_nil, Sequencer.evaluateChain, hgraceful, hnot, false_or]
  | false =>
    simp only [Bool.false_eq_true, if_false, List.map_cons, List.map_nil, Sequencer.evaluateChain, if_true,
      hgraceful, evaluate_durationPredicate o scheduledStartingTime w hduration]
    by_cases hpassed : DurationPassed o scheduledStartingTime w
    · simp [hpassed]
    · simp [hpassed]

theorem evaluateChain_create {o : OptionsImpl} {scheduledStartingTime : ℤ} {p : TerminationPredicate}
    (h : create o scheduledStartingTime = some p) (w : World) :
    p.evaluateChain w =
      if Exceeded w o.terminationPredicates then .terminate
      else if Exceeded w o.failurePredicates then .fail
      else if DurationPassed o scheduledStartingTime w ∨ GracefulStopRequested w then .terminate
      else .proceed := by
  obtain ⟨q, hq, hlist⟩ := exists_create o scheduledStartingTime
  obtain rfl : q = p := Option.some.inj (hq.symm.trans h)
  rw [q.evaluateChain_eq, hlist, List.map_append, List.map_append, evaluateChain_append, evaluateChain_append,
    evaluateChain_root, evaluateChain_configured w _ (by decide), evaluateChain_configured w _ (by decide)]
  by_cases hterminate : Exceeded w o.terminationPredicates
  · simp [hterminate]
  · by_cases hfail : Exceeded w o.failurePredicates
    · simp [hterminate, hfail]
    · simp [hterminate, hfail]

/-- A termination predicate wins over a failure predicate, and both over the duration and the
graceful stop, whatever the order of the predicates in each group. -/
theorem termination_priority (o : OptionsImpl) (scheduledStartingTime : ℤ) (w : World) :
    ∃ p, create o scheduledStartingTime = some p ∧
      (p.evaluateChain w = .fail ↔ Exceeded w o.failurePredicates ∧ ¬Exceeded w o.terminationPredicates) ∧
      (p.evaluateChain w = .terminate ↔ Exceeded w o.terminationPredicates ∨
        (¬Exceeded w o.failurePredicates ∧
          (DurationPassed o scheduledStartingTime w ∨ GracefulStopRequested w))) ∧
      (p.evaluateChain w = .proceed ↔ ¬Exceeded w o.terminationPredicates ∧ ¬Exceeded w o.failurePredicates ∧
        ¬DurationPassed o scheduledStartingTime w ∧ ¬GracefulStopRequested w) := by
  obtain ⟨p, hp, -⟩ := exists_create o scheduledStartingTime
  refine ⟨p, hp, ?_⟩
  rw [evaluateChain_create hp]
  by_cases hterminate : Exceeded w o.terminationPredicates
  · simp [hterminate]
  by_cases hfail : Exceeded w o.failurePredicates
  · simp [hterminate, hfail]
  by_cases hlast : DurationPassed o scheduledStartingTime w ∨ GracefulStopRequested w
  · simp [hterminate, hfail, hlast, ← not_or]
  · simp [hterminate, hfail, hlast, ← not_or]

end Nighthawk.Termination

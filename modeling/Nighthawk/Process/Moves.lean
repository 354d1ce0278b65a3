import Nighthawk.Lib.Runs
import Nighthawk.Process.Code

/-!
# What a step of the process can do

Where the main thread is tells what it has done to each worker. With that, no call on a worker fails,
and a step is one of a list of moves.
-/

namespace Nighthawk.Process

/-! ## A worker -/

/-- What the members of a worker say about each other. -/
structure WorkerImpl.Sound (w : WorkerImpl) : Prop where
  thread : w.thread = none ↔ w.started = false
  complete : w.complete = true ↔ w.thread = some .waiting ∨ w.thread = some .leaving ∨ w.thread = some .done
  signal : w.signalThreadToExit = w.exitSignaled
  leaving : w.thread = some .leaving ∨ w.thread = some .done → w.exitSignaled = true
  joined : w.joined = true → w.thread = some .done
  shutDown : w.shutDown = true ↔ w.started = false ∨ w.exitSignaled = true

/-- The actions of a worker's thread. -/
inductive ThreadMoves (workReturns : Bool) (w : WorkerImpl) : WorkerImpl → Prop
  | enter (h : w.thread = some .entering) :
    ThreadMoves workReturns w { w with
      thread := some .working
      gracefulStopRequested := w.gracefulStopRequested + w.posted
      posted := 0
      exiting := false }
  | work (h : w.thread = some .working) (hr : workReturns = true) :
    ThreadMoves workReturns w { w with thread := some .completing }
  | complete (h : w.thread = some .completing) :
    ThreadMoves workReturns w { w with thread := some .waiting, complete := true }
  | signalled (h : w.thread = some .waiting) (hs : w.signalThreadToExit = true) :
    ThreadMoves workReturns w { w with thread := some .leaving }
  | leave (h : w.thread = some .leaving) : ThreadMoves workReturns w { w with thread := some .done }

/-! ## Where the main thread is -/

/-- What the main thread has done to worker `i` when it is here. -/
def At : MainPc → ℕ → WorkerImpl → Prop
  | .starting, _, _ | .forking, _, _ | .awaiting, _, _ | .locking, _, _ | .checking, _, _ => False
  | .finishing, _, _ | .stopped, _, _ | .destroyed, _, _ => False
  | .creating, _, w | .configuring, _, w | .startingFlush, _, w =>
    w.started = false ∧ w.exitSignaled = false ∧ w.retrieved = false
  | .startingWorkers j, i, w => w.started = decide (i < j) ∧ w.exitSignaled = false ∧ w.retrieved = false
  | .waiting j, i, w =>
    w.started = true ∧ w.exitSignaled = false ∧ w.retrieved = decide (i < j) ∧ (i < j → w.complete = true)
  | .exitingFlush, _, w | .waitingFlush, _, w | .reporting, _, w =>
    w.started = true ∧ w.exitSignaled = false ∧ w.complete = true
  | .returned _, _, w | .terminating, _, w | .lockingShutdown, _, w | .stoppingFlush, _,
      w | .joiningFlush, _, w =>
    w.exitSignaled = false ∧ (w.started = true → w.complete = true)
  | .signalling j, i, w =>
    w.exitSignaled = decide (i < j) ∧ w.joined = false ∧ (w.started = true → w.complete = true)
  | .joining j, i, w =>
    w.exitSignaled = true ∧ w.joined = (decide (i < j) && w.started) ∧ (w.started = true → w.complete = true)
  | .clearing, _, w => w.exitSignaled = true ∧ w.joined = w.started

/-- What it has done to the flush worker. -/
def FlushAt : MainPc → WorkerImpl → Prop
  | .starting, _ | .forking, _ | .awaiting, _ | .locking, _ | .checking, _ | .creating,
      _ | .configuring, _ => False
  | .startingFlush, _ | .destroyed, _ => False
  | .startingWorkers _, f | .waiting _, f | .exitingFlush, f | .waitingFlush, f =>
    f.started = true ∧ f.exitSignaled = false ∧ f.retrieved = false
  | .reporting, f | .returned _, f | .terminating, f | .lockingShutdown, f | .stoppingFlush, f =>
    f.started = true ∧ f.exitSignaled = false ∧ f.complete = true
  | .joiningFlush, f => f.started = true ∧ f.exitSignaled = true ∧ f.joined = false ∧ f.complete = true
  | .signalling _, f | .joining _, f | .clearing, f | .finishing, f | .stopped, f =>
    f.exitSignaled = true ∧ f.joined = true

/-- The main thread uses the flush worker here. -/
def MainPc.flushes : MainPc → Bool
  | .exitingFlush | .waitingFlush | .joiningFlush => true
  | _ => false

/-- The main thread creates or starts workers here. -/
def MainPc.builds : MainPc → Bool
  | .creating | .configuring | .startingFlush | .startingWorkers _ => true
  | _ => false

/-- `fresh` tells what there is to destroy when `run` throws. -/
structure Ordered (c : Config) (s : ProcessImpl) : Prop where
  sound : ∀ i w, s.workers[i]? = some w → w.Sound ∧ At s.main i w
  flush : ∀ f, s.flushWorker = some f → f.Sound ∧ FlushAt s.main f
  flushThere : s.main.flushes = true → s.flushWorker.isSome = true
  sinks : s.main = .startingFlush ∨ s.flushWorker.isSome = true → c.statsSinks = true
  length : s.workers.length ≤ c.numberOfWorkers
  shutDown : s.main = .stopped → s.shutDown = true
  builds : s.main.builds = true → s.shutDown = false
  fresh : s.main.inRun = true → s.shutDown = true → s.workers = [] ∧ s.flushWorker = none
  aborted : s.aborted = none

/-! ## The moves -/

inductive Moves (c : Config) (s : ProcessImpl) : Event → ProcessImpl → Prop
  -- `run`
  | begin (r) (h : s.main = .starting) :
    Moves c s (.main true r) { s with encapRunner := true, main := .forking }
  | refuse (r) (h : s.main = .starting ∨ s.main = .forking) :
    Moves c s (.main false r) { s with main := .returned false }
  | fork (r) (h : s.main = .forking) :
    Moves c s (.main true r) { s with child := .starting, main := .awaiting }
  | wake (ok r) (h : s.main = .awaiting) (hs : 0 < s.semaphore) :
    Moves c s (.main ok r) { s with semaphore := s.semaphore - 1, main := .locking }
  | lock (ok r) (h : s.main = .locking) (hl : s.workersLock = none) :
    Moves c s (.main ok r) { s with workersLock := some .main, main := .checking }
  | skip (ok r) (h : s.main = .checking) (hc : s.cancelled = true) :
    Moves c s (.main ok r) { s with workersLock := none, main := .waiting 0 }
  | checkFails (r) (h : s.main = .checking) (hc : s.cancelled = false) :
    Moves c s (.main false r) { s with shutDown := false, workersLock := none, main := .returned false }
  | check (ok r) (h : s.main = .checking) (hc : s.cancelled = false) :
    Moves c s (.main ok r) { s with shutDown := false, main := .creating }
  | create (r) (h : s.main = .creating) (hl : s.workers.length < c.numberOfWorkers) :
    Moves c s (.main true r) { s with workers := s.workers ++ [{}] }
  | giveUp (r) (h : s.main = .creating ∨ s.main = .configuring) :
    Moves c s (.main false r) { s with workersLock := none, main := .returned false }
  | created (ok r) (h : s.main = .creating) (hl : c.numberOfWorkers ≤ s.workers.length) :
    Moves c s (.main ok r) { s with main := .configuring }
  | configure (r pc) (h : s.main = .configuring) (hpc : pc = .startingFlush ∧ c.statsSinks = true ∨
    pc = .startingWorkers 0) :
    Moves c s (.main true r) { s with main := pc }
  | startFlush (ok r) (h : s.main = .startingFlush) :
    Moves c s (.main ok r) { s with
      flushWorker := some { started := true, shutDown := false, thread := some .entering }
      main := .startingWorkers 0 }
  | startWorker (ok r i w) (h : s.main = .startingWorkers i) (hw : s.workers[i]? = some w) :
    Moves c s (.main ok r) { s with
      workers := s.workers.set i { w with started := true, shutDown := false, thread := some .entering }
      main := .startingWorkers (i + 1) }
  | startedAll (ok r i) (h : s.main = .startingWorkers i) (hw : s.workers[i]? = none) :
    Moves c s (.main ok r) { s with workersLock := none, main := .waiting 0 }
  | wait (ok r i w) (h : s.main = .waiting i) (hw : s.workers[i]? = some w) (hc : w.complete = true) :
    Moves c s (.main ok r)
      { s with workers := s.workers.set i { w with retrieved := true }, main := .waiting (i + 1) }
  | waitedAll (ok r i pc) (h : s.main = .waiting i) (hw : s.workers[i]? = none)
    (hpc : pc = .exitingFlush ∧ s.flushWorker.isSome = true ∨
      pc = .reporting ∧ (s.flushWorker.isSome = true → c.statsSinks = false)) :
    Moves c s (.main ok r) { s with main := pc }
  | exitFlush (ok r f) (h : s.main = .exitingFlush) (hf : s.flushWorker = some f) :
    Moves c s (.main ok r) { s with flushWorker := some { f with exiting := true }, main := .waitingFlush }
  | waitFlush (ok r f) (h : s.main = .waitingFlush) (hf : s.flushWorker = some f) (hc : f.complete = true) :
    Moves c s (.main ok r) { s with flushWorker := some { f with retrieved := true }, main := .reporting }
  | report (ok r) (h : s.main = .reporting) : Moves c s (.main ok r) { s with main := .returned ok }
  -- `shutdown` and the destructor
  | shutdown (ok r result) (h : s.main = .returned result) :
    Moves c s (.main ok r) { s with main := .terminating }
  | terminate (ok r) (h : s.main = .terminating) :
    Moves c s (.main ok r) { s with
      child := if s.encapRunner then (s.child.terminate r).1 else s.child
      main := .lockingShutdown }
  | lockShutdown (ok r) (h : s.main = .lockingShutdown) (hl : s.workersLock = none) :
    Moves c s (.main ok r) { s with workersLock := some .main, main := .stoppingFlush }
  | noFlush (ok r) (h : s.main = .stoppingFlush) (hf : s.flushWorker = none) :
    Moves c s (.main ok r) { s with main := .signalling 0 }
  | stopFlush (ok r f) (h : s.main = .stoppingFlush) (hf : s.flushWorker = some f) :
    Moves c s (.main ok r) { s with
      flushWorker := some { f with shutDown := true, exitSignaled := true, signalThreadToExit := true }
      main := .joiningFlush }
  | joinFlush (ok r f) (h : s.main = .joiningFlush) (hf : s.flushWorker = some f)
    (hd : f.thread = some .done) :
    Moves c s (.main ok r) { s with flushWorker := some { f with joined := true }, main := .signalling 0 }
  | signal (ok r i w) (h : s.main = .signalling i) (hw : s.workers[i]? = some w) :
    Moves c s (.main ok r) { s with
      workers := s.workers.set i { w with shutDown := true, exitSignaled := true, signalThreadToExit := true }
      main := .signalling (i + 1) }
  | signalledAll (ok r i) (h : s.main = .signalling i) (hw : s.workers[i]? = none) :
    Moves c s (.main ok r) { s with main := .joining 0 }
  | join (ok r i w) (h : s.main = .joining i) (hw : s.workers[i]? = some w) (hd : w.thread = some .done) :
    Moves c s (.main ok r)
      { s with workers := s.workers.set i { w with joined := true }, main := .joining (i + 1) }
  | joinNone (ok r i w) (h : s.main = .joining i) (hw : s.workers[i]? = some w) (hn : w.thread = none) :
    Moves c s (.main ok r) { s with main := .joining (i + 1) }
  | joinedAll (ok r i) (h : s.main = .joining i) (hw : s.workers[i]? = none) :
    Moves c s (.main ok r) { s with main := .clearing }
  | clear (ok r) (h : s.main = .clearing) :
    Moves c s (.main ok r) { s with workers := [], workersLock := none, main := .finishing }
  | finish (ok r) (h : s.main = .finishing) :
    Moves c s (.main ok r) { s with shutDown := true, main := .stopped }
  | destroy (ok r) (h : s.main = .stopped) (hc : ∀ pc ∈ s.cancellers, ∃ result, pc = .done result) :
    Moves c s (.main ok r) { s with
      workers := []
      flushWorker := none
      child := if s.encapRunner then (s.child.terminate r).1 else s.child
      main := .destroyed }
  -- `requestExecutionCancellation`
  | cancel (h : s.main ≠ .destroyed) : Moves c s .cancel { s with cancellers := s.cancellers ++ [.locking] }
  | lockCancel (k r) (h : s.cancellers[k]? = some .locking) (hl : s.workersLock = none) :
    Moves c s (.canceller k r) { s with
      workersLock := some (.canceller k)
      cancellers := s.cancellers.set k (.posting 0) }
  | post (k r i w) (h : s.cancellers[k]? = some (.posting i)) (hw : s.workers[i]? = some w) :
    Moves c s (.canceller k r) { s with
      workers := s.workers.set i { w with posted := w.posted + 1 }
      cancellers := s.cancellers.set k (.posting (i + 1)) }
  | postedAll (k r i pc) (h : s.cancellers[k]? = some (.posting i)) (hw : s.workers[i]? = none)
    (hpc : pc = .terminating ∨ pc = .setting) :
    Moves c s (.canceller k r) { s with cancellers := s.cancellers.set k pc }
  | cancelTerminates (k r) (h : s.cancellers[k]? = some .terminating) (hr : (s.child.terminate r).2 = true) :
    Moves c s (.canceller k r)
      { s with child := (s.child.terminate r).1, cancellers := s.cancellers.set k .setting }
  | cancelFails (k r) (h : s.cancellers[k]? = some .terminating) (hr : (s.child.terminate r).2 = false) :
    Moves c s (.canceller k r) { s with
      child := (s.child.terminate r).1
      workersLock := none
      cancellers := s.cancellers.set k (.done false) }
  | cancelled (k r) (h : s.cancellers[k]? = some .setting) :
    Moves c s (.canceller k r) { s with
      cancelled := true
      workersLock := none
      cancellers := s.cancellers.set k (.done true) }
  -- The other threads and the child
  | worker (i w w') (hw : s.workers[i]? = some w) (h : ThreadMoves true w w') :
    Moves c s (.worker i) { s with workers := s.workers.set i w' }
  | runPosted (i w) (hw : s.workers[i]? = some w) (hp : 0 < w.posted) :
    Moves c s (.runPosted i) { s with
      workers := s.workers.set i
        { w with posted := w.posted - 1, gracefulStopRequested := w.gracefulStopRequested + 1 } }
  | flush (f f') (hf : s.flushWorker = some f) (h : ThreadMoves f.exiting f f') :
    Moves c s .flush { s with flushWorker := some f' }
  | childPosts (h : s.child = .starting) :
    Moves c s .childPosts { s with child := .serving, semaphore := s.semaphore + 1 }
  | childExits (h : s.child = .starting ∨ s.child = .serving) :
    Moves c s .childExits { s with child := .exited }

variable {c : Config} {s t : ProcessImpl} {e : Event}

theorem threadStep_moves {workReturns : Bool} {w : WorkerImpl} {r : Except Abort WorkerImpl} (hs : w.Sound)
    (h : w.threadStep workReturns = some r) : ∃ w', r = .ok w' ∧ ThreadMoves workReturns w w' := by
  unfold WorkerImpl.threadStep at h
  split at h
  · cases h
  · cases h
    exact ⟨_, rfl, .enter ‹_›⟩
  · split_ifs at h with hr
    cases h
    exact ⟨_, rfl, .work ‹_› hr⟩
  · rename_i hthread
    have hcomplete : ¬w.complete = true := by
      rw [hs.complete, hthread]
      simp
    rw [if_neg hcomplete] at h
    cases h
    exact ⟨_, rfl, .complete hthread⟩
  · split_ifs at h with hsignal
    cases h
    exact ⟨_, rfl, .signalled ‹_› hsignal⟩
  · cases h
    exact ⟨_, rfl, .leave ‹_›⟩
  · cases h

namespace WorkerImpl

variable {w : WorkerImpl}

theorem start_eq (h : w.started = false) :
    w.start = .ok { w with started := true, shutDown := false, thread := some .entering } := by
  simp [start, h]

theorem initiateShutdown_eq (hs : w.Sound) (h : w.exitSignaled = false) :
    w.initiateShutdown = .ok { w with shutDown := true, exitSignaled := true, signalThreadToExit := true } := by
  simp [initiateShutdown, hs.signal, h]

theorem waitForCompletion_eq (h : w.retrieved = false) {r : Except Abort WorkerImpl}
    (hr : w.waitForCompletion = some r) :
    w.complete = true ∧ r = .ok { w with retrieved := true } := by
  simp only [waitForCompletion, h, Bool.false_eq_true, if_false, Option.ite_none_right_eq_some,
    Option.some.injEq] at hr
  exact ⟨hr.1, hr.2.symm⟩

theorem join_cases (hj : w.joined = false) {w' : WorkerImpl} (h : w.join = some w') :
    (w.thread = none ∧ w' = w) ∨ (w.thread = some .done ∧ w' = { w with joined := true }) := by
  unfold join joinable at h
  cases hthread : w.thread with
  | none => simp_all
  | some pc =>
    simp only [hthread, hj, Option.isSome_some, Bool.not_false, Bool.and_self, if_true] at h
    split_ifs at h with hd
    exact Or.inr ⟨hd, (Option.some.inj h).symm⟩

/-- The second call of `initiateShutdown` changes nothing. -/
theorem shutdown_cases (hs : w.Sound) (he : w.exitSignaled = true) (hj : w.joined = false)
    {r : Except Abort WorkerImpl}
    (h : w.shutdown = some r) :
    (w.thread = none ∧ r = .ok w) ∨ (w.thread = some .done ∧ r = .ok { w with joined := true }) := by
  have hagain : w.initiateShutdown = .ok w := by
    have hshutDown := hs.shutDown.mpr (Or.inr he)
    unfold initiateShutdown
    rw [if_pos he, ← hshutDown]
  unfold shutdown at h
  rw [hagain] at h
  obtain ⟨w', hw', rfl⟩ := Option.map_eq_some_iff.mp h
  rcases join_cases hj hw' with ⟨hthread, rfl⟩ | ⟨hthread, rfl⟩
  · exact Or.inl ⟨hthread, rfl⟩
  · exact Or.inr ⟨hthread, rfl⟩

theorem destroy_eq (hs : w.Sound) (he : w.exitSignaled = true) (hj : w.joined = w.started) :
    w.destroy = none := by
  have hshutDown := hs.shutDown.mpr (Or.inr he)
  have hjoinable : w.joinable = false := by
    unfold joinable
    cases hstarted : w.started with
    | false => simp [hs.thread.mpr hstarted]
    | true => simp [hj, hstarted]
  simp [destroy, hshutDown, hjoinable]

end WorkerImpl

theorem Ordered.of_mem (hs : Ordered c s) {w : WorkerImpl} (hw : w ∈ s.workers) :
    w.Sound ∧ ∃ i, At s.main i w := by
  obtain ⟨i, hi⟩ := List.mem_iff_getElem?.mp hw
  obtain ⟨hsound, hat⟩ := hs.sound i w hi
  exact ⟨hsound, i, hat⟩

theorem Ordered.workers_nil (hs : Ordered c s) (hnone : ∀ i w, ¬At s.main i w) : s.workers = [] := by
  rw [List.eq_nil_iff_forall_not_mem]
  intro w hw
  obtain ⟨-, i, hat⟩ := hs.of_mem hw
  exact hnone i w hat

theorem mainStep_moves {ok : Bool} {r : Reaping} (hs : Ordered c s) (h : s.mainStep c ok r = some t) :
    Moves c s (.main ok r) t := by
  have hsound := hs.sound
  have hflush := hs.flush
  unfold ProcessImpl.mainStep at h
  split at h <;> rename_i hmain <;> simp only [hmain] at hsound hflush
  · cases h
    cases ok
    · exact .refuse r (Or.inl hmain)
    · exact .begin r hmain
  · cases h
    cases ok
    · exact .refuse r (Or.inr hmain)
    · exact .fork r hmain
  · split_ifs at h with hsem
    cases h
    exact .wake ok r hmain hsem
  · split_ifs at h with hlock
    cases h
    exact .lock ok r hmain hlock
  · cases h
    split_ifs with hcancelled hfail
    · exact .skip ok r hmain hcancelled
    · obtain ⟨-, rfl⟩ : c.statsSinks = true ∧ ok = false := by simpa using hfail
      exact .checkFails r hmain (by simpa using hcancelled)
    · exact .check ok r hmain (by simpa using hcancelled)
  · cases h
    split_ifs with hlength hok
    · subst hok
      exact .create r hmain hlength
    · obtain rfl : ok = false := by simpa using hok
      exact .giveUp r (Or.inl hmain)
    · exact .created ok r hmain (by omega)
  · cases h
    split_ifs with hok hsinks
    · obtain rfl : ok = false := by simpa using hok
      exact .giveUp r (Or.inr hmain)
    · obtain rfl : ok = true := by simpa using hok
      exact .configure r _ hmain (Or.inl ⟨rfl, hsinks⟩)
    · obtain rfl : ok = true := by simpa using hok
      exact .configure r _ hmain (Or.inr rfl)
  · cases h
    exact .startFlush ok r hmain
  · rename_i i
    cases h
    cases hw : s.workers[i]? with
    | none => exact .startedAll ok r i hmain hw
    | some w =>
      have hstarted : w.started = false := by simpa [At] using (hsound i w hw).2.1
      simp only [WorkerImpl.start_eq hstarted]
      exact .startWorker ok r i w hmain hw
  · rename_i i
    cases hw : s.workers[i]? with
    | none =>
      simp only [hw, Option.some.injEq] at h
      subst h
      refine .waitedAll ok r i _ hmain hw ?_
      split_ifs with hboth
      · exact Or.inl ⟨rfl, by simpa using (Bool.and_eq_true_iff.mp hboth).2⟩
      · exact Or.inr ⟨rfl, fun hsome => by simpa [hsome] using hboth⟩
    | some w =>
      simp only [hw] at h
      obtain ⟨r', hr', rfl⟩ := Option.map_eq_some_iff.mp h
      have hretrieved : w.retrieved = false := by simpa [At] using (hsound i w hw).2.2.2.1
      obtain ⟨hcomplete, rfl⟩ := WorkerImpl.waitForCompletion_eq hretrieved hr'
      exact .wait ok r i w hmain hw hcomplete
  · obtain ⟨f, hf, rfl⟩ := Option.map_eq_some_iff.mp h
    exact .exitFlush ok r f hmain hf
  · obtain ⟨f, hf, h⟩ := Option.bind_eq_some_iff.mp h
    obtain ⟨r', hr', rfl⟩ := Option.map_eq_some_iff.mp h
    obtain ⟨hcomplete, rfl⟩ := WorkerImpl.waitForCompletion_eq (hflush f hf).2.2.2 hr'
    exact .waitFlush ok r f hmain hf hcomplete
  · cases h
    exact .report ok r hmain
  · cases h
    exact .shutdown ok r _ hmain
  · cases h
    exact .terminate ok r hmain
  · split_ifs at h with hlock
    cases h
    exact .lockShutdown ok r hmain hlock
  · cases h
    split
    · rename_i f hf
      obtain ⟨hsoundf, -, he, -⟩ := hflush f hf
      rw [WorkerImpl.initiateShutdown_eq hsoundf he]
      exact .stopFlush ok r f hmain hf
    · exact .noFlush ok r hmain ‹_›
  · obtain ⟨f, hf, h⟩ := Option.bind_eq_some_iff.mp h
    obtain ⟨f', hf', rfl⟩ := Option.map_eq_some_iff.mp h
    obtain ⟨hsoundf, hstarted, -, hj, -⟩ := hflush f hf
    rcases WorkerImpl.join_cases hj hf' with ⟨hthread, -⟩ | ⟨hthread, rfl⟩
    · simp [hsoundf.thread.mp hthread] at hstarted
    · exact .joinFlush ok r f hmain hf hthread
  · rename_i i
    cases h
    cases hw : s.workers[i]? with
    | none => exact .signalledAll ok r i hmain hw
    | some w =>
      obtain ⟨hsoundw, he, -⟩ := hsound i w hw
      simp only [WorkerImpl.initiateShutdown_eq hsoundw (by simpa using he)]
      exact .signal ok r i w hmain hw
  · rename_i i
    cases hw : s.workers[i]? with
    | none =>
      simp only [hw, Option.some.injEq] at h
      subst h
      exact .joinedAll ok r i hmain hw
    | some w =>
      simp only [hw] at h
      obtain ⟨r', hr', rfl⟩ := Option.map_eq_some_iff.mp h
      obtain ⟨hsoundw, he, hj, -⟩ := hsound i w hw
      rcases WorkerImpl.shutdown_cases hsoundw he (by simpa using hj) hr' with ⟨hthread, rfl⟩ | ⟨hthread, rfl⟩
      · have hset : s.workers.set i w = s.workers := by
          obtain ⟨hi, rfl⟩ := List.getElem?_eq_some_iff.mp hw
          exact List.set_getElem_self hi
        simp only [ProcessImpl.setWorker, hset]
        exact .joinNone ok r i w hmain hw hthread
      · exact .join ok r i w hmain hw hthread
  · cases h
    have hnone : s.workers.findSome? WorkerImpl.destroy = none := by
      rw [List.findSome?_eq_none_iff]
      intro w hw
      obtain ⟨hsoundw, i, hat⟩ := hs.of_mem hw
      rw [hmain] at hat
      exact WorkerImpl.destroy_eq hsoundw hat.1 hat.2
    simp only [hnone]
    exact .clear ok r hmain
  · cases h
    exact .finish ok r hmain
  · obtain ⟨hdone, h⟩ := Option.ite_none_right_eq_some.mp h
    cases h
    have hworkers : s.workers = [] := hs.workers_nil (by simp [hmain, At])
    have hnone : (s.flushWorker.toList ++ s.workers).findSome? WorkerImpl.destroy = none := by
      rw [hworkers, List.append_nil, List.findSome?_eq_none_iff]
      intro f hf
      obtain ⟨hsoundf, he, hj⟩ := hflush f (Option.mem_toList.mp hf)
      have hstarted : f.started = true := by
        by_contra hne
        have hthread := hsoundf.thread.mpr (by simpa using hne)
        simpa [hthread] using hsoundf.joined hj
      exact WorkerImpl.destroy_eq hsoundf he (hj.trans hstarted.symm)
    rw [ProcessImpl.destruct, if_neg (by simp [hs.shutDown hmain]), hnone]
    exact .destroy ok r hmain hdone
  · cases h

theorem step_moves (hs : Ordered c s) (h : step c s e = some t) : Moves c s e t := by
  unfold step at h
  rw [if_neg (by simp [hs.aborted])] at h
  cases e with
  | main ok r => exact mainStep_moves hs h
  | cancel =>
    simp only at h
    split_ifs at h with hmain
    cases h
    exact .cancel hmain
  | canceller k r =>
    simp only [ProcessImpl.cancelStep] at h
    split at h <;> rename_i hk
    · cases h
    · split_ifs at h with hlock
      cases h
      exact .lockCancel k r hk hlock
    · rename_i i
      cases h
      cases hw : s.workers[i]? with
      | none =>
        refine .postedAll k r i _ hk hw ?_
        split_ifs
        · exact Or.inl rfl
        · exact Or.inr rfl
      | some w => exact .post k r i w hk hw
    · cases h
      split_ifs with hr
      · exact .cancelTerminates k r hk hr
      · exact .cancelFails k r hk (by simpa using hr)
    · cases h
      exact .cancelled k r hk
    · cases h
  | worker i =>
    obtain ⟨w, hw, h⟩ := Option.bind_eq_some_iff.mp h
    obtain ⟨r, hr, rfl⟩ := Option.map_eq_some_iff.mp h
    obtain ⟨w', rfl, hmoves⟩ := threadStep_moves (hs.sound i w hw).1 hr
    exact .worker i w w' hw hmoves
  | runPosted i =>
    obtain ⟨w, hw, h⟩ := Option.bind_eq_some_iff.mp h
    obtain ⟨w', hw', rfl⟩ := Option.map_eq_some_iff.mp h
    unfold WorkerImpl.runPosted at hw'
    split_ifs at hw' with hposted
    cases hw'
    exact .runPosted i w hw hposted.1
  | flush =>
    obtain ⟨f, hf, h⟩ := Option.bind_eq_some_iff.mp h
    obtain ⟨r, hr, rfl⟩ := Option.map_eq_some_iff.mp h
    obtain ⟨f', rfl, hmoves⟩ := threadStep_moves (hs.flush f hf).1 hr
    exact .flush f f' hf hmoves
  | childPosts =>
    simp only at h
    split_ifs at h with hchild
    cases h
    exact .childPosts hchild
  | childExits =>
    simp only at h
    split_ifs at h with hchild
    cases h
    exact .childExits hchild

end Nighthawk.Process

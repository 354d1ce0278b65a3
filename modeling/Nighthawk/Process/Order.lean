import Nighthawk.Lib.Positions
import Nighthawk.Process.Moves

/-!
# The order of a run

Whatever the interleaving, the main thread starts each worker once, waits for it once, and destroys it
when its thread has ended. An exception that leaves `run` changes nothing in that. It can only make the
destructor abort.
-/

namespace Nighthawk.Process

open Positions

variable {c : Config} {s t : ProcessImpl} {e : Event}

/-! ## The threads of the workers -/

theorem sound_new : ({} : WorkerImpl).Sound := by constructor <;> simp

section

variable {w w' : WorkerImpl} {workReturns : Bool}

theorem ThreadMoves.sound (hs : w.Sound) (h : ThreadMoves workReturns w w') : w'.Sound := by
  obtain ⟨hthread, hcomplete, hsignal, hleaving, hjoined, hshutDown⟩ := hs
  cases h <;> constructor <;> grind -ring -linarith

namespace WorkerImpl.Sound

theorem start (hs : w.Sound) (h : w.exitSignaled = false) (hc : w.complete = false) :
    WorkerImpl.Sound { w with started := true, shutDown := false, thread := some .entering } := by
  obtain ⟨hthread, hcomplete, hsignal, hleaving, hjoined, hshutDown⟩ := hs
  constructor <;> grind -ring -linarith

theorem signal' (hs : w.Sound) :
    WorkerImpl.Sound { w with shutDown := true, exitSignaled := true, signalThreadToExit := true } := by
  obtain ⟨hthread, hcomplete, hsignal, hleaving, hjoined, hshutDown⟩ := hs
  constructor <;> grind -ring -linarith

theorem join (hs : w.Sound) (hd : w.thread = some .done) : WorkerImpl.Sound { w with joined := true } :=
  ⟨hs.thread, hs.complete, hs.signal, hs.leaving, fun _ => hd, hs.shutDown⟩

theorem other (hs : w.Sound) (retrieved exiting : Bool) (posted gracefulStopRequested : ℕ) :
    WorkerImpl.Sound { w with retrieved, exiting, posted, gracefulStopRequested } :=
  ⟨hs.thread, hs.complete, hs.signal, hs.leaving, hs.joined, hs.shutDown⟩

theorem not_joined (hs : w.Sound) (h : w.exitSignaled = false) : w.joined = false := by
  obtain ⟨hthread, hcomplete, hsignal, hleaving, hjoined, hshutDown⟩ := hs
  grind -ring -linarith

theorem not_complete (hs : w.Sound) (h : w.started = false) : w.complete = false := by
  obtain ⟨hthread, hcomplete, hsignal, hleaving, hjoined, hshutDown⟩ := hs
  grind -ring -linarith

end WorkerImpl.Sound

/-- What the main thread has done to a worker, its thread does not undo. -/
structure WorkerImpl.Keeps (w w' : WorkerImpl) : Prop where
  started : w'.started = w.started
  exitSignaled : w'.exitSignaled = w.exitSignaled
  retrieved : w'.retrieved = w.retrieved
  joined : w'.joined = w.joined
  complete : w.complete = true → w'.complete = true

theorem ThreadMoves.keeps (h : ThreadMoves workReturns w w') : w.Keeps w' := by
  cases h <;> constructor <;> simp

theorem At.keeps {pc : MainPc} {i : ℕ} (ha : At pc i w) (hk : w.Keeps w') : At pc i w' := by
  obtain ⟨hstarted, hsignaled, hretrieved, hjoined, hcomplete⟩ := hk
  cases pc <;> simp only [At, hstarted, hsignaled, hretrieved, hjoined] at ha ⊢ <;> grind -ring -linarith

theorem FlushAt.keeps {pc : MainPc} (ha : FlushAt pc w) (hk : w.Keeps w') : FlushAt pc w' := by
  obtain ⟨hstarted, hsignaled, hretrieved, hjoined, hcomplete⟩ := hk
  cases pc <;> simp only [FlushAt, hstarted, hsignaled, hretrieved, hjoined] at ha ⊢ <;> grind -ring -linarith

end

/-! ## The main thread -/

theorem ordered_init (c : Config) : Ordered c {} := by
  constructor <;> simp [MainPc.flushes, MainPc.builds]

attribute [local grind =] At FlushAt MainPc.flushes MainPc.builds MainPc.inRun List.getElem?_set
    List.getElem?_append

theorem moves_sound (hs : Ordered c s) (h : Moves c s e t) :
    ∀ i w, t.workers[i]? = some w → w.Sound ∧ At t.main i w := by
  have hsound := hs.sound
  cases h with
  | create r hmain hl =>
    rw [hmain] at hsound
    simp only [hmain]
    exact forall_append hsound ⟨sound_new, rfl, rfl, rfl⟩
  | startWorker ok r i w hmain hw =>
    rw [hmain] at hsound
    obtain ⟨hsoundw, hstarted, hsignaled, hretrieved⟩ := hsound i w hw
    have hcomplete := hsoundw.not_complete (by simpa using hstarted)
    refine forall_set hsound ⟨hsoundw.start hsignaled hcomplete, by simp, hsignaled, hretrieved⟩ ?_
    rintro j v hj ⟨hsoundv, hv⟩
    exact ⟨hsoundv, by grind -ring -linarith⟩
  | wait ok r i w hmain hw hc =>
    rw [hmain] at hsound
    obtain ⟨hsoundw, hstarted, hsignaled, hretrieved, -⟩ := hsound i w hw
    refine forall_set hsound ⟨hsoundw.other _ _ _ _, hstarted, hsignaled, by simp, fun _ => hc⟩ ?_
    rintro j v hj ⟨hsoundv, hv⟩
    exact ⟨hsoundv, by grind -ring -linarith⟩
  | signal ok r i w hmain hw =>
    rw [hmain] at hsound
    obtain ⟨hsoundw, hsignaled, hjoined, hcomplete⟩ := hsound i w hw
    refine forall_set hsound ⟨hsoundw.signal', by simp, hjoined, hcomplete⟩ ?_
    rintro j v hj ⟨hsoundv, hv⟩
    exact ⟨hsoundv, by grind -ring -linarith⟩
  | join ok r i w hmain hw hd =>
    rw [hmain] at hsound
    obtain ⟨hsoundw, hsignaled, hjoined, hcomplete⟩ := hsound i w hw
    have hstarted : w.started = true := by
      by_contra hne
      simp [hsoundw.thread.mpr (by simpa using hne)] at hd
    refine forall_set hsound ⟨hsoundw.join hd, hsignaled, by simp [hstarted], hcomplete⟩ ?_
    rintro j v hj ⟨hsoundv, hv⟩
    exact ⟨hsoundv, by grind -ring -linarith⟩
  | joinNone ok r i w hmain hw hn =>
    rw [hmain] at hsound
    intro j v hv
    obtain ⟨hsoundv, hsignaled, hjoined, hcomplete⟩ := hsound j v hv
    have hstarted := hsoundv.thread
    exact ⟨hsoundv, by grind -ring -linarith⟩
  | noFlush ok r hmain hf =>
    rw [hmain] at hsound
    intro i w hw
    obtain ⟨hsoundw, hsignaled, hcomplete⟩ := hsound i w hw
    exact ⟨hsoundw, by simpa using hsignaled, hsoundw.not_joined hsignaled, hcomplete⟩
  | joinFlush ok r f hmain hf hd =>
    rw [hmain] at hsound
    intro i w hw
    obtain ⟨hsoundw, hsignaled, hcomplete⟩ := hsound i w hw
    exact ⟨hsoundw, by simpa using hsignaled, hsoundw.not_joined hsignaled, hcomplete⟩
  | post k r i w hk hw =>
    obtain ⟨hsoundw, hat⟩ := hsound i w hw
    refine forall_set hsound ⟨hsoundw.other _ _ _ _, hat.keeps ⟨rfl, rfl, rfl, rfl, fun h => h⟩⟩ ?_
    exact fun _ _ _ h => h
  | worker i w w' hw hmoves =>
    obtain ⟨hsoundw, hat⟩ := hsound i w hw
    exact forall_set hsound ⟨hmoves.sound hsoundw, hat.keeps hmoves.keeps⟩ fun _ _ _ h => h
  | runPosted i w hw hp =>
    obtain ⟨hsoundw, hat⟩ := hsound i w hw
    refine forall_set hsound ⟨hsoundw.other _ _ _ _, hat.keeps ⟨rfl, rfl, rfl, rfl, fun h => h⟩⟩ ?_
    exact fun _ _ _ h => h
  | clear ok r hmain => simp
  | destroy ok r hmain hc => simp
  | _ =>
    first
    | assumption
    | (intro i w hw
       have hold := hsound i w hw
       grind -ring -linarith)

theorem moves_flush (hs : Ordered c s) (h : Moves c s e t) :
    ∀ f, t.flushWorker = some f → f.Sound ∧ FlushAt t.main f := by
  have hflush := hs.flush
  have hsinks := hs.sinks
  cases h with
  | startFlush ok r hmain =>
    rintro f ⟨⟩
    exact ⟨sound_new.start rfl rfl, rfl, rfl, rfl⟩
  | exitFlush ok r f hmain hf =>
    rw [hmain] at hflush
    obtain ⟨hsound, hat⟩ := hflush f hf
    rintro f' ⟨⟩
    exact ⟨hsound.other _ _ _ _, hat⟩
  | waitFlush ok r f hmain hf hc =>
    rw [hmain] at hflush
    obtain ⟨hsound, hstarted, hsignaled, -⟩ := hflush f hf
    rintro f' ⟨⟩
    exact ⟨hsound.other _ _ _ _, hstarted, hsignaled, hc⟩
  | stopFlush ok r f hmain hf =>
    rw [hmain] at hflush
    obtain ⟨hsound, hstarted, hsignaled, hcomplete⟩ := hflush f hf
    rintro f' ⟨⟩
    exact ⟨hsound.signal', hstarted, rfl, hsound.not_joined hsignaled, hcomplete⟩
  | joinFlush ok r f hmain hf hd =>
    rw [hmain] at hflush
    obtain ⟨hsound, hstarted, hsignaled, hjoined, hcomplete⟩ := hflush f hf
    rintro f' ⟨⟩
    exact ⟨hsound.join hd, hsignaled, rfl⟩
  | flush f f' hf hmoves =>
    obtain ⟨hsound, hat⟩ := hflush f hf
    rintro f' ⟨⟩
    exact ⟨hmoves.sound hsound, hat.keeps hmoves.keeps⟩
  | destroy ok r hmain hc => simp
  | _ =>
    first
    | assumption
    | (intro f hf
       have hold := hflush f hf
       grind -ring -linarith)

theorem moves_rest (hs : Ordered c s) (h : Moves c s e t) :
    (t.main.flushes = true → t.flushWorker.isSome = true) ∧
      (t.main = .startingFlush ∨ t.flushWorker.isSome = true → c.statsSinks = true) ∧
      t.workers.length ≤ c.numberOfWorkers ∧ (t.main = .stopped → t.shutDown = true) ∧ t.aborted = none := by
  obtain ⟨-, -, hthere, hsinks, hlength, hshutDown, -, -, haborted⟩ := hs
  cases h <;> refine ⟨?_, ?_, ?_, ?_, ?_⟩ <;> first | assumption | grind -ring -linarith

theorem moves_fresh (hs : Ordered c s) (h : Moves c s e t) :
    (t.main.builds = true → t.shutDown = false) ∧
      (t.main.inRun = true → t.shutDown = true → t.workers = [] ∧ t.flushWorker = none) := by
  obtain ⟨-, -, -, -, -, -, hbuilds, hfresh, -⟩ := hs
  cases h <;> refine ⟨?_, ?_⟩ <;> first | assumption | grind -ring -linarith

theorem moves_ordered (hs : Ordered c s) (h : Moves c s e t) : Ordered c t := by
  obtain ⟨hthere, hsinks, hlength, hshutDown, haborted⟩ := moves_rest hs h
  obtain ⟨hbuilds, hfresh⟩ := moves_fresh hs h
  exact ⟨moves_sound hs h, moves_flush hs h, hthere, hsinks, hlength, hshutDown, hbuilds, hfresh, haborted⟩

theorem step_ordered (s : ProcessImpl) (e : Event) (t : ProcessImpl) (hs : Ordered c s)
    (h : step c s e = some t) :
    Ordered c t :=
  moves_ordered hs (step_moves hs h)

theorem run_ordered {es : List Event} (h : Runs.exec (step c) {} es = some s) : Ordered c s :=
  Runs.exec_inv step_ordered (ordered_init c) h

/-! ## What a run keeps to -/

section

variable {w : WorkerImpl}

theorem WorkerImpl.Sound.parked (hs : w.Sound) (hsignaled : w.exitSignaled = false)
    (hcomplete : w.complete = true) :
    w.thread = some .waiting := by
  rcases hs.complete.mp hcomplete with hthread | hthread
  · exact hthread
  · simp [hs.leaving hthread] at hsignaled

theorem WorkerImpl.Sound.ended (hs : w.Sound) (hjoined : w.joined = w.started) :
    w.thread = none ∨ w.thread = some .done := by
  cases hstarted : w.started with
  | false => exact Or.inl (hs.thread.mpr hstarted)
  | true => exact Or.inr (hs.joined (hjoined.trans hstarted))

end

theorem Ordered.reporting (hs : Ordered c s) (hmain : s.main = .reporting) :
    (∀ w ∈ s.workers, w.thread = some .waiting) ∧ ∀ f ∈ s.flushWorker, f.thread = some .waiting := by
  refine ⟨fun w hw => ?_, fun f hf => ?_⟩
  · obtain ⟨hsound, i, hat⟩ := hs.of_mem hw
    rw [hmain] at hat
    exact hsound.parked hat.2.1 hat.2.2
  · obtain ⟨hsound, hat⟩ := hs.flush f hf
    rw [hmain] at hat
    exact hsound.parked hat.2.1 hat.2.2

theorem Ordered.flushing (hs : Ordered c s) {f : WorkerImpl} (hf : f ∈ s.flushWorker)
    (hleaving : f.thread = some .leaving) :
    s.main = .joiningFlush ∧ ∀ w ∈ s.workers, w.thread = none ∨ w.thread = some .waiting := by
  obtain ⟨hsoundf, hat⟩ := hs.flush f hf
  have hsignaled := hsoundf.leaving (Or.inl hleaving)
  have hjoined : f.joined = false := by
    by_contra hne
    simp [hsoundf.joined (by simpa using hne)] at hleaving
  have hmain : s.main = .joiningFlush := by
    generalize s.main = pc at hat
    cases pc <;> simp_all [FlushAt]
  refine ⟨hmain, fun w hw => ?_⟩
  obtain ⟨hsound, i, hatw⟩ := hs.of_mem hw
  rw [hmain] at hatw
  cases hstarted : w.started with
  | false => exact Or.inl (hsound.thread.mpr hstarted)
  | true => exact Or.inr (hsound.parked hatw.1 (hatw.2 hstarted))

theorem Ordered.clearing (hs : Ordered c s) (hmain : s.main = .clearing) :
    ∀ w ∈ s.workers, w.thread = none ∨ w.thread = some .done := by
  intro w hw
  obtain ⟨hsound, i, hat⟩ := hs.of_mem hw
  rw [hmain] at hat
  exact hsound.ended hat.2

theorem Ordered.destroyed (hs : Ordered c s) (hmain : s.main = .destroyed) :
    s.workers = [] ∧ s.flushWorker = none := by
  refine ⟨hs.workers_nil (by simp [hmain, At]), ?_⟩
  rw [Option.eq_none_iff_forall_ne_some]
  intro f hf
  have hat := (hs.flush f hf).2
  rwa [hmain] at hat

/-! ## Exceptions -/

theorem moves_main (h : Moves c s e t) (he : e.isMain = false) : t.main = s.main := by
  cases h <;> first | rfl | cases he

/-- What an abort leaves is what there was before it. -/
structure Held (c : Config) (s : Caller) : Prop where
  ordered : Ordered c { s.process with aborted := none }
  inRun : s.unwinding = true → s.process.main.inRun = true ∨ s.process.main = .destroyed
  aborted : s.process.aborted = none ∨
    (s.process.aborted = some .tracingScheme ∧ s.process.main = .configuring) ∨
    (s.process.aborted = some .processNotShutDown ∧ s.unwinding = true ∧ s.process.shutDown = false)

theorem Ordered.spared {p : ProcessImpl} (hp : Ordered c p) : Ordered c { p with aborted := none } := by
  have hsame : { p with aborted := none } = p := by rw [← hp.aborted]
  rwa [hsame]

theorem Held.of_ordered {p : ProcessImpl} {unwinding : Bool} (hp : Ordered c p)
    (hrun : unwinding = true → p.main.inRun = true ∨ p.main = .destroyed) : Held c ⟨p, unwinding⟩ :=
  ⟨hp.spared, hrun, Or.inl hp.aborted⟩

theorem Held.process {s : Caller} (hs : Held c s) (ha : s.process.aborted = none) : Ordered c s.process := by
  have hordered := hs.ordered
  rwa [← ha] at hordered

/-- While `run` unwinds there is nothing to destroy, or the destructor finds that `shutdown` was not
called. -/
theorem destruct_held {p : ProcessImpl} (hp : Ordered c p) (hrun : p.main.inRun = true) (reaping : Reaping) :
    Held c ⟨p.destruct reaping, true⟩ := by
  unfold ProcessImpl.destruct
  by_cases hshutDown : p.shutDown = true
  · obtain ⟨hworkers, hflush⟩ := hp.fresh hrun hshutDown
    rw [if_neg (by simp [hshutDown]), hworkers, hflush]
    refine .of_ordered ?_ fun _ => Or.inr rfl
    constructor <;> simp [MainPc.flushes, MainPc.builds, MainPc.inRun, hp.aborted]
  · rw [if_pos (by simpa using hshutDown)]
    exact ⟨hp.spared, fun _ => Or.inl hrun, Or.inr (Or.inr ⟨rfl, rfl, by simpa using hshutDown⟩)⟩

theorem act_held (s : Caller) (a : Action) (t : Caller) (hs : Held c s) (h : act c s a = some t) :
    Held c t := by
  cases a with
  | event e =>
    simp only [act] at h
    split_ifs at h with hmain
    obtain ⟨p, hp, rfl⟩ := Option.map_eq_some_iff.mp h
    have ha : s.process.aborted = none := by
      by_contra hne
      simp [step, Option.isSome_iff_ne_none.mpr hne] at hp
    have hmoves := step_moves (hs.process ha) hp
    refine .of_ordered (moves_ordered (hs.process ha) hmoves) fun hunwinding => ?_
    rw [moves_main hmoves (by simpa [hunwinding] using hmain)]
    exact hs.inRun hunwinding
  | throws =>
    obtain ⟨⟨-, ha, hrun⟩, h⟩ := Option.ite_none_right_eq_some.mp h
    cases h
    obtain ⟨hsound, hflush, hthere, hsinks, hlength, hshutDown, hbuilds, hfresh, haborted⟩ := hs.process ha
    exact .of_ordered ⟨hsound, hflush, hthere, hsinks, hlength, hshutDown, hbuilds, hfresh, haborted⟩
      fun _ => Or.inl hrun
  | destruct reaping =>
    obtain ⟨⟨hunwinding, ha, hmain, -⟩, h⟩ := Option.ite_none_right_eq_some.mp h
    cases h
    have hrun := (hs.inRun hunwinding).resolve_right hmain
    simpa only [hunwinding] using destruct_held (hs.process ha) hrun reaping
  | assertScheme =>
    obtain ⟨⟨hunwinding, ha, hmain⟩, h⟩ := Option.ite_none_right_eq_some.mp h
    cases h
    exact ⟨hs.ordered, hs.inRun, Or.inr (Or.inl ⟨rfl, hmain⟩)⟩

theorem run_held {s : Caller} {as : List Action} (h : Runs.exec (act c) {} as = some s) : Held c s :=
  Runs.exec_inv act_held (.of_ordered (ordered_init c) (by simp)) h

/-- In no interleaving, and wherever `run` may throw, is a worker started, completed or waited for twice,
or destroyed before its thread has ended. The results are read, and the last flush is made, while all
workers wait. What aborts is the assert on the trace, or the destructor when `run` throws between
`shutdown_ = false` and `shutdown`. -/
theorem process_order {s : Caller} {as : List Action} (h : Runs.exec (act c) {} as = some s) :
    (s.process.aborted = none ∨
        (s.process.aborted = some .tracingScheme ∧ s.process.main = .configuring) ∨
        (s.process.aborted = some .processNotShutDown ∧ s.unwinding = true ∧ s.process.shutDown = false)) ∧
      (s.process.main = .reporting →
        (∀ w ∈ s.process.workers, w.thread = some .waiting) ∧
          ∀ f ∈ s.process.flushWorker, f.thread = some .waiting) ∧
      (∀ f ∈ s.process.flushWorker, f.thread = some .leaving →
        s.process.main = .joiningFlush ∧ ∀ w ∈ s.process.workers, w.thread = none ∨
          w.thread = some .waiting) ∧
      (s.process.main = .clearing → ∀ w ∈ s.process.workers, w.thread = none ∨ w.thread = some .done) ∧
      (s.process.main = .destroyed → s.process.workers = [] ∧ s.process.flushWorker = none) := by
  obtain ⟨hordered, -, haborted⟩ := run_held h
  exact ⟨haborted, hordered.reporting, fun f => hordered.flushing, hordered.clearing, hordered.destroyed⟩

/-- The process starts one worker and waits for it. -/
def startUp : List Event :=
  [.main true .clean, .main true .clean, .childPosts] ++ List.replicate 8 (.main true .clean)

/-- The worker does its work. -/
def completedRun : List Event :=
  startUp ++ List.replicate 3 (.worker 0) ++ List.replicate 2 (.main true .clean)

/-- A run up to the report, and one in which the first worker cannot be created. -/
theorem process_order_reporting :
    (∃ s, Runs.exec (act ⟨1, false⟩) {} (completedRun.map .event) = some s ∧ s.process.main = .reporting ∧
      ∀ w ∈ s.process.workers, w.thread = some .waiting) ∧
      ∃ s, Runs.exec (act ⟨1, false⟩) {}
        ((startUp.take 6).map .event ++ [.throws, .destruct .clean]) = some s ∧
        s.process.aborted = some .processNotShutDown := by
  constructor
  · obtain ⟨s, hs⟩ : ∃ s, Runs.exec (act ⟨1, false⟩) {} (completedRun.map .event) = some s := ⟨_, rfl⟩
    have hmain : s.process.main = .reporting := by
      cases hs
      rfl
    exact ⟨s, hs, hmain, ((process_order hs).2.1 hmain).1⟩
  · exact ⟨_, rfl, rfl⟩

end Nighthawk.Process

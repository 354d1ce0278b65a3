import Nighthawk.Lib.Positions
import Nighthawk.Signals.Callback

/-!
# How the signal handler ends

The destructor comes to its end whatever state it finds. What can end the process instead is a second
write while the shutdown thread closes the pipe, or an invocation that outlives the destructor.
-/

namespace Nighthawk.Signals

open Positions

attribute [local grind =] OwnerPc.constructing OwnerPc.destructs ThreadPc.woken ThreadPc.pipeSize
    ThreadPc.readOpen
  ThreadPc.writeOpen

/-! ## The bytes in the pipe -/

def InvocationPc.writes : InvocationPc → Nat
  | .writing => 1
  | _ => 0

def OwnerPc.writes : OwnerPc → Nat
  | .writing => 1
  | _ => 0

/-- The calls of `initiateShutdown` that have yet to write. -/
def pendingWrites (s : SignalHandler) : Nat := s.owner.writes + total InvocationPc.writes s.invocations

structure Books (s : SignalHandler) : Prop where
  -- Each call that saw the pipe has written a byte or will, and one byte at most was read.
  bytes : s.aborted = none → s.passes = s.unread + (if s.thread.woken then 1 else 0) + pendingWrites s
  writeFailed : s.aborted = some .writeFailed → 2 ≤ s.passes
  emptyFunction : s.aborted = some .emptyFunction → s.owner = .destroyed ∧ .calling ∈ s.invocations
  closes : s.aborted ≠ some .closeFailed
  -- Who joins the shutdown thread has woken it, or found it awake.
  joining : s.aborted = none → s.owner = .joining → 0 < s.unread ∨ s.thread.woken = true
  early : s.owner = .delegating → s.invocations = [] ∧ ∀ sig, s.disposition sig = .previous

theorem books_init : Books {} := by constructor <;> simp [pendingWrites, OwnerPc.writes, ThreadPc.woken]

theorem woken_of_closed {s : SignalHandler} (hd : Determined s) (h : ¬s.pipeOpen = true) :
    s.thread.woken = true := by
  have h1 := hd.pipeFds
  have h2 := hd.readOpen
  have h3 := hd.writeOpen
  simp only [SignalHandler.pipeOpen, h1, h2, h3] at h
  cases hpc : s.thread <;> simp_all [ThreadPc.pipeSize, ThreadPc.readOpen, ThreadPc.writeOpen, ThreadPc.woken]

section

variable {s t : SignalHandler} {e : Event}

theorem trans_bytes (ha : s.aborted = none) (hd : Determined s) (hs : Books s) (h : Trans s e t) :
    t.aborted = none → t.passes = t.unread + (if t.thread.woken then 1 else 0) + pendingWrites t := by
  have hbytes := hs.bytes ha
  have hunborn := hd.unborn
  have hset := fun (i : Nat) (pc pc' : InvocationPc) (h : s.invocations[i]? = some pc) =>
    total_set InvocationPc.writes h pc'
  unfold pendingWrites at hbytes
  clear hs hd
  cases h <;> first
    | exact fun _ => hbytes
    | grind -ring -linarith [InvocationPc.writes, OwnerPc.writes, pendingWrites, total_append,
        total_cons, total_nil]

/-- Who writes to a closed pipe is not the only one that saw it open. -/
theorem trans_writeFailed (ha : s.aborted = none) (hd : Determined s) (hs : Books s) (h : Trans s e t) :
    t.aborted = some .writeFailed → 2 ≤ t.passes := by
  have hbytes := hs.bytes ha
  have hclosed := woken_of_closed hd
  have hle := fun (i : Nat) (pc : InvocationPc) (h : s.invocations[i]? = some pc) =>
    le_total InvocationPc.writes h
  have hwriteFailed := hs.writeFailed
  unfold pendingWrites at hbytes
  clear hs hd
  cases h <;> first
    | assumption
    | grind -ring -linarith [InvocationPc.writes, OwnerPc.writes]

theorem trans_joining (ha : s.aborted = none) (hd : Determined s) (hs : Books s) (h : Trans s e t) :
    t.aborted = none → t.owner = .joining → 0 < t.unread ∨ t.thread.woken = true := by
  have hskip : ¬s.pipeFds = 2 → s.thread.woken = true := by
    rw [hd.pipeFds]
    cases s.thread <;> simp [ThreadPc.pipeSize, ThreadPc.woken]
  have hjoining := hs.joining ha
  clear hs hd
  cases h <;> first
    | exact fun _ => hjoining
    | grind -ring -linarith

theorem trans_books (ha : s.aborted = none) (hd : Determined s) (hs : Books s)
    (h : Trans s e t) : Books t := by
  refine ⟨trans_bytes ha hd hs h, trans_writeFailed ha hd hs h, ?_, ?_, trans_joining ha hd hs h, ?_⟩
  all_goals
    have hdelegate := hd.delegate
    have hread := hd.readOpen
    have hwrite := hd.writeOpen
    have hearly := hs.early
    clear hs hd
    cases h <;> first | assumption | grind -ring -linarith

end

theorem step_books (s : SignalHandler) (e : Event) (t : SignalHandler) (hs : Determined s ∧ Books s)
    (h : step s e = some t) : Determined t ∧ Books t := by
  obtain ⟨ha, htrans⟩ := step_trans h
  exact ⟨trans_determined hs.1 htrans, trans_books ha hs.1 hs.2 htrans⟩

theorem run_books {es : List Event} {s : SignalHandler} (h : Runs.exec step {} es = some s) :
    Determined s ∧ Books s :=
  Runs.exec_inv step_books ⟨determined_init, books_init⟩ h

/-! ## What can end the process -/

/-- A signal and the destructor both see the pipe, and the shutdown thread closes it before the second
of them writes. -/
def closedPipeRun : List Event :=
  List.replicate 4 .owner ++ [.deliver .sigterm, .invocation 0, .invocation 0, .invocation 0] ++
    List.replicate 4 .owner ++ [.thread, .thread, .owner]

/-- The write fails only with a second caller that saw the pipe, and two are enough. An empty function
is called only by an invocation that outlives the destructor. No descriptor is closed twice. -/
theorem aborts (n : Nat) :
    ((∃ es s, Runs.exec step {} es = some s ∧ s.passes ≤ n ∧ s.aborted = some .writeFailed) ↔ 2 ≤ n) ∧
      ∀ es s, Runs.exec step {} es = some s →
        (s.aborted = some .emptyFunction → s.owner = .destroyed ∧ .calling ∈ s.invocations) ∧
        s.aborted ≠ some .closeFailed := by
  refine ⟨⟨?_, ?_⟩, ?_⟩
  · rintro ⟨es, s, hs, hle, haborted⟩
    have := (run_books hs).2.writeFailed haborted
    omega
  · intro hn
    exact ⟨closedPipeRun, _, rfl, hn, rfl⟩
  · intro es s hs
    exact ⟨(run_books hs).2.emptyFunction, (run_books hs).2.closes⟩

/-! ## The destructor comes to its end -/

def OwnerPc.work : OwnerPc → Nat
  | .delegating => 11
  | .installing .sigterm => 10
  | .installing .sigint => 9
  | .spawning => 8
  | .constructed => 7
  | .restoring .sigterm => 6
  | .restoring .sigint => 5
  | .checking => 4
  | .writing => 3
  | .joining => 2
  | .clearing => 1
  | .destroyed => 0

def ThreadPc.work : ThreadPc → Nat
  | .unborn => 10
  | .reading => 9
  | .closingRead => 8
  | .closingWrite => 7
  | .clearing => 6
  | .deciding => 5
  | .restoring .sigterm => 4
  | .restoring .sigint => 3
  | .calling => 2
  | .inCallback => 1
  | .done => 0

def InvocationPc.work : InvocationPc → Nat
  | .entered => 3
  | .calling => 2
  | .writing => 1
  | .returned => 0

/-- The steps that are left when no signal arrives. -/
def SignalHandler.work (s : SignalHandler) : Nat :=
  s.owner.work + s.thread.work + total InvocationPc.work s.invocations + if s.aborted = none then 1 else 0

theorem step_work {s t : SignalHandler} {e : Event} (hd : Determined s) (he : e.isDelivery = false)
    (h : step s e = some t) : t.work < s.work := by
  obtain ⟨ha, htrans⟩ := step_trans h
  have hunborn := hd.unborn
  have hset := fun (i : Nat) (pc pc' : InvocationPc) (h : s.invocations[i]? = some pc) =>
    total_set InvocationPc.work h pc'
  unfold SignalHandler.work
  cases htrans <;> grind -ring -linarith [OwnerPc.work, ThreadPc.work, InvocationPc.work, Event.isDelivery]

theorem step_owner {s : SignalHandler} (ha : s.aborted = none) (h1 : s.owner ≠ .destroyed)
    (h2 : s.owner ≠ .joining) :
    (step s .owner).isSome = true := by
  simp only [step, ha, Option.isSome_none, Bool.false_eq_true, if_false, SignalHandler.ownerStep]
  split <;> first | rfl | contradiction | (split_ifs <;> rfl)

theorem step_thread {s : SignalHandler} (ha : s.aborted = none) (h1 : s.thread ≠ .unborn)
    (h2 : s.thread ≠ .done)
    (h3 : s.thread = .reading → 0 < s.unread) : (step s .thread).isSome = true := by
  simp only [step, ha, Option.isSome_none, Bool.false_eq_true, if_false, SignalHandler.threadStep]
  split <;> first | rfl | contradiction | (split_ifs <;> first | rfl | simp_all)

theorem exists_step {s : SignalHandler} (hs : Determined s ∧ Books s) (ha : s.aborted = none)
    (hend : s.owner ≠ .destroyed) : ∃ e, e.isDelivery = false ∧ (step s e).isSome = true := by
  by_cases hj : s.owner = .joining
  · -- The join waits for the shutdown thread, which can always go on.
    by_cases hdone : s.thread = .done
    · refine ⟨.owner, rfl, ?_⟩
      simp [step, ha, SignalHandler.ownerStep, hj, hdone]
    · refine ⟨.thread, rfl, step_thread ha ?_ hdone ?_⟩
      · rw [Ne, hs.1.unborn, hj]
        decide
      · intro hreading
        have := hs.2.joining ha hj
        simpa [hreading, ThreadPc.woken] using this
  · exact ⟨.owner, rfl, step_owner ha hend hj⟩

/-- From any state, a run without new signals has at most `work` steps, and it can go on until the
destructor is over or the process has ended. -/
theorem destructor_ends (es es' : List Event) (s t : SignalHandler) (hs : Runs.exec step {} es = some s)
    (hquiet : ∀ e ∈ es', e.isDelivery = false) (ht : Runs.exec step s es' = some t) :
    es'.length ≤ s.work ∧
      (t.owner = .destroyed ∨ t.aborted ≠ none ∨ ∃ e, e.isDelivery = false ∧ (step t e).isSome = true) := by
  have hall : Runs.AllSteps step (fun _ e => e.isDelivery = false) s es' :=
    Runs.allSteps_of_forall (fun e he _ => hquiet e he) s
  have hlen := Runs.exec_length_le SignalHandler.work
    (fun s e t hd he h => ⟨trans_determined hd (step_trans h).2, step_work hd he h⟩) (run_books hs).1 hall ht
  refine ⟨by omega, ?_⟩
  have hbooks := run_books ((Runs.exec_append_eq_some step).mpr ⟨s, hs, ht⟩)
  by_cases ha : t.aborted = none
  · by_cases hend : t.owner = .destroyed
    · exact .inl hend
    · exact .inr (.inr (exists_step hbooks ha hend))
  · exact .inr (.inl ha)

/-- The destructor starts while the callback runs, and waits for it. -/
theorem destructor_ends_after_callback :
    ∃ s t, Runs.exec step {} (handledRun ++ [.owner]) = some s ∧
      Runs.exec step s (.thread :: List.replicate 5 .owner) = some t ∧ 6 ≤ s.work ∧
      (t.owner = .destroyed ∨ t.aborted ≠ none ∨ ∃ e, e.isDelivery = false ∧ (step t e).isSome = true) := by
  refine ⟨_, _, rfl, rfl, ?_⟩
  exact destructor_ends (handledRun ++ [.owner]) (.thread :: List.replicate 5 .owner) _ _ rfl (by decide) rfl

end Nighthawk.Signals

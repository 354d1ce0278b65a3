import Nighthawk.Lib.Runs
import Nighthawk.Signals.Code

/-!
# The callback

Whatever signals arrive and however the threads interleave, the callback runs at most once, with the
previous dispositions back in place, and never after the destructor. The destructor always comes to
its end.
-/

namespace Nighthawk.Signals

/-! ## Where the threads are -/

def OwnerPc.constructing : OwnerPc → Bool
  | .delegating | .installing _ | .spawning => true
  | _ => false

/-- The destructor has set `destructing_`. -/
def OwnerPc.destructs : OwnerPc → Bool
  | .restoring _ | .checking | .writing | .joining | .clearing | .destroyed => true
  | _ => false

/-- The destructor has restored both dispositions. -/
def OwnerPc.restored : OwnerPc → Bool
  | .checking | .writing | .joining | .clearing | .destroyed => true
  | _ => false

theorem OwnerPc.constructing_of_restored {pc : OwnerPc} (h : pc.restored = true) :
    pc.constructing = false := by
  cases pc <;> first | rfl | simp [OwnerPc.restored] at h

/-- The shutdown thread has read a byte. -/
def ThreadPc.woken : ThreadPc → Bool
  | .unborn | .reading => false
  | _ => true

def ThreadPc.pipeSize : ThreadPc → Nat
  | .unborn | .reading | .closingRead | .closingWrite | .clearing => 2
  | _ => 0

def ThreadPc.readOpen : ThreadPc → Bool
  | .unborn | .reading | .closingRead => true
  | _ => false

def ThreadPc.writeOpen : ThreadPc → Bool
  | .unborn | .reading | .closingRead | .closingWrite => true
  | _ => false

/-- The shutdown thread is about to call the callback, or calls it. -/
def ThreadPc.handles : ThreadPc → Bool
  | .restoring _ | .calling | .inCallback => true
  | _ => false

/-! ## The members that the two threads determine -/

attribute [local grind =] OwnerPc.constructing OwnerPc.destructs OwnerPc.restored ThreadPc.woken
    ThreadPc.pipeSize
  ThreadPc.readOpen ThreadPc.writeOpen ThreadPc.handles Function.update_apply

structure Determined (s : SignalHandler) : Prop where
  unborn : s.thread = .unborn ↔ s.owner.constructing = true
  joined : s.owner = .clearing ∨ s.owner = .destroyed → s.thread = .done
  destructing : s.destructing = s.owner.destructs
  delegate : s.delegate = true ↔ s.owner ≠ .delegating ∧ s.owner ≠ .destroyed
  pipeFds : s.pipeFds = s.thread.pipeSize
  readOpen : s.readOpen = s.thread.readOpen
  writeOpen : s.writeOpen = s.thread.writeOpen

theorem determined_init : Determined {} := by constructor <;> grind

theorem trans_determined {s t : SignalHandler} {e : Event} (hs : Determined s) (h : Trans s e t) :
    Determined t := by
  obtain ⟨h1, h2, h3, h4, h5, h6, h7⟩ := hs
  cases h <;> constructor <;> first | assumption | grind -ring -linarith

/-! ## Who was heard -/

structure Heard (s : SignalHandler) : Prop where
  -- A byte is there because a signal arrived or the destructor wrote one.
  byte : (0 < s.unread ∨ s.thread.woken = true) → 0 < s.invocations.length ∨ s.destructing = true
  signal : s.thread.handles = true ∨ 0 < s.callbacks → 0 < s.invocations.length
  before : s.thread ≠ .inCallback → s.thread ≠ .done → s.callbacks = 0
  inCallback : s.thread = .inCallback → s.callbacks = 1
  once : s.callbacks ≤ 1

theorem heard_init : Heard {} := by constructor <;> grind

theorem trans_heard {s t : SignalHandler} {e : Event} (hd : Determined s) (hs : Heard s)
    (h : Trans s e t) : Heard t := by
  have hdestructing := hd.destructing
  have hunborn := hd.unborn
  obtain ⟨h1, h2, h3, h4, h5⟩ := hs
  cases h <;> constructor <;> first | assumption | grind -ring -linarith

/-! ## Which dispositions are in place -/

structure Restored (s : SignalHandler) : Prop where
  sigterm : s.owner = .restoring .sigint ∨ s.owner.restored = true ∨ s.thread = .restoring .sigint ∨
    s.thread = .calling ∨ 0 < s.callbacks → s.disposition .sigterm = .previous
  sigint : s.owner.restored = true ∨ s.thread = .calling ∨ 0 < s.callbacks → s.disposition .sigint = .previous

theorem restored_init : Restored {} := by constructor <;> grind

theorem trans_restored {s t : SignalHandler} {e : Event} (hd : Determined s) (hh : Heard s) (hs : Restored s)
    (h : Trans s e t) : Restored t := by
  have hunborn := hd.unborn
  have hbefore := hh.before
  obtain ⟨h1, h2⟩ := hs
  cases h <;> constructor <;> first | assumption | grind -ring -linarith

/-! ## Whole runs -/

structure Safe (s : SignalHandler) : Prop where
  determined : Determined s
  heard : Heard s
  restored : Restored s

theorem step_safe (s : SignalHandler) (e : Event) (t : SignalHandler) (hs : Safe s)
    (h : step s e = some t) : Safe t := by
  obtain ⟨-, htrans⟩ := step_trans h
  exact ⟨trans_determined hs.determined htrans, trans_heard hs.determined hs.heard htrans,
    trans_restored hs.determined hs.heard hs.restored htrans⟩

theorem run_safe {es : List Event} {s : SignalHandler} (h : Runs.exec step {} es = some s) : Safe s :=
  Runs.exec_inv step_safe ⟨determined_init, heard_init, restored_init⟩ h

def Event.isDelivery : Event → Bool
  | .deliver _ => true
  | _ => false

/-- The constructor is over and the previous dispositions are back. -/
structure Released (s : SignalHandler) : Prop where
  constructed : s.owner.constructing = false
  previous : ∀ sig, s.disposition sig = .previous

theorem released_of_safe {s : SignalHandler} (hs : Safe s)
    (h : s.thread = .calling ∨ 0 < s.callbacks ∨ s.owner.restored = true) : Released s := by
  have hunborn := hs.determined.unborn
  have hbefore := hs.heard.before
  have hterm := hs.restored.sigterm
  have hint := hs.restored.sigint
  constructor
  · rcases h with h | h | h
    · grind
    · grind
    · exact OwnerPc.constructing_of_restored h
  · intro sig
    cases sig with
    | sigterm => exact hterm (by tauto)
    | sigint => exact hint (by tauto)

/-- No one installs `signal_handler` again, so a signal runs what was there before. -/
theorem step_released {s t : SignalHandler} {e : Event} (hs : Released s) (h : step s e = some t) :
    Released t ∧ t.invocations.length = s.invocations.length ∧
      t.escalations = s.escalations + if e.isDelivery then 1 else 0 := by
  obtain ⟨hc, hp⟩ := hs
  obtain ⟨-, htrans⟩ := step_trans h
  cases htrans <;> refine ⟨⟨?_, ?_⟩, ?_, ?_⟩ <;> first | assumption | grind -ring -linarith [Event.isDelivery]

theorem run_released {s t : SignalHandler} {es : List Event} (hs : Released s)
    (h : Runs.exec step s es = some t) :
    t.invocations.length = s.invocations.length ∧
      t.escalations = s.escalations + es.countP Event.isDelivery := by
  induction es generalizing s with
  | nil =>
    cases h
    exact ⟨rfl, rfl⟩
  | cons e es ih =>
    obtain ⟨u, hu, ht⟩ := (Runs.exec_cons_eq_some step).mp h
    obtain ⟨hreleased, hlength, hescalations⟩ := step_released hs hu
    obtain ⟨hlength', hescalations'⟩ := ih hreleased ht
    refine ⟨hlength'.trans hlength, ?_⟩
    rw [hescalations', hescalations, List.countP_cons]
    omega

/-- `destructing_` is set before the shutdown thread looks at it. -/
structure Quiet (s : SignalHandler) : Prop where
  destructing : s.destructing = true
  undecided : s.thread.handles = false
  callbacks : s.callbacks = 0

theorem step_quiet (s : SignalHandler) (e : Event) (t : SignalHandler) (hs : Quiet s)
    (h : step s e = some t) :
    Quiet t := by
  obtain ⟨h1, h2, h3⟩ := hs
  obtain ⟨-, htrans⟩ := step_trans h
  cases htrans <;> constructor <;> first | assumption | grind -ring -linarith

/-- The callback runs at most once, because of a signal, and not when the destructor came first. Once
the shutdown thread or the destructor has put the dispositions back, no signal enters `signal_handler`. -/
theorem callback_discipline (es es' : List Event) (s t : SignalHandler) (hs : Runs.exec step {} es = some s)
    (ht : Runs.exec step s es' = some t) :
    t.callbacks ≤ 1 ∧ (0 < t.callbacks → 0 < t.invocations.length) ∧
      (s.destructing = true ∧ s.thread.handles = false ∧ s.callbacks = 0 → t.callbacks = 0) ∧
      (s.thread = .calling ∨ 0 < s.callbacks ∨ s.owner.restored = true →
        t.invocations.length = s.invocations.length ∧
          t.escalations = s.escalations + es'.countP Event.isDelivery) ∧
      (t.owner = .destroyed →
        t.thread = .done ∧ t.delegate = false ∧ ∀ sig, t.disposition sig = .previous) := by
  have hsafe := run_safe hs
  have hsafe' := run_safe ((Runs.exec_append_eq_some step).mpr ⟨s, hs, ht⟩)
  refine ⟨hsafe'.heard.once, fun h => hsafe'.heard.signal (.inr h), ?_, ?_, ?_⟩
  · rintro ⟨hdestructing, hundecided, hzero⟩
    exact (Runs.exec_inv step_quiet ⟨hdestructing, hundecided, hzero⟩ ht).callbacks
  · exact fun h => run_released (released_of_safe hsafe h) ht
  · intro hdestroyed
    refine ⟨hsafe'.determined.joined (.inr hdestroyed), ?_, ?_⟩
    · have := hsafe'.determined.delegate
      grind
    · exact (released_of_safe hsafe' (.inr (.inr (by rw [hdestroyed]; rfl)))).previous

/-- One signal is handled, the destructor follows, and a second signal arrives on the way. -/
def handledRun : List Event :=
  List.replicate 4 .owner ++ [.deliver .sigint, .invocation 0, .invocation 0, .invocation 0] ++
    List.replicate 8 .thread

def escalatedRun : List Event := [.deliver .sigterm, .thread] ++ List.replicate 6 .owner

theorem callback_discipline_handled :
    ∃ s t, Runs.exec step {} handledRun = some s ∧ Runs.exec step s escalatedRun = some t ∧
      t.owner = .destroyed ∧ t.callbacks = 1 ∧ t.escalations = 1 ∧ t.delegate = false := by
  refine ⟨_, _, rfl, rfl, rfl, rfl, rfl, ?_⟩
  exact ((callback_discipline handledRun escalatedRun _ _ rfl rfl).2.2.2.2 rfl).2.1

end Nighthawk.Signals

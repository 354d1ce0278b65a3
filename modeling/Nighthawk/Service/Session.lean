import Nighthawk.Service.Busy

/-!
# A session of one client

A client sends any messages on one call, and the service reads them while its benchmarks run.
Here are the invariants of such a session: who holds the locks, how the call hands over to its
handlers, what was written, and what was read.
-/

namespace Nighthawk.Service

/-! ## The session -/

/-- The service, and the messages of its client that it has not and has read. -/
structure Session where
  service : ServiceImpl := {}
  unread : List ExecutionRequest
  read : List ExecutionRequest := []
  aborted : Bool := false
  /-- The handlers whose `process->run` never returns. -/
  hung : List HandlerId := []

inductive SessionStep where
  | service (a : Step)
  /-- An exception other than `MalformedArgvException` leaves `handleExecutionRequest`. The
  future keeps it, and the guard of `busy_lock_` ends. -/
  | uncaught (h : HandlerId)
  /-- It unwinds a process that runs, whose destructor asserts that it was shut down. -/
  | unwound (h : HandlerId)
  /-- A release assertion fails in the benchmark, as that of the trace scheme in
  `setupTracingImplementation`. -/
  | asserted (h : HandlerId)
  /-- From here on the benchmark runs for ever. -/
  | hung (h : HandlerId)
  deriving DecidableEq, Repr

/-- What the step does to the messages. `Read` fails when there are no more. -/
def Session.messages (s : Session) : Step → Option Session
  | .call c .openStream => if c = 0 then some s else none
  | .call _ (.read (some m)) =>
    match s.unread with
    | [] => none
    | next :: rest => if m = next then some { s with unread := rest, read := s.read ++ [m] } else none
  | .call _ (.read none) => if s.unread = [] then some s else none
  | _ => some s

/-- The call whose benchmark this handler runs, and may still come back from. -/
def Session.benchmark (s : Session) (h : HandlerId) : Option CallId :=
  if s.hung.contains h then none
  else match s.service.handlers h with
    | some ⟨o, .running⟩ => some o
    | _ => none

/-- The step is one of a handler that never comes back. -/
def Session.isHung (s : Session) : Step → Bool
  | .handler h _ => s.hung.contains h
  | .call .. => false

/-- A panic and a failed release assertion end the whole process. -/
def sessionStep (s : Session) (e : SessionStep) : Option Session :=
  if s.aborted then none
  else match e with
    | .service a =>
      if s.isHung a then none
      else (s.messages a).bind fun s' => (step s.service a).map fun u =>
        { s' with service := u, aborted := u.calls 0 = .panicked }
    | .uncaught h =>
      (s.benchmark h).map fun o => { s with service := s.service.setHandler h ⟨o, .returning true⟩ }
    | .unwound h | .asserted h => (s.benchmark h).map fun _ => { s with aborted := true }
    | .hung h => (s.benchmark h).map fun _ => { s with hung := h :: s.hung }

def Session.init (messages : List ExecutionRequest) : Session := { unread := messages }

/-- What can break the discipline. -/
inductive Hazard where
  | noCommand
  | spuriousWake
  | uncaught
  | unwound
  | asserted
  | hung
  deriving DecidableEq, Repr

def SessionStep.hazard : SessionStep → Option Hazard
  | .service (.call _ (.read (some .noCommand))) => some .noCommand
  | .service (.call _ .wakeSpuriously) => some .spuriousWake
  | .service _ => none
  | .uncaught _ => some .uncaught
  | .unwound _ => some .unwound
  | .asserted _ => some .asserted
  | .hung _ => some .hung

/-- The step needs no failure of a benchmark and no wake-up without a signal. -/
def SessionStep.regular (e : SessionStep) : Prop := e.hazard = none ∨ e.hazard = some .noCommand

/-! ## The locks -/

def HandlerPc.holdsAccepted : HandlerPc → Bool
  | .locking | .notifying | .accepted => true
  | _ => false

def CallPc.holdsAccepted : CallPc → Bool
  | .launching | .assigning _ | .entering | .leaving => true
  | _ => false

/-- The thread stands where the code holds `accepted_lock_`. -/
def HoldsAccepted (s : ServiceImpl) : Thread → Prop
  | .call c => (s.calls c).holdsAccepted = true
  | .handler h => ∃ hd, s.handlers h = some hd ∧ hd.pc.holdsAccepted = true

/-- A lock is held by the thread that stands where the code holds it, and by no other. -/
structure Locks (s : ServiceImpl) : Prop where
  busyOwned : BusyOwned s
  busyCall : ∀ c, s.calls c = .unlocking → s.busyLock = some (.call c)
  busyHandler : ∀ h hd, s.handlers h = some hd → hd.pc.holdsBusy = true → s.busyLock = some (.handler h)
  acceptedOwned : ∀ th, s.acceptedLock = some th → HoldsAccepted s th
  acceptedCall : ∀ c, (s.calls c).holdsAccepted = true → s.acceptedLock = some (.call c)
  acceptedHandler : ∀ h hd, s.handlers h = some hd → hd.pc.holdsAccepted = true →
    s.acceptedLock = some (.handler h)

section

variable {s t : ServiceImpl} {a : Step}

theorem busyCall_step (hs : Locks s) (ht : Trans s a t) (c : CallId) (hc : t.calls c = .unlocking) :
    t.busyLock = some (.call c) := by
  have hcall := hs.busyCall
  have hhandler := hs.busyHandler
  cases ht <;> simp only [ServiceImpl.setCall, ServiceImpl.setHandler, Function.update_apply] at hc ⊢ <;>
    grind [HandlerPc.holdsBusy]

theorem busyHandler_step (hs : Locks s) (ht : Trans s a t) (h : HandlerId) (hd : Handler)
    (hh : t.handlers h = some hd) (hpc : hd.pc.holdsBusy = true) : t.busyLock = some (.handler h) := by
  have hcall := hs.busyCall
  have hhandler := hs.busyHandler
  cases ht <;> simp only [ServiceImpl.setCall, ServiceImpl.setHandler, Function.update_apply] at hh hpc ⊢ <;>
    grind [HandlerPc.holdsBusy]

theorem acceptedOwned_step (hl : Linked s) (hs : Locks s) (ht : Trans s a t) (th : Thread)
    (hth : t.acceptedLock = some th) : HoldsAccepted t th := by
  have hw := hl.waits
  have hfresh := hl.fresh
  have hown := hs.acceptedOwned th
  unfold HoldsAccepted at *
  cases ht <;> cases th <;>
    simp only [ServiceImpl.setCall, ServiceImpl.setHandler, Function.update_apply] at hth ⊢ <;>
    grind [HandlerPc.holdsAccepted, CallPc.holdsAccepted]

theorem acceptedCall_step (hs : Locks s) (ht : Trans s a t) (c : CallId)
    (hc : (t.calls c).holdsAccepted = true) : t.acceptedLock = some (.call c) := by
  have hcall := hs.acceptedCall
  have hhandler := hs.acceptedHandler
  cases ht <;> simp only [ServiceImpl.setCall, ServiceImpl.setHandler, Function.update_apply] at hc ⊢ <;>
    grind [HandlerPc.holdsAccepted, CallPc.holdsAccepted]

theorem acceptedHandler_step (hs : Locks s) (ht : Trans s a t) (h : HandlerId) (hd : Handler)
    (hh : t.handlers h = some hd) (hpc : hd.pc.holdsAccepted = true) :
    t.acceptedLock = some (.handler h) := by
  have hcall := hs.acceptedCall
  have hhandler := hs.acceptedHandler
  cases ht <;> simp only [ServiceImpl.setCall, ServiceImpl.setHandler, Function.update_apply] at hh hpc ⊢ <;>
    grind [HandlerPc.holdsAccepted, CallPc.holdsAccepted]

theorem locks_step (hl : Linked s) (hs : Locks s) (ht : Trans s a t) : Locks t where
  busyOwned := busyOwned_step hl hs.busyOwned ht
  busyCall := busyCall_step hs ht
  busyHandler := busyHandler_step hs ht
  acceptedOwned := acceptedOwned_step hl hs ht
  acceptedCall := acceptedCall_step hs ht
  acceptedHandler := acceptedHandler_step hs ht

end

/-! ## The handover from the call to its handler -/

/-- The handler has come to `accepted_event_.notifyOne()`. -/
def HandlerPc.signalled : HandlerPc → Bool
  | .starting | .locking | .notifying => false
  | _ => true

/-- The handler needs no lock any more. -/
def HandlerPc.released : HandlerPc → Bool
  | .writing _ locked | .returning locked => !locked
  | .finished => true
  | _ => false

/-- The call has found `busy_lock_` free, and has not yet given `future_` its new handler. -/
def CallPc.pastCheck : CallPc → Bool
  | .unlocking | .accepting | .launching | .assigning _ => true
  | _ => false

/-- The call waits from before its handler can start until that handler has signalled. -/
structure Handover (s : ServiceImpl) : Prop where
  single : ∀ c, c ≠ 0 → s.calls c = .idle
  waits : s.calls 0 = .waiting → 0 ∈ s.waiters
  assigning : ∀ h, s.calls 0 = .assigning h → s.handlers h = some ⟨0, .starting⟩ ∧ s.future ≠ some h
  future : ∀ h, s.future = some h → s.handlers h ≠ none
  pending : s.calls 0 = .entering ∨ s.calls 0 = .waiting →
    ∃ h hd, s.future = some h ∧ s.handlers h = some hd ∧ hd.pc.signalled = false
  unsignalled : ∀ h hd, s.handlers h = some hd → hd.pc.signalled = false →
    s.calls 0 = .assigning h ∨ ((s.calls 0 = .entering ∨ s.calls 0 = .waiting) ∧ s.future = some h)
  released : (s.calls 0).pastCheck = true → ∀ h hd, s.handlers h = some hd → s.calls 0 ≠ .assigning h →
    hd.pc.released = true

/-- Only the client's call is opened, and `accepted_event_.wait` returns on a signal only. -/
def Calm (a : Step) : Prop := (∀ c, a = .call c .openStream → c = 0) ∧ ∀ c, a ≠ .call c .wakeSpuriously

section

variable {s t : ServiceImpl} {a : Step}

theorem caller_eq_zero (hs : Handover s) {c : CallId} {pc : CallPc} (hc : s.calls c = pc) (hpc : pc ≠ .idle) :
    c = 0 := by
  by_contra h0
  exact hpc (hc.symm.trans (hs.single c h0))

theorem handover_single_step (hl : Linked s) (hs : Handover s) (hcalm : Calm a)
    (ht : Trans s a t) (c : CallId)
    (hc : c ≠ 0) : t.calls c = .idle := by
  have hidle := hs.single c hc
  have hw := hl.waits
  have hopen := hcalm.1
  cases ht <;> simp only [ServiceImpl.setCall, ServiceImpl.setHandler, Function.update_apply] at ⊢ <;> grind

theorem assigning_step (hl : Linked s) (hk : Locks s) (hs : Handover s) (ht : Trans s a t) (h : HandlerId)
    (hc : t.calls 0 = .assigning h) : t.handlers h = some ⟨0, .starting⟩ ∧ t.future ≠ some h := by
  have hold := hs.assigning h
  have hfuture := hs.future
  have hsingle := hs.single
  -- The call holds `accepted_lock_`, so the handler cannot start yet.
  have hlock := hk.acceptedCall 0
  have hfresh := hl.fresh
  cases ht <;> simp only [ServiceImpl.setCall, ServiceImpl.setHandler, Function.update_apply] at hc ⊢ <;>
    grind [CallPc.holdsAccepted]

theorem pending_step (hl : Linked s) (hk : Locks s) (hs : Handover s) (ht : Trans s a t)
    (hc : t.calls 0 = .entering ∨ t.calls 0 = .waiting) :
    ∃ h hd, t.future = some h ∧ t.handlers h = some hd ∧ hd.pc.signalled = false := by
  have hold := hs.pending
  have hassign := hs.assigning
  have hsingle := hs.single
  have huns := hs.unsignalled
  have hw := hl.waits
  cases ht with
  | hNotifyNone h o hh hempty =>
    -- A call that has not come to wait yet holds `accepted_lock_`.
    have hwaits := hs.waits
    have hcall := hk.acceptedCall 0
    have hhandler := hk.acceptedHandler h _ hh
    simp only [ServiceImpl.setHandler] at *
    grind [HandlerPc.holdsAccepted, CallPc.holdsAccepted]
  | _ =>
    simp only [ServiceImpl.setCall, ServiceImpl.setHandler, Function.update_apply] at *
    grind [HandlerPc.signalled]

theorem unsignalled_step (hl : Linked s) (hs : Handover s) (hcalm : Calm a) (ht : Trans s a t)
    (h : HandlerId) (hd : Handler) (hh : t.handlers h = some hd) (hsig : hd.pc.signalled = false) :
    t.calls 0 = .assigning h ∨ ((t.calls 0 = .entering ∨ t.calls 0 = .waiting) ∧ t.future = some h) := by
  have hold := hs.unsignalled
  have hsingle := hs.single
  have hwaits := hs.waits
  have hw := hl.waits
  have hcalm := hcalm.2
  cases ht <;> simp only [ServiceImpl.setCall, ServiceImpl.setHandler, Function.update_apply] at hh hsig ⊢ <;>
    grind [HandlerPc.signalled]

theorem released_of_signalled {pc : HandlerPc} (hsig : pc.signalled = true) (hbusy : pc.holdsBusy = false) :
    pc.released = true := by
  cases pc <;> simp_all [HandlerPc.signalled, HandlerPc.holdsBusy, HandlerPc.released]

theorem released_handler_step (hl : Linked s) (hk : Locks s) (hs : Handover s) (ht : Trans s a t)
    (hc : (t.calls 0).pastCheck = true) (h : HandlerId) (hd : Handler) (hh : t.handlers h = some hd)
    (hne : t.calls 0 ≠ .assigning h) : hd.pc.released = true := by
  have hold := hs.released
  have hsingle := hs.single
  have hw := hl.waits
  cases ht with
  | tryLock c hcheck hfree =>
    -- Every handler has signalled by now, and none holds `busy_lock_`.
    obtain rfl := caller_eq_zero hs hcheck nofun
    apply released_of_signalled
    · by_contra hsig
      have huns := hs.unsignalled h hd hh (by simpa using hsig)
      simp [hcheck] at huns
    · by_contra hbusy
      have hheld := hk.busyHandler h hd hh (by simpa using hbusy)
      simp [hfree] at hheld
  | _ =>
    simp only [ServiceImpl.setCall, ServiceImpl.setHandler, Function.update_apply] at hc hh hne ⊢
    grind [HandlerPc.released, CallPc.pastCheck]

theorem waits_step (hs : Handover s) (ht : Trans s a t) (hc : t.calls 0 = .waiting) : 0 ∈ t.waiters := by
  have hold := hs.waits
  cases ht <;> simp only [ServiceImpl.setCall, ServiceImpl.setHandler,
    Function.update_apply] at hc ⊢ <;> grind

theorem future_step (hs : Handover s) (ht : Trans s a t) (h : HandlerId) (hf : t.future = some h) :
    t.handlers h ≠ none := by
  have hold := hs.future
  have hassign := hs.assigning
  have hsingle := hs.single
  cases ht <;> simp only [ServiceImpl.setCall, ServiceImpl.setHandler,
    Function.update_apply] at hf ⊢ <;> grind

theorem handover_step (hl : Linked s) (hk : Locks s) (hs : Handover s) (hcalm : Calm a) (ht : Trans s a t) :
    Handover t where
  single := handover_single_step hl hs hcalm ht
  waits := waits_step hs ht
  assigning := assigning_step hl hk hs ht
  future := future_step hs ht
  pending := pending_step hl hk hs ht
  unsignalled := unsignalled_step hl hs hcalm ht
  released := released_handler_step hl hk hs ht

/-! ## What the service has told the client -/

/-- `stream_` points to the client's call. -/
def CallPc.isOpen : CallPc → Bool
  | .idle | .done .. | .panicked => false
  | _ => true

structure Answers (s : ServiceImpl) : Prop where
  logged : Logged s
  known : ∀ h, h < s.launched → s.handlers h ≠ none
  wrote : ∀ h hd, s.handlers h = some hd → hd.pc.owes = false → ∃ w ∈ s.written, w.handler = h
  ended : ∀ ok d, s.calls 0 = .done ok d → ∀ h hd, s.handlers h = some hd → hd.pc = .finished
  stream : (s.calls 0).isOpen = true → s.stream = some 0
  aimed : ∀ w ∈ s.written, w.target = some 0

theorem origin_eq_zero (hl : Linked s) (hs : Handover s) {h : HandlerId} {hd : Handler}
    (hh : s.handlers h = some hd) : hd.origin = 0 := by
  by_contra h0
  exact hl.opened h hd hh (hs.single _ h0)

theorem ended_step (hl : Linked s) (ho : Handover s) (hs : Answers s) (ht : Trans s a t)
    (ok : Bool) (d : String)
    (hc : t.calls 0 = .done ok d) (h : HandlerId) (hd : Handler) (hh : t.handlers h = some hd) :
    hd.pc = .finished := by
  have hold := hs.ended
  have hsingle := ho.single
  have hw := hl.waits
  cases ht with
  | clearStream c ok' d' hclear =>
    obtain rfl := caller_eq_zero ho hclear nofun
    exact hl.cleared 0 ok' d' hclear h hd hh (origin_eq_zero hl ho hh)
  | _ =>
    simp only [ServiceImpl.setCall, ServiceImpl.setHandler, Function.update_apply] at hc hh ⊢
    grind

theorem stream_of_writing (hl : Linked s) (ho : Handover s) (hs : Answers s) {h : HandlerId} {o : CallId}
    {r : ExecutionResponse} {l : Bool} (hh : s.handlers h = some ⟨o, .writing r l⟩)
    (hp : s.calls 0 ≠ .panicked) : s.stream = some 0 := by
  have horigin := origin_eq_zero hl ho hh
  have hidle := hl.opened h _ hh
  rw [horigin] at hidle
  apply hs.stream
  cases hc : s.calls 0 with
  | idle => exact absurd hc hidle
  | panicked => exact absurd hc hp
  | done ok d => cases hs.ended ok d hc h _ hh
  | _ => rfl

theorem known_step (hs : Answers s) (ht : Trans s a t) (h : HandlerId) (hlt : h < t.launched) :
    t.handlers h ≠ none := by
  have hold := hs.known h
  cases ht <;> simp only [ServiceImpl.setCall, ServiceImpl.setHandler,
    Function.update_apply] at hlt ⊢ <;> grind

theorem wrote_step (hs : Answers s) (ht : Trans s a t) (h : HandlerId) (hd : Handler)
    (hh : t.handlers h = some hd) (howes : hd.pc.owes = false) : ∃ w ∈ t.written, w.handler = h := by
  have hold := hs.wrote h
  cases ht with
  | hWrite i o r l hi =>
    by_cases hih : h = i
    · exact ⟨⟨i, o, s.stream, r⟩, by simp, hih.symm⟩
    · obtain ⟨w, hw, hwh⟩ := hold hd (by simpa [ServiceImpl.setHandler, hih] using hh) howes
      exact ⟨w, List.mem_append_left _ hw, hwh⟩
  | _ =>
    simp only [ServiceImpl.setCall, ServiceImpl.setHandler, Function.update_apply] at hh ⊢
    grind [HandlerPc.owes]

theorem stream_open_step (hl : Linked s) (ho : Handover s) (hs : Answers s) (hcalm : Calm a)
    (ht : Trans s a t)
    (hc : (t.calls 0).isOpen = true) : t.stream = some 0 := by
  have hold := hs.stream
  have hsingle := ho.single
  have hw := hl.waits
  have hopen := hcalm.1
  cases ht <;> simp only [ServiceImpl.setCall, ServiceImpl.setHandler, Function.update_apply] at hc ⊢ <;>
    grind [CallPc.isOpen]

theorem aimed_step (hl : Linked s) (ho : Handover s) (hs : Answers s) (hp : s.calls 0 ≠ .panicked)
    (ht : Trans s a t) (w : Write) (hw : w ∈ t.written) : w.target = some 0 := by
  cases ht with
  | hWrite i o r l hi =>
    rcases List.mem_append.mp hw with hw | hw
    · exact hs.aimed w hw
    · rw [List.mem_singleton.mp hw]
      exact stream_of_writing hl ho hs hi hp
  | _ => exact hs.aimed w hw

theorem answers_step (hl : Linked s) (ho : Handover s) (hs : Answers s) (hp : s.calls 0 ≠ .panicked)
    (hcalm : Calm a) (ht : Trans s a t) : Answers t where
  logged := logged_step hl hs.logged ht
  known := known_step hs ht
  wrote := wrote_step hs ht
  ended := ended_step hl ho hs ht
  stream := stream_open_step hl ho hs hcalm ht
  aimed := aimed_step hl ho hs hp ht

end

/-! ## What the call has read -/

def afterRead : Option ExecutionRequest → CallPc
  | some .startRequest => .checking
  | some .updateRequest | some .cancellationRequest => .finishing false notSupportedDescription
  | some .noCommand => .panicked
  | none => .finishing true ""

theorem step_read {s t : ServiceImpl} {c : CallId} {r : Option ExecutionRequest}
    (h : step s (.call c (.read r)) = some t) : s.calls c = .reading ∧ t = s.setCall c (afterRead r) := by
  have hc : s.calls c = .reading := by
    cases step_trans h <;> assumption
  simp only [step, hc] at h
  rcases r with _ | m
  · exact ⟨hc, (Option.some.inj h).symm⟩
  · cases m <;> exact ⟨hc, (Option.some.inj h).symm⟩

theorem read_cases {s t : ServiceImpl} {a : Step} (hs : Handover s) (h : step s a = some t) :
    (∃ r, a = .call 0 (.read r) ∧ s.calls 0 = .reading ∧ t = s.setCall 0 (afterRead r)) ∨
      ∀ c r, a ≠ .call c (.read r) := by
  by_cases hread : ∃ c r, a = .call c (.read r)
  · obtain ⟨c, r, rfl⟩ := hread
    obtain ⟨hc, ht⟩ := step_read h
    obtain rfl := caller_eq_zero hs hc nofun
    exact .inl ⟨r, rfl, hc, ht⟩
  · exact .inr fun c r ha => hread ⟨c, r, ha⟩

/-- The status that the call is going to return, or has returned. -/
def CallPc.status : CallPc → Option Bool
  | .finishing ok _ | .clearing ok _ | .done ok _ => some ok
  | _ => none

/-- Only start requests were read, and none was declined. -/
def Faultless (s : Session) : Prop := (∀ m ∈ s.read, m = .startRequest) ∧ s.service.declined = []

structure Books (s : Session) : Prop where
  counted : s.service.launched + s.service.declined.length +
    (if (s.service.calls 0).isStarting then 1 else 0) =
    s.read.count .startRequest
  undecided : (s.service.calls 0).status = none → Faultless s
  decided : ∀ ok, (s.service.calls 0).status = some ok → (ok = true ↔ Faultless s)

section

variable {s : Session} {u : ServiceImpl} {a : Step}

theorem messages_end {s' : Session} {c : CallId}
    (h : s.messages (.call c (.read none)) = some s') : s' = s := by
  simp only [Session.messages, Option.ite_none_right_eq_some, Option.some.injEq] at h
  exact h.2.symm

theorem messages_message {s' : Session} {c : CallId} {m : ExecutionRequest}
    (h : s.messages (.call c (.read (some m))) = some s') :
    ∃ rest, s.unread = m :: rest ∧ s' = { s with unread := rest, read := s.read ++ [m] } := by
  simp only [Session.messages] at h
  split at h
  · cases h
  · rename_i next rest hunread
    split_ifs at h with hm
    exact ⟨rest, by rw [hunread, hm], (Option.some.inj h).symm⟩

theorem messages_of_not_read {s' : Session} (ha : ∀ c r, a ≠ .call c (.read r)) (h : s.messages a = some s') :
    s' = s := by
  unfold Session.messages at h
  split at h
  · split_ifs at h
    exact (Option.some.inj h).symm
  · exact absurd rfl (ha _ _)
  · exact absurd rfl (ha _ _)
  · exact (Option.some.inj h).symm

theorem messages_hung {s' : Session} (h : s.messages a = some s') : s'.hung = s.hung := by
  unfold Session.messages at h
  split at h <;> (try split at h) <;> grind

theorem launched_of_not_read (hl : Linked s.service) (ho : Handover s.service) (ht : Trans s.service a u)
    (ha : ∀ c r, a ≠ .call c (.read r)) :
    u.launched + u.declined.length + (if (u.calls 0).isStarting then 1 else 0) =
      s.service.launched + s.service.declined.length + if (s.service.calls 0).isStarting then 1 else 0 := by
  have hsingle := ho.single
  have hw := hl.waits
  cases ht <;> simp only [ServiceImpl.setCall, ServiceImpl.setHandler, Function.update_apply] <;>
    grind [CallPc.isStarting]

theorem status_of_not_read (hl : Linked s.service) (ho : Handover s.service) (ht : Trans s.service a u)
    (ha : ∀ c r, a ≠ .call c (.read r)) :
    ((u.calls 0).status = (s.service.calls 0).status ∧ u.declined = s.service.declined) ∨
      ((s.service.calls 0).status = none ∧ (u.calls 0).status = some false ∧ u.declined ≠ []) := by
  have hsingle := ho.single
  have hw := hl.waits
  cases ht with
  | decline c hc hb =>
    obtain rfl := caller_eq_zero ho hc nofun
    refine .inr ⟨by rw [hc]; rfl, ?_, by simp⟩
    simp [ServiceImpl.setCall, CallPc.status]
  | _ =>
    simp only [ServiceImpl.setCall, ServiceImpl.setHandler, Function.update_apply]
    grind [CallPc.status]

theorem books_of_not_read (hl : Linked s.service) (ho : Handover s.service) (hs : Books s)
    (ht : Trans s.service a u)
    (ha : ∀ c r, a ≠ .call c (.read r)) (aborted : Bool) : Books { s with service := u, aborted } := by
  have hcounted := launched_of_not_read hl ho ht ha
  rcases status_of_not_read hl ho ht ha with ⟨hstatus, hdeclined⟩ | ⟨-, hstatus, hdeclined⟩
  · have hfaultless : Faultless { s with service := u, aborted } ↔ Faultless s := by
      unfold Faultless
      rw [hdeclined]
    refine ⟨hcounted.trans hs.counted, fun hnone => ?_, fun ok hok => ?_⟩
    · rw [hfaultless]
      exact hs.undecided (hstatus ▸ hnone)
    · rw [hfaultless]
      exact hs.decided ok (hstatus ▸ hok)
  · refine ⟨hcounted.trans hs.counted, fun hnone => ?_, fun ok hok => ?_⟩
    · rw [hstatus] at hnone
      cases hnone
    · rw [hstatus] at hok
      cases hok
      exact iff_of_false Bool.false_ne_true fun hfaultless => hdeclined hfaultless.2

theorem books_of_message (hs : Books s) (hc : s.service.calls 0 = .reading) {m : ExecutionRequest}
    (hm : m ≠ .noCommand) (unread : List ExecutionRequest) (aborted : Bool) :
    Books { s with service := s.service.setCall 0 (afterRead (some m)), unread, read := s.read ++ [m], aborted } := by
  obtain ⟨hcounted, hundecided, -⟩ := hs
  have hclean := hundecided (by rw [hc]; rfl)
  simp only [hc, CallPc.isStarting, Bool.false_eq_true, if_false] at hcounted
  have hcall : (s.service.setCall 0 (afterRead (some m))).calls 0 = afterRead (some m) := by
    simp [ServiceImpl.setCall]
  unfold Faultless at hclean
  constructor
  · simp only [hcall, List.count_append, ← hcounted]
    cases m <;> simp [afterRead, CallPc.isStarting, ServiceImpl.setCall]
  · simp only [hcall, Faultless]
    cases m <;> simp_all [afterRead, CallPc.status, ServiceImpl.setCall]
    rintro m (hm | rfl)
    · exact hclean.1 m hm
    · rfl
  · simp only [hcall, Faultless]
    cases m <;> simp_all [afterRead, CallPc.status, ServiceImpl.setCall]

theorem books_of_end (hs : Books s) (hc : s.service.calls 0 = .reading) (aborted : Bool) :
    Books { s with service := s.service.setCall 0 (afterRead none), aborted } := by
  obtain ⟨hcounted, hundecided, -⟩ := hs
  have hclean := hundecided (by rw [hc]; rfl)
  simp only [hc, CallPc.isStarting] at hcounted
  have hcall : (s.service.setCall 0 (afterRead none)).calls 0 = .finishing true "" := by
    simp [ServiceImpl.setCall, afterRead]
  constructor
  · simp only [hcall]
    exact hcounted
  · simp [hcall, CallPc.status]
  · intro ok hok
    rw [hcall] at hok
    cases hok
    exact iff_of_true rfl hclean

end

/-! ## Runs without a hazard -/

structure Orderly (s : Session) : Prop where
  alive : s.aborted = false
  unhung : s.hung = []
  unpanicked : s.service.calls 0 ≠ .panicked
  linked : Linked s.service
  locks : Locks s.service
  handover : Handover s.service
  answers : Answers s.service
  books : Books s

theorem orderly_init (messages : List ExecutionRequest) : Orderly (.init messages) where
  alive := rfl
  unhung := rfl
  unpanicked := nofun
  linked := linked_init
  locks := by
    constructor <;> simp [Session.init, BusyOwned, CallPc.holdsAccepted]
  handover := by
    constructor <;> simp [Session.init, CallPc.pastCheck]
  answers := by
    refine ⟨⟨?_, ?_⟩, ?_, ?_, ?_, ?_, ?_⟩ <;> simp [Session.init, CallPc.isOpen]
  books := by
    constructor <;> simp [Session.init, Faultless, CallPc.isStarting, CallPc.status]

theorem sessionStep_cases {s t : Session} {e : SessionStep} (h : sessionStep s e = some t)
    (he : e.hazard = none) :
    ∃ a s' u, e = .service a ∧ s.messages a = some s' ∧ step s.service a = some u ∧
      t = { s' with service := u, aborted := u.calls 0 = .panicked } := by
  cases e with
  | uncaught i => cases he
  | unwound i => cases he
  | asserted i => cases he
  | hung i => cases he
  | service a =>
    simp only [sessionStep] at h
    split_ifs at h
    obtain ⟨s', hs', hmap⟩ := Option.bind_eq_some_iff.mp h
    obtain ⟨u, hu, rfl⟩ := Option.map_eq_some_iff.mp hmap
    exact ⟨a, s', u, rfl, hs', hu, rfl⟩

theorem calm_of_messages {s s' : Session} {a : Step} (h : s.messages a = some s')
    (he : (SessionStep.service a).hazard = none) : Calm a := by
  constructor
  · rintro c rfl
    by_contra h0
    simp [Session.messages, h0] at h
  · rintro c rfl
    cases he

theorem books_step {s s' : Session} {a : Step} {u : ServiceImpl} (hs : Orderly s)
    (hm : s.messages a = some s')
    (hu : step s.service a = some u) (he : (SessionStep.service a).hazard = none) (aborted : Bool) :
    Books { s' with service := u, aborted } := by
  rcases read_cases hs.handover hu with ⟨r, rfl, hc, rfl⟩ | hnot
  · cases r with
    | none =>
      obtain rfl := messages_end hm
      exact books_of_end hs.books hc aborted
    | some m =>
      have hne : m ≠ .noCommand := by
        rintro rfl
        cases he
      obtain ⟨rest, -, rfl⟩ := messages_message hm
      exact books_of_message hs.books hc hne _ aborted
  · obtain rfl := messages_of_not_read hnot hm
    exact books_of_not_read hs.linked hs.handover hs.books (step_trans hu) hnot aborted

theorem unpanicked_step {s : Session} {a : Step} {u : ServiceImpl} (hs : Orderly s)
    (hu : step s.service a = some u) (he : (SessionStep.service a).hazard = none) :
    u.calls 0 ≠ .panicked := by
  rcases read_cases hs.handover hu with ⟨r, rfl, -, rfl⟩ | hnot
  · simp only [ServiceImpl.setCall, Function.update_self]
    rcases r with _ | m
    · simp [afterRead]
    · cases m with
      | noCommand => cases he
      | _ => simp [afterRead]
  · have hold := hs.unpanicked
    cases step_trans hu <;>
      simp only [ServiceImpl.setCall, ServiceImpl.setHandler, Function.update_apply] at ⊢ <;> grind

theorem orderly_step {s t : Session} {e : SessionStep} (hs : Orderly s) (he : e.hazard = none)
    (h : sessionStep s e = some t) : Orderly t := by
  obtain ⟨a, s', u, rfl, hm, hu, rfl⟩ := sessionStep_cases h he
  have ht := step_trans hu
  have hcalm := calm_of_messages hm he
  have hpanic := unpanicked_step hs hu he
  exact {
    alive := by simpa using hpanic
    unhung := (messages_hung hm).trans hs.unhung
    unpanicked := hpanic
    linked := linked_step hs.linked ht
    locks := locks_step hs.linked hs.locks ht
    handover := handover_step hs.linked hs.locks hs.handover hcalm ht
    answers := answers_step hs.linked hs.handover hs.answers hs.unpanicked hcalm ht
    books := books_step hs hm hu he _ }

end Nighthawk.Service

import Mathlib.Data.Finset.Card
import Mathlib.Data.Finset.Range
import Nighthawk.Service.Routing

/-!
# A client that waits for its responses

One client uses one call, and sends its next start request only after it has received the
response to the previous one. A handler that releases `busy_lock_` before it writes its response
never makes the service decline that client.
-/

namespace Nighthawk.Service

/-! ## The client -/

/-- The service and its client: the messages sent, read by the service, and received back. -/
structure Client where
  service : ServiceImpl := {}
  sent : Nat := 0
  read : Nat := 0
  received : Nat := 0
  closed : Bool := false

inductive ClientStep where
  | send
  | receive
  | close
  | service (a : Step)
  deriving DecidableEq, Repr

def Client.responses (s : Client) : Nat := s.service.written.countP (·.target = some 0)

/-- The service reads what the client has sent, on the one call the client opened. -/
def Client.admits (s : Client) : Step → Bool
  | .call c .openStream => c = 0
  | .call _ (.read (some r)) => r = .startRequest ∧ s.read < s.sent
  | .call _ (.read none) => s.closed
  | _ => true

def Step.messages : Step → Nat
  | .call _ (.read (some _)) => 1
  | _ => 0

def clientStep (s : Client) : ClientStep → Option Client
  | .send => if s.sent = s.received ∧ s.closed = false then some { s with sent := s.sent + 1 } else none
  | .receive => if s.received < s.responses then some { s with received := s.received + 1 } else none
  | .close => some { s with closed := true }
  | .service a =>
    if s.admits a then (step s.service a).map fun t => { s with service := t, read := s.read + a.messages }
    else none

/-- Every benchmark ends with an outcome of `P`. -/
def Outcomes (P : Outcome → Prop) (_ : Client) : ClientStep → Prop
  | .service (.handler _ (.finish o)) => P o
  | _ => True

/-! ## Who holds `busy_lock_` -/

def HandlerPc.holdsBusy : HandlerPc → Bool
  | .notifying | .accepted | .running | .releasing _ => true
  | .writing _ locked | .returning locked => locked
  | _ => false

def HoldsBusy (s : ServiceImpl) : Thread → Prop
  | .call c => s.calls c = .unlocking
  | .handler h => ∃ hd, s.handlers h = some hd ∧ hd.pc.holdsBusy = true

def BusyOwned (s : ServiceImpl) : Prop := ∀ th, s.busyLock = some th → HoldsBusy s th

theorem busyOwned_step {s t : ServiceImpl} {a : Step} (hl : Linked s) (hs : BusyOwned s) (ht : Trans s a t) :
    BusyOwned t := by
  have hw := hl.waits
  have hfresh := hl.fresh
  intro th hth
  have := hs th
  unfold HoldsBusy at *
  cases ht <;> cases th <;>
    simp only [ServiceImpl.setCall, ServiceImpl.setHandler, Function.update_apply] at * <;>
    grind [HandlerPc.holdsBusy]

/-! ## Who has written -/

/-- Each handler writes at most once, and is past its write then. -/
structure Logged (s : ServiceImpl) : Prop where
  once : (s.written.map (·.handler)).Nodup
  settled : ∀ w ∈ s.written, ∃ hd, s.handlers w.handler = some hd ∧ hd.pc.owes = false

theorem logged_step {s t : ServiceImpl} {a : Step} (hl : Linked s) (hs : Logged s) (ht : Trans s a t) :
    Logged t := by
  obtain ⟨honce, hset⟩ := hs
  have hfresh := hl.fresh
  cases ht with
  | hWrite h o r l hh =>
    have hnew : ∀ w ∈ s.written, w.handler ≠ h := by
      intro w hw he
      obtain ⟨hd, hd1, hd2⟩ := hset w hw
      rw [he, hh] at hd1
      cases hd1
      cases hd2
    refine ⟨?_, fun w hw => ?_⟩
    · simpa [List.nodup_append] using ⟨honce, hnew⟩
    · rcases List.mem_append.mp hw with hw | hw
      · simpa [ServiceImpl.setHandler, hnew w hw] using hset w hw
      · rw [List.mem_singleton.mp hw]
        exact ⟨⟨o, .returning l⟩, by simp [ServiceImpl.setHandler], rfl⟩
  | _ =>
    refine ⟨honce, fun w hw => ?_⟩
    have := hset w hw
    simp only [ServiceImpl.setCall, ServiceImpl.setHandler, Function.update_apply] at *
    grind [HandlerPc.owes]

theorem owes_false_of_launched_le {s : ServiceImpl} (hl : Linked s) (hs : Logged s)
    (hle : s.launched ≤ s.written.length) (h : HandlerId) (hd : Handler) (hh : s.handlers h = some hd) :
    hd.pc.owes = false := by
  have hlt : ∀ {i hd}, s.handlers i = some hd → i < s.launched := by
    intro i hd hi
    by_contra hge
    simp [hl.fresh i (Nat.le_of_not_lt hge)] at hi
  -- The handlers in the log are distinct and all launched, so they are all the launched ones.
  have hsub : (s.written.map (·.handler)).toFinset ⊆ Finset.range s.launched := by
    intro i hi
    obtain ⟨w, hw, rfl⟩ : ∃ w ∈ s.written, w.handler = i := by simpa using hi
    obtain ⟨hd, hd1, -⟩ := hs.settled w hw
    exact Finset.mem_range.mpr (hlt hd1)
  have hall := Finset.eq_of_subset_of_card_le hsub (by
    rw [Finset.card_range, List.toFinset_card_of_nodup hs.once, List.length_map]; exact hle)
  have hmem : h ∈ (s.written.map (·.handler)).toFinset := by
    rw [hall]; exact Finset.mem_range.mpr (hlt hh)
  obtain ⟨w, hw, rfl⟩ : ∃ w ∈ s.written, w.handler = h := by simpa using hmem
  obtain ⟨hd', hd1, hd2⟩ := hs.settled w hw
  rw [hh] at hd1
  cases hd1
  exact hd2

/-! ## The client is never declined -/

/-- The call has read a start request and not yet launched its handler. -/
def CallPc.isStarting : CallPc → Bool
  | .checking | .unlocking | .accepting | .launching => true
  | _ => false

/-- The start requests that were read and have no handler yet. -/
def Client.starting (s : Client) : Nat := if (s.service.calls 0).isStarting then 1 else 0

/-- What holds as long as every benchmark ran. -/
structure Paced (s : Client) : Prop where
  linked : Linked s.service
  owned : BusyOwned s.service
  logged : Logged s.service
  single : ∀ c ≠ 0, s.service.calls c = .idle
  waited : s.sent ≤ s.received + 1
  answered : s.received ≤ s.service.written.length
  counted : s.read = s.service.launched + s.starting
  settled : (s.service.calls 0).isStarting = true →
    ∀ h hd, s.service.handlers h = some hd → hd.pc.owes = false
  released : ∀ h o pc, s.service.handlers h = some ⟨o, pc⟩ → pc.owes = false → pc.holdsBusy = false
  /-- No response is written under the lock. -/
  unlocked : ∀ h o r, s.service.handlers h ≠ some ⟨o, .writing r true⟩
  accepted : s.service.declined = []

theorem busyLock_free_of_checking {s : Client} (hs : Paced s) (hc : s.service.calls 0 = .checking) :
    s.service.busyLock = none := by
  rcases hb : s.service.busyLock with _ | th
  · rfl
  · have hown := hs.owned th hb
    cases th with
    | call c =>
      by_cases h0 : c = 0
      · subst h0
        simp [HoldsBusy, hc] at hown
      · simp [HoldsBusy, hs.single c h0] at hown
    | handler h =>
      obtain ⟨⟨o, pc⟩, hh, hpc⟩ := hown
      have hset := hs.settled (by rw [hc]; rfl) h _ hh
      rw [hs.released h o pc hh hset] at hpc
      cases hpc

theorem settled_of_read {s : Client} (hs : Paced s) (hc : s.service.calls 0 = .reading)
    (hread : s.read < s.sent)
    (h : HandlerId) (hd : Handler) (hh : s.service.handlers h = some hd) : hd.pc.owes = false := by
  have hcount := hs.counted
  simp only [Client.starting, hc, CallPc.isStarting] at hcount
  have h1 := hs.waited
  have h2 := hs.answered
  exact owes_false_of_launched_le hs.linked hs.logged (by simp at hcount; omega) h hd hh

section

variable {s : Client} {u : ServiceImpl} {a : Step}

theorem single_step (hs : Paced s) (hadm : s.admits a = true) (ht : Trans s.service a u) (c : CallId)
    (hc : c ≠ 0) : u.calls c = .idle := by
  have hidle := hs.single c hc
  have hw := hs.linked.waits
  cases ht <;> simp only [ServiceImpl.setCall, ServiceImpl.setHandler, Function.update_apply,
    Client.admits] at * <;>
    grind

theorem counted_step (hs : Paced s) (hadm : s.admits a = true) (ht : Trans s.service a u) :
    s.read + a.messages = u.launched + if (u.calls 0).isStarting then 1 else 0 := by
  have hcount := hs.counted
  have hsingle := hs.single
  have hw := hs.linked.waits
  -- A declined request would be read without a handler.
  have hfree := busyLock_free_of_checking hs
  unfold Client.starting at hcount
  cases ht <;>
    simp only [ServiceImpl.setCall, ServiceImpl.setHandler, Function.update_apply, Client.admits,
      Step.messages] at * <;>
    grind [CallPc.isStarting]

theorem settled_step (hs : Paced s) (hadm : s.admits a = true) (ht : Trans s.service a u)
    (hstart : (u.calls 0).isStarting = true) (h : HandlerId) (hd : Handler) (hh : u.handlers h = some hd) :
    hd.pc.owes = false := by
  have hsingle := hs.single
  cases ht with
  | readStart c hc =>
    by_cases h0 : c = 0
    · subst h0
      exact settled_of_read hs hc (by simpa [Client.admits] using hadm) h hd hh
    · simp [hs.single c h0] at hc
  | _ =>
    have := hs.settled
    have := hs.linked.waits
    simp only [ServiceImpl.setCall, ServiceImpl.setHandler, Function.update_apply] at *
    grind [CallPc.isStarting, HandlerPc.owes]

theorem unlocked_step (hs : Paced s) (hran : Outcomes (∃ ok, · = .ran ok) s (.service a))
    (ht : Trans s.service a u) (h : HandlerId) (o : CallId) (r : ExecutionResponse) :
    u.handlers h ≠ some ⟨o, .writing r true⟩ := by
  have := hs.unlocked h o r
  cases ht <;> simp only [ServiceImpl.setCall, ServiceImpl.setHandler, Function.update_apply,
    Outcomes] at * <;>
    grind

theorem released_step (hs : Paced s) (ht : Trans s.service a u) (h : HandlerId) (o : CallId) (pc : HandlerPc)
    (hh : u.handlers h = some ⟨o, pc⟩) (hpc : pc.owes = false) : pc.holdsBusy = false := by
  have := hs.released h o pc
  have := hs.unlocked h o
  cases ht <;> simp only [ServiceImpl.setCall, ServiceImpl.setHandler, Function.update_apply] at * <;>
    grind [HandlerPc.owes, HandlerPc.holdsBusy]

theorem accepted_step (hs : Paced s) (ht : Trans s.service a u) : u.declined = [] := by
  cases ht with
  | decline c hc hb =>
    by_cases h0 : c = 0
    · subst h0
      exact absurd (busyLock_free_of_checking hs hc) hb
    · simp [hs.single c h0] at hc
  | _ => exact hs.accepted

theorem written_length_step (ht : Trans s.service a u) : s.service.written.length ≤ u.written.length := by
  cases ht <;> first | exact le_rfl | simp

theorem paced_service (hs : Paced s) (hadm : s.admits a = true)
    (hran : Outcomes (∃ ok, · = .ran ok) s (.service a)) (ht : Trans s.service a u) :
    Paced { s with service := u, read := s.read + a.messages } where
  linked := linked_step hs.linked ht
  owned := busyOwned_step hs.linked hs.owned ht
  logged := logged_step hs.linked hs.logged ht
  single := single_step hs hadm ht
  waited := hs.waited
  answered := hs.answered.trans (written_length_step ht)
  counted := counted_step hs hadm ht
  settled := settled_step hs hadm ht
  released := released_step hs ht
  unlocked := unlocked_step hs hran ht
  accepted := accepted_step hs ht

end

theorem paced_step (s : Client) (e : ClientStep) (t : Client) (hs : Paced s)
    (hran : Outcomes (∃ ok, · = .ran ok) s e) (h : clientStep s e = some t) : Paced t := by
  cases e with
  | send =>
    simp only [clientStep, Option.ite_none_right_eq_some, Option.some.injEq] at h
    obtain ⟨⟨heq, -⟩, rfl⟩ := h
    exact { hs with waited := by simp [heq] }
  | receive =>
    simp only [clientStep, Option.ite_none_right_eq_some, Option.some.injEq] at h
    obtain ⟨hlt, rfl⟩ := h
    have hle : s.responses ≤ s.service.written.length := List.countP_le_length
    have := hs.waited
    exact { hs with waited := by simp only; omega, answered := by simp only; omega }
  | close =>
    cases h
    exact { hs with }
  | service a =>
    simp only [clientStep, Option.ite_none_right_eq_some, Option.map_eq_some_iff] at h
    obtain ⟨hadm, u, hu, rfl⟩ := h
    exact paced_service hs hadm hran (step_trans hu)

theorem paced_init : Paced {} := by
  refine ⟨linked_init, ?_, ⟨?_, ?_⟩, ?_, ?_, ?_, ?_, ?_, ?_, ?_, ?_⟩ <;>
    simp [BusyOwned, Client.starting, CallPc.isStarting]

/-- The client sends its next request after the error of the first, before the handler returned. -/
def hastyRun (o : Outcome) : List ClientStep :=
  [.service (.call 0 .openStream), .send] ++ (accepted 0 0).map .service ++
    [.service (.handler 0 (.finish o)), .service (.handler 0 .writeResponse), .receive, .send,
      .service (.call 0 (.read (some .startRequest))), .service (.call 0 .tryLock)]

theorem hastyRun_declined (o : Outcome) (ho : ∀ ok, o ≠ .ran ok) :
    ∃ s, Runs.exec clientStep {} (hastyRun o) = some s ∧ s.service.declined = [0] := by
  cases o with
  | malformed what => exact ⟨_, rfl, rfl⟩
  | notCreated status => exact ⟨_, rfl, rfl⟩
  | ran ok => exact absurd rfl (ho ok)

/-- The client is never declined exactly when every benchmark gets to run. -/
theorem never_declined_iff (P : Outcome → Prop) :
    (∀ es s, Runs.exec clientStep {} es = some s → Runs.AllSteps clientStep (Outcomes P) {} es →
      s.service.declined = []) ↔ ∀ o, P o → ∃ ok, o = .ran ok := by
  constructor
  · intro hnever o ho
    by_contra hran
    obtain ⟨s, hs, hdec⟩ := hastyRun_declined o fun ok he => hran ⟨ok, he⟩
    have hall : Runs.AllSteps clientStep (Outcomes P) {} (hastyRun o) := by
      apply Runs.allSteps_of_forall
      simp [hastyRun, accepted, Outcomes, ho]
    simp [hnever _ s hs hall] at hdec
  · intro hP es s hs hall
    refine (Runs.exec_inv_of_allSteps (fun s e t hp hok =>
      paced_step s e t hp ?_) paced_init hall hs).accepted
    unfold Outcomes at hok ⊢
    split at hok
    · exact hP _ hok
    · trivial

/-- A malformed request is answered, and the request that follows its answer is declined. -/
theorem malformed_declines_next :
    ∃ s, Runs.exec clientStep {} (hastyRun (.malformed "Invalid value for --rps")) = some s ∧
      s.received = 1 ∧ s.service.calls 0 = .finishing false busyDescription ∧ s.service.declined = [0] :=
  ⟨_, rfl, rfl, rfl, rfl⟩

end Nighthawk.Service

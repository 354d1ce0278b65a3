import Mathlib.Algebra.BigOperators.Group.Finset.Basic
import Nighthawk.Service.Session

/-!
# The discipline of a stream

The call of a session ends with the right status and one response for each accepted request,
unless a message has no command, the wait for a handler ends without its signal, an exception
leaves a handler, or its benchmark fails a release assertion or never returns.
-/

namespace Nighthawk.Service

/-! ## The call comes to its end -/

def CallPc.work : CallPc → Nat
  | .checking => 20
  | .unlocking => 19
  | .accepting => 18
  | .launching => 17
  | .assigning _ => 8
  | .entering => 7
  | .waiting => 6
  | .waking => 5
  | .leaving | .idle => 4
  | .reading => 3
  | .finishing .. => 2
  | .clearing .. => 1
  | .done .. | .panicked => 0

def HandlerPc.work : HandlerPc → Nat
  | .starting => 8
  | .locking => 7
  | .notifying => 6
  | .accepted => 5
  | .running => 4
  | .releasing _ => 3
  | .writing .. => 2
  | .returning _ => 1
  | .finished => 0

/-- The steps that the launched handlers can still take. -/
def handlersWork (handlers : HandlerId → Option Handler) (launched : Nat) : Nat :=
  ∑ h ∈ Finset.range launched, ((handlers h).map (·.pc.work)).getD 0

/-- The steps that the session can still take at most. -/
def Session.work (s : Session) : Nat :=
  18 * s.unread.length + (s.service.calls 0).work + handlersWork s.service.handlers s.service.launched

theorem handlersWork_update (handlers : HandlerId → Option Handler) {launched : Nat} {h : HandlerId}
    {hd : Handler}
    (hh : handlers h = some hd) (hlt : h < launched) (hd' : Handler) :
    handlersWork (Function.update handlers h (some hd')) launched + hd.pc.work =
      handlersWork handlers launched + hd'.pc.work := by
  have hmem := Finset.mem_range.mpr hlt
  have hrest : ∑ i ∈ (Finset.range launched).erase h,
        ((Function.update handlers h (some hd') i).map (·.pc.work)).getD 0 =
      ∑ i ∈ (Finset.range launched).erase h, ((handlers i).map (·.pc.work)).getD 0 := by
    apply Finset.sum_congr rfl
    intro i hi
    rw [Function.update_of_ne (Finset.ne_of_mem_erase hi)]
  rw [handlersWork, handlersWork, ← Finset.add_sum_erase _ _ hmem, ← Finset.add_sum_erase _ _ hmem, hrest,
    Function.update_self, hh]
  simp only [Option.map_some, Option.getD_some]
  omega

theorem handlersWork_launch (handlers : HandlerId → Option Handler) (launched : Nat) (hd : Handler) :
    handlersWork (Function.update handlers launched (some hd)) (launched + 1) =
      handlersWork handlers launched + hd.pc.work := by
  have hrest : handlersWork (Function.update handlers launched (some hd)) launched =
      handlersWork handlers launched := by
    apply Finset.sum_congr rfl
    intro i hi
    rw [Function.update_of_ne (Finset.mem_range.mp hi).ne]
  rw [handlersWork, Finset.sum_range_succ, Function.update_self]
  exact congrArg (· + hd.pc.work) hrest

theorem serviceWork_step {s u : ServiceImpl} {a : Step} (hl : Linked s) (ho : Handover s) (ht : Trans s a u)
    (ha : ∀ c r, a ≠ .call c (.read r)) (hcalm : Calm a) :
    (u.calls 0).work + handlersWork u.handlers u.launched <
      (s.calls 0).work + handlersWork s.handlers s.launched := by
  have hlaunched : ∀ h hd, s.handlers h = some hd → h < s.launched := by
    intro h hd hh
    by_contra hge
    simp [hl.fresh h (Nat.le_of_not_lt hge)] at hh
  have hupdate : ∀ h hd hd', s.handlers h = some hd →
      handlersWork (Function.update s.handlers h (some hd')) s.launched + hd.pc.work =
        handlersWork s.handlers s.launched + hd'.pc.work :=
    fun h hd hd' hh => handlersWork_update s.handlers hh (hlaunched h hd hh) hd'
  have hlaunch := handlersWork_launch s.handlers s.launched
  have hsingle := ho.single
  have hw := hl.waits
  have hopen := hcalm.1
  cases ht <;> simp only [ServiceImpl.setCall, ServiceImpl.setHandler, Function.update_apply] at * <;>
    grind [CallPc.work, HandlerPc.work]

theorem afterRead_work_le (r : Option ExecutionRequest) :
    (afterRead r).work ≤ if r.isSome then 20 else 2 := by
  rcases r with _ | m
  · exact le_rfl
  · cases m <;> simp [afterRead, CallPc.work]

theorem work_step {s t : Session} {e : SessionStep} (hs : Orderly s) (he : e.hazard = none)
    (h : sessionStep s e = some t) : t.work < s.work := by
  obtain ⟨a, s', u, rfl, hm, hu, rfl⟩ := sessionStep_cases h he
  unfold Session.work
  rcases read_cases hs.handover hu with ⟨r, rfl, hc, rfl⟩ | hnot
  · have hwork := afterRead_work_le r
    have hreading : (s.service.calls 0).work = 3 := by rw [hc]; rfl
    simp only [ServiceImpl.setCall, Function.update_self, hreading]
    cases r with
    | none =>
      obtain rfl := messages_end hm
      simp only [Option.isSome_none, Bool.false_eq_true, if_false] at hwork
      omega
    | some m =>
      obtain ⟨rest, hunread, rfl⟩ := messages_message hm
      simp only [Option.isSome_some, if_true] at hwork
      simp only [hunread, List.length_cons]
      omega
  · have hcalm := calm_of_messages hm he
    obtain rfl := messages_of_not_read hnot hm
    have hlt := serviceWork_step hs.linked hs.handover (step_trans hu) hnot hcalm
    simp only
    omega

/-! ## No deadlock -/

def Advances (s : Session) : Prop := ∃ e, e.regular ∧ (sessionStep s e).isSome = true

theorem advances_of_step {s : Session} (hs : Orderly s) {a : Step} (hm : (s.messages a).isSome = true)
    (hu : (step s.service a).isSome = true) (hr : (SessionStep.service a).regular) : Advances s := by
  obtain ⟨s', hs'⟩ := Option.isSome_iff_exists.mp hm
  obtain ⟨u, hu⟩ := Option.isSome_iff_exists.mp hu
  refine ⟨.service a, hr, ?_⟩
  have hfree : s.isHung a = false := by
    cases a <;> simp [Session.isHung, hs.unhung]
  simp [sessionStep, hs.alive, hfree, hs', hu]

theorem advances_of_handlerStep {s : Session} (hs : Orderly s) {h : HandlerId} {o : CallId} {pc : HandlerPc}
    (hh : s.service.handlers h = some ⟨o, pc⟩) (a : HandlerStep)
    (ha : (handlerStep s.service h o pc a).isSome = true) : Advances s := by
  refine advances_of_step hs (a := .handler h a) rfl ?_ (.inl rfl)
  simpa [step, hh] using ha

theorem advances_of_signalled {s : Session} (hs : Orderly s) {h : HandlerId} {hd : Handler}
    (hh : s.service.handlers h = some hd) (hsig : hd.pc.signalled = true) (hfin : hd.pc ≠ .finished) :
    Advances s := by
  obtain ⟨o, pc⟩ := hd
  have hstep := advances_of_handlerStep hs hh
  cases pc with
  | starting => cases hsig
  | locking => cases hsig
  | notifying => cases hsig
  | accepted => exact hstep .unlockAccepted rfl
  | running => exact hstep (.finish (.ran true)) rfl
  | releasing r => exact hstep .releaseBusy rfl
  | writing r locked => exact hstep .writeResponse rfl
  | returning locked => cases locked <;> exact hstep .return rfl
  | finished => exact absurd rfl hfin

theorem acceptedLock_cases {s : ServiceImpl} (hk : Locks s) (ho : Handover s)
    (hc : (s.calls 0).holdsAccepted = false) :
    s.acceptedLock = none ∨ ∃ h hd, s.handlers h = some hd ∧ hd.pc.holdsAccepted = true := by
  rcases hlock : s.acceptedLock with _ | ⟨c | h⟩
  · exact .inl rfl
  · have hown : (s.calls c).holdsAccepted = true := hk.acceptedOwned _ hlock
    have hbusy : s.calls c ≠ .idle := by
      intro hidle
      rw [hidle] at hown
      cases hown
    obtain rfl := caller_eq_zero ho rfl hbusy
    rw [hc] at hown
    cases hown
  · exact .inr ⟨h, hk.acceptedOwned _ hlock⟩

theorem busyLock_cases {s : ServiceImpl} (hk : Locks s) (ho : Handover s) (hc : s.calls 0 ≠ .unlocking) :
    s.busyLock = none ∨ ∃ h hd, s.handlers h = some hd ∧ hd.pc.holdsBusy = true := by
  rcases hlock : s.busyLock with _ | ⟨c | h⟩
  · exact .inl rfl
  · have hown : s.calls c = .unlocking := hk.busyOwned _ hlock
    obtain rfl := caller_eq_zero ho hown nofun
    exact absurd hown hc
  · exact .inr ⟨h, hk.busyOwned _ hlock⟩

/-- While the call waits, the handler it waits for is the only one that is not done. -/
theorem eq_of_waiting {s : ServiceImpl} (hl : Linked s) (ho : Handover s) (hc : s.calls 0 = .waiting)
    {h i : HandlerId} (hf : s.future = some h) {hd : Handler} (hi : s.handlers i = some hd)
    (hfin : hd.pc ≠ .finished) : i = h := by
  rcases hl.reachable i hd hi hfin with hfuture | hassign
  · rw [hf] at hfuture
    exact (Option.some.inj hfuture).symm
  · rw [origin_eq_zero hl ho hi, hc] at hassign
    cases hassign

theorem acceptedLock_free_of_waiting {s : ServiceImpl} (hl : Linked s) (hk : Locks s) (ho : Handover s)
    (hc : s.calls 0 = .waiting) {h : HandlerId} {o : CallId} (hf : s.future = some h)
    (hh : s.handlers h = some ⟨o, .starting⟩) : s.acceptedLock = none := by
  rcases acceptedLock_cases hk ho (by rw [hc]; rfl) with hfree | ⟨i, hd, hi, hpc⟩
  · exact hfree
  · obtain rfl := eq_of_waiting hl ho hc hf hi (by rintro hfin; simp [hfin, HandlerPc.holdsAccepted] at hpc)
    rw [hh] at hi
    cases hi
    cases hpc

theorem busyLock_free_of_waiting {s : ServiceImpl} (hl : Linked s) (hk : Locks s) (ho : Handover s)
    (hc : s.calls 0 = .waiting) {h : HandlerId} {o : CallId} (hf : s.future = some h)
    (hh : s.handlers h = some ⟨o, .locking⟩) : s.busyLock = none := by
  rcases busyLock_cases hk ho (by simp [hc]) with hfree | ⟨i, hd, hi, hpc⟩
  · exact hfree
  · obtain rfl := eq_of_waiting hl ho hc hf hi (by rintro hfin; simp [hfin, HandlerPc.holdsBusy] at hpc)
    rw [hh] at hi
    cases hi
    cases hpc

theorem advances_of_waiting {s : Session} (hs : Orderly s) (hc : s.service.calls 0 = .waiting) :
    Advances s := by
  obtain ⟨h, ⟨o, pc⟩, hf, hh, hsig⟩ := hs.handover.pending (.inr hc)
  have hstep := advances_of_handlerStep hs hh
  cases pc with
  | starting =>
    have hfree := acceptedLock_free_of_waiting hs.linked hs.locks hs.handover hc hf hh
    exact hstep .lockAccepted (by simp [handlerStep, hfree])
  | locking =>
    have hfree := busyLock_free_of_waiting hs.linked hs.locks hs.handover hc hf hh
    exact hstep .lockBusy (by simp [handlerStep, hfree])
  | notifying =>
    have hmem := hs.handover.waits hc
    exact hstep (.notifyOne (some 0)) (by simp [handlerStep, hmem])
  | _ => cases hsig

theorem pending_future {s : ServiceImpl} (ho : Handover s) (hready : s.futureReady = false) :
    ∃ h hd, s.future = some h ∧ s.handlers h = some hd ∧ hd.pc ≠ .finished := by
  have hnot : ¬ ∀ h, s.future = some h → ∃ o, s.handlers h = some ⟨o, .finished⟩ := by
    rw [← futureReady_iff, hready]
    exact Bool.false_ne_true
  simp only [not_forall, not_exists] at hnot
  obtain ⟨h, hf, hfin⟩ := hnot
  obtain ⟨⟨o, pc⟩, hh⟩ := Option.ne_none_iff_exists'.mp (ho.future h hf)
  refine ⟨h, ⟨o, pc⟩, hf, hh, ?_⟩
  rintro rfl
  exact hfin o hh

/-- Past the check of `busy_lock_`, no handler holds a lock that the call is going to need. -/
theorem acceptedLock_free_of_accepting {s : ServiceImpl} (hk : Locks s) (ho : Handover s)
    (hc : s.calls 0 = .accepting) : s.acceptedLock = none := by
  rcases acceptedLock_cases hk ho (by rw [hc]; rfl) with hfree | ⟨i, ⟨o, pc⟩, hi, hpc⟩
  · exact hfree
  · have hrel := ho.released (by rw [hc]; rfl) i _ hi (by simp [hc])
    cases pc <;> simp [HandlerPc.holdsAccepted, HandlerPc.released] at hpc hrel

theorem signalled_of {s : ServiceImpl} (ho : Handover s) {h : HandlerId} {hd : Handler}
    (hh : s.handlers h = some hd)
    (hassign : s.calls 0 ≠ .assigning h) (henter : s.calls 0 ≠ .entering) (hwait : s.calls 0 ≠ .waiting) :
    hd.pc.signalled = true := by
  by_contra hsig
  rcases ho.unsignalled h hd hh (by simpa using hsig) with h' | ⟨h' | h', -⟩
  · exact hassign h'
  · exact henter h'
  · exact hwait h'

theorem advances_of_waking {s : Session} (hs : Orderly s) (hc : s.service.calls 0 = .waking) :
    Advances s := by
  rcases acceptedLock_cases hs.locks hs.handover (by rw [hc]; rfl) with hfree | ⟨i, hd, hi, hpc⟩
  · refine advances_of_step hs (a := .call 0 .relockAccepted) rfl ?_ (.inl rfl)
    simp [step, callStep, hc, hfree]
  · have hsig := signalled_of hs.handover hi (by simp [hc]) (by simp [hc]) (by simp [hc])
    exact advances_of_signalled hs hi hsig (by rintro hfin; simp [hfin, HandlerPc.holdsAccepted] at hpc)

theorem advances_of_orderly {s : Session} (hs : Orderly s) (hdone : ∀ ok d, s.service.calls 0 ≠ .done ok d) :
    Advances s := by
  have hstep : ∀ a, (s.messages (.call 0 a)).isSome = true →
    (callStep s.service 0 (s.service.calls 0) a).isSome = true →
      (SessionStep.service (.call 0 a)).regular → Advances s := fun a hm hu hr => advances_of_step hs hm hu hr
  cases hc : s.service.calls 0 with
  | idle => exact hstep .openStream rfl (by rw [hc]; rfl) (.inl rfl)
  | reading =>
    cases hunread : s.unread with
    | nil => exact hstep (.read none) (by simp [Session.messages, hunread]) (by rw [hc]; rfl) (.inl rfl)
    | cons m rest =>
      refine hstep (.read (some m)) (by simp [Session.messages, hunread]) (by rw [hc]; cases m <;> rfl) ?_
      cases m with
      | noCommand => exact .inr rfl
      | _ => exact .inl rfl
  | checking =>
    refine hstep .tryLock rfl ?_ (.inl rfl)
    rw [hc]
    simp only [callStep]
    split <;> rfl
  | unlocking => exact hstep .unlock rfl (by rw [hc]; rfl) (.inl rfl)
  | accepting =>
    have hfree := acceptedLock_free_of_accepting hs.locks hs.handover hc
    exact hstep .lockAccepted rfl (by simp [callStep, hc, hfree]) (.inl rfl)
  | launching => exact hstep .launch rfl (by rw [hc]; rfl) (.inl rfl)
  | assigning h =>
    cases hready : s.service.futureReady with
    | true => exact hstep .assign rfl (by simp [callStep, hc, hready]) (.inl rfl)
    | false =>
      obtain ⟨i, ⟨o, pc⟩, hf, hi, hfin⟩ := pending_future hs.handover hready
      have hne : s.service.calls 0 ≠ .assigning i := fun hi => (hs.handover.assigning i hi).2 hf
      have hrel := hs.handover.released (by rw [hc]; rfl) i _ hi hne
      refine advances_of_signalled hs hi ?_ hfin
      cases pc <;> first | rfl | cases hrel
  | entering => exact hstep .wait rfl (by rw [hc]; rfl) (.inl rfl)
  | waiting => exact advances_of_waiting hs hc
  | waking => exact advances_of_waking hs hc
  | leaving => exact hstep .unlockAccepted rfl (by rw [hc]; rfl) (.inl rfl)
  | finishing ok d =>
    cases hready : s.service.futureReady with
    | true => exact hstep .futureWait rfl (by simp [callStep, hc, hready]) (.inl rfl)
    | false =>
      obtain ⟨i, hd, hf, hi, hfin⟩ := pending_future hs.handover hready
      exact advances_of_signalled hs hi
        (signalled_of hs.handover hi (by simp [hc]) (by simp [hc]) (by simp [hc])) hfin
  | clearing ok d => exact hstep .clearStream rfl (by rw [hc]; rfl) (.inl rfl)
  | done ok d => exact absurd hc (hdone ok d)
  | panicked => exact absurd hc hs.unpanicked

/-! ## The discipline -/

/-- The requests that were accepted are those that were not declined. Their handlers are
numbered, and each of them wrote one response to the client's stream. -/
structure Answered (s : Session) : Prop where
  accepted : s.service.launched + s.service.declined.length = s.read.count .startRequest
  responses : (s.service.written.map (·.handler)).Perm (List.range s.service.launched)
  target : ∀ w ∈ s.service.written, w.target = some 0

/-- What a client can rely on in any state of its call. -/
structure Disciplined (s : Session) : Prop where
  alive : s.aborted = false
  advances : (∀ ok d, s.service.calls 0 ≠ .done ok d) → Advances s
  answered : ∀ ok d, s.service.calls 0 = .done ok d → Answered s
  status : ∀ ok d, s.service.calls 0 = .done ok d →
    (ok = false ↔ (∃ m ∈ s.read, m ≠ .startRequest) ∨ s.service.declined ≠ [])

theorem answered_of_done {s : Session} (hs : Orderly s) {ok : Bool} {d : String}
    (hc : s.service.calls 0 = .done ok d) : Answered s where
  accepted := by
    have hcounted := hs.books.counted
    simpa [hc, CallPc.isStarting] using hcounted
  responses := by
    rw [List.perm_ext_iff_of_nodup hs.answers.logged.once List.nodup_range]
    intro h
    rw [List.mem_map, List.mem_range]
    constructor
    · rintro ⟨w, hw, rfl⟩
      obtain ⟨hd, hh, -⟩ := hs.answers.logged.settled w hw
      by_contra hge
      simp [hs.linked.fresh _ (Nat.le_of_not_lt hge)] at hh
    · intro hlt
      obtain ⟨hd, hh⟩ := Option.ne_none_iff_exists'.mp (hs.answers.known h hlt)
      have hfin := hs.answers.ended ok d hc h hd hh
      exact hs.answers.wrote h hd hh (by rw [hfin]; rfl)
  target := hs.answers.aimed

theorem disciplined_of_orderly {s : Session} (hs : Orderly s) : Disciplined s where
  alive := hs.alive
  advances := advances_of_orderly hs
  answered := fun _ _ hc => answered_of_done hs hc
  status := by
    intro ok d hc
    have hiff := hs.books.decided ok (by rw [hc]; rfl)
    rw [← Bool.not_eq_true, hiff, Faultless, not_and_or]
    simp only [not_forall, exists_prop, ne_eq]

/-- The hazards of the run's steps are all in `P`. -/
def Hazards (P : Hazard → Prop) (_ : Session) (e : SessionStep) : Prop := ∀ hz, e.hazard = some hz → P hz

def readAndLaunch : List Step :=
  [.call 0 (.read (some .startRequest)), .call 0 .tryLock, .call 0 .unlock, .call 0 .lockAccepted,
    .call 0 .launch]

/-- The call reads on while its first handler has not started. It then waits for that handler
with the lock that the handler needs. -/
def crossedRun : List Step :=
  .call 0 .openStream :: readAndLaunch ++
    [.call 0 .assign, .call 0 .wait, .call 0 .wakeSpuriously, .call 0 .relockAccepted,
      .call 0 .unlockAccepted] ++
    readAndLaunch

/-- Messages, and a run that meets this hazard. -/
def hazardRun : Hazard → List ExecutionRequest × List SessionStep
  | .noCommand =>
    ([.noCommand], [.call 0 .openStream, .call 0 (.read (some .noCommand))].map .service)
  | .spuriousWake => ([.startRequest, .startRequest], crossedRun.map .service)
  | .uncaught =>
    ([.startRequest],
      (.call 0 .openStream :: accepted 0 0).map .service ++ [.uncaught 0] ++
        [.handler 0 .return, .call 0 (.read none), .call 0 .futureWait, .call 0 .clearStream].map .service)
  | .unwound =>
    ([.startRequest], (.call 0 .openStream :: accepted 0 0).map .service ++ [.unwound 0])
  | .asserted =>
    ([.startRequest], (.call 0 .openStream :: accepted 0 0).map .service ++ [.asserted 0])
  | .hung =>
    ([.startRequest],
      (.call 0 .openStream :: accepted 0 0).map .service ++ [.hung 0, .service (.call 0 (.read none))])

theorem not_advances {s : Session} (hcall : ∀ a, callStep s.service 0 (s.service.calls 0) a = none)
    (hsingle : ∀ c, c ≠ 0 → s.service.calls c = .idle)
    (hhandlers : ∀ i hd a, s.service.handlers i = some hd →
      i ∈ s.hung ∨ handlerStep s.service i hd.origin hd.pc a = none) : ¬ Advances s := by
  rintro ⟨e, hregular, he⟩
  cases e with
  | service a =>
    suffices hnone : s.isHung a = true ∨ s.messages a = none ∨ step s.service a = none by
      rcases hnone with h | h | h <;> simp [sessionStep, h] at he
    cases a with
    | call c a =>
      by_cases h0 : c = 0
      · subst h0
        exact .inr (.inr (hcall a))
      · cases a with
        | openStream => exact .inr (.inl (if_neg h0))
        | _ => exact .inr (.inr (by simp [step, hsingle c h0, callStep]))
    | handler i a =>
      rcases hi : s.service.handlers i with _ | hd
      · exact .inr (.inr (by simp [step, hi]))
      · rcases hhandlers i hd a hi with hhung | hnone
        · exact .inl (by simpa [Session.isHung] using hhung)
        · exact .inr (.inr (by simpa [step, hi] using hnone))
  | uncaught i | unwound i | asserted i | hung i =>
    rcases hregular with hz | hz <;> cases hz

theorem hazardRun_undisciplined (hz : Hazard) :
    ∃ s, Runs.exec sessionStep (.init (hazardRun hz).1) (hazardRun hz).2 = some s ∧ ¬ Disciplined s := by
  cases hz with
  | noCommand | unwound | asserted =>
    refine ⟨_, rfl, fun h => ?_⟩
    exact absurd h.alive (by decide)
  | uncaught =>
    refine ⟨_, rfl, fun h => ?_⟩
    have hperm := (h.answered true "" rfl).responses
    exact absurd hperm.length_eq (by decide)
  | spuriousWake =>
    refine ⟨_, rfl, fun h => ?_⟩
    refine not_advances ?_ ?_ ?_ (h.advances fun _ _ hc => by cases hc)
    · -- The assignment waits for the first handler.
      intro a
      cases a <;> rfl
    · rintro (_ | c) h0
      · exact absurd rfl h0
      · rfl
    · -- Both handlers wait for `accepted_lock_`, which the call holds.
      rintro (_ | _ | i) hd a hi
      · cases hi
        cases a <;> exact .inr rfl
      · cases hi
        cases a <;> exact .inr rfl
      · cases hi
  | hung =>
    refine ⟨_, rfl, fun h => ?_⟩
    refine not_advances ?_ ?_ ?_ (h.advances fun _ _ hc => by cases hc)
    · -- `finishGrpcStream` waits for the handler.
      intro a
      cases a <;> rfl
    · rintro (_ | c) h0
      · exact absurd rfl h0
      · rfl
    · rintro (_ | i) hd a hi
      · exact .inl List.mem_cons_self
      · cases hi

theorem hazardRun_hazards (hz : Hazard) (e : SessionStep) (he : e ∈ (hazardRun hz).2) (hz' : Hazard)
    (h : e.hazard = some hz') : hz' = hz := by
  have hall : ∀ e ∈ (hazardRun hz).2, e.hazard = none ∨ e.hazard = some hz := by
    cases hz <;> decide
  rcases hall e he with hnone | hsome
  · rw [hnone] at h
    cases h
  · rw [hsome] at h
    exact (Option.some.inj h).symm

/-- Whatever the client sends, its call keeps the discipline and ends after a bounded number of
steps exactly when the run has no hazard. -/
theorem disciplined_iff (P : Hazard → Prop) :
    (∀ messages es s, Runs.exec sessionStep (.init messages) es = some s →
      Runs.AllSteps sessionStep (Hazards P) (.init messages) es →
      es.length ≤ 18 * messages.length + 4 ∧ Disciplined s) ↔ ∀ hz, ¬ P hz := by
  constructor
  · intro hall hz hP
    obtain ⟨s, hs, hnot⟩ := hazardRun_undisciplined hz
    refine hnot (hall _ _ s hs ?_).2
    apply Runs.allSteps_of_forall
    intro e he _ hz' h
    rw [hazardRun_hazards hz e he hz' h]
    exact hP
  · intro hnone messages es s hs hall
    have hfree : ∀ {s e}, Hazards P s e → e.hazard = none := by
      intro s e h
      cases he : e.hazard with
      | none => rfl
      | some hz => exact absurd (h hz he) (hnone hz)
    have hinit := orderly_init messages
    constructor
    · have hle := Runs.exec_length_le Session.work
        (fun s e t ho hz h => ⟨orderly_step ho (hfree hz) h, work_step ho (hfree hz) h⟩) hinit hall hs
      have hwork : (Session.init messages).work = 18 * messages.length + 4 := rfl
      omega
    · exact disciplined_of_orderly
        (Runs.exec_inv_of_allSteps (fun s e t ho hz h => orderly_step ho (hfree hz) h) hinit hall hs)

/-- A message without a command, an exception of a running process and a release assertion of a
benchmark abort the service. Another exception ends the call with its request unanswered and the
status OK. After a wake-up without a signal, the call waits for a handler that waits for the call's
lock. A benchmark that never returns keeps the call for ever. -/
theorem stream_breaks_off :
    (∃ s, Runs.exec sessionStep (.init [.noCommand]) (hazardRun .noCommand).2 = some s ∧
      s.aborted = true ∧ ¬ Disciplined s) ∧
    (∃ s, Runs.exec sessionStep (.init [.startRequest]) (hazardRun .unwound).2 = some s ∧
      s.aborted = true ∧ ¬ Disciplined s) ∧
    (∃ s, Runs.exec sessionStep (.init [.startRequest]) (hazardRun .asserted).2 = some s ∧
      s.aborted = true ∧ ¬ Disciplined s) ∧
    (∃ s, Runs.exec sessionStep (.init [.startRequest]) (hazardRun .uncaught).2 = some s ∧
      s.service.calls 0 = .done true "" ∧ s.service.launched = 1 ∧ s.service.written = [] ∧ ¬ Disciplined s) ∧
    (∃ s, Runs.exec sessionStep (.init [.startRequest, .startRequest]) (hazardRun .spuriousWake).2 = some s ∧
      s.service.calls 0 = .assigning 1 ∧ s.service.acceptedLock = some (.call 0) ∧
      s.service.handlers 0 = some ⟨0, .starting⟩ ∧ ¬ Disciplined s) ∧
    ∃ s, Runs.exec sessionStep (.init [.startRequest]) (hazardRun .hung).2 = some s ∧
      s.service.calls 0 = .finishing true "" ∧ s.service.handlers 0 = some ⟨0, .running⟩ ∧
        ¬ Disciplined s := by
  obtain ⟨s₁, h₁, hn₁⟩ := hazardRun_undisciplined .noCommand
  obtain ⟨s₂, h₂, hn₂⟩ := hazardRun_undisciplined .unwound
  obtain ⟨s₃, h₃, hn₃⟩ := hazardRun_undisciplined .asserted
  obtain ⟨s₄, h₄, hn₄⟩ := hazardRun_undisciplined .uncaught
  obtain ⟨s₅, h₅, hn₅⟩ := hazardRun_undisciplined .spuriousWake
  obtain ⟨s₆, h₆, hn₆⟩ := hazardRun_undisciplined .hung
  refine ⟨⟨s₁, h₁, ?_, hn₁⟩, ⟨s₂, h₂, ?_, hn₂⟩, ⟨s₃, h₃, ?_, hn₃⟩, ⟨s₄, h₄, ?_, ?_, ?_, hn₄⟩,
    ⟨s₅, h₅, ?_, ?_, ?_, hn₅⟩, ⟨s₆, h₆, ?_, ?_, hn₆⟩⟩
  · cases h₁; rfl
  · cases h₂; rfl
  · cases h₃; rfl
  · cases h₄; rfl
  · cases h₄; rfl
  · cases h₄; rfl
  · cases h₅; rfl
  · cases h₅; rfl
  · cases h₅; rfl
  · cases h₆; rfl
  · cases h₆; rfl

end Nighthawk.Service

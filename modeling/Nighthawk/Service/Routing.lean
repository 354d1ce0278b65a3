import Nighthawk.Lib.Runs
import Nighthawk.Service.Code

/-!
# Which stream a response goes to

A response belongs on the stream of the call that read its start request, but `writeResponse`
writes to whatever `stream_` points to by then. Opening a call redirects `stream_` and ending one
clears it, while the handler of another call may still owe its response.
-/

namespace Nighthawk.Service

def HandlerPc.owes : HandlerPc → Bool
  | .returning _ | .finished => false
  | _ => true

/-- Handler `h`, launched for call `c`, still owes its response. -/
def Owes (s : ServiceImpl) (h : HandlerId) (c : CallId) : Prop :=
  ∃ pc, s.handlers h = some ⟨c, pc⟩ ∧ pc.owes = true

/-- Every response went to the call that its start request was read from. -/
def Routed (s : ServiceImpl) : Prop := ∀ w ∈ s.written, w.target = some w.origin

/-- The step does not take `stream_` away from a response that is still owed. -/
def Undisturbed (s : ServiceImpl) : Step → Prop
  | .call _ .openStream => ∀ h c, ¬ Owes s h c
  | .call c .clearStream => ∀ h c', Owes s h c' → c' = c
  | .call c .launch => s.stream = some c
  | _ => True

/-! ## Handlers and their calls -/

/-- How the handlers hang together with the calls that launched them and with `future_`. -/
structure Linked (s : ServiceImpl) : Prop where
  fresh : ∀ h, s.launched ≤ h → s.handlers h = none
  opened : ∀ h hd, s.handlers h = some hd → s.calls hd.origin ≠ .idle
  /-- A handler that still runs is the one in `future_`, or is about to be. -/
  reachable : ∀ h hd, s.handlers h = some hd → hd.pc ≠ .finished →
    s.future = some h ∨ s.calls hd.origin = .assigning h
  /-- `finishGrpcStream` has waited for every handler of its own call. -/
  cleared : ∀ c ok d, s.calls c = .clearing ok d →
    ∀ h hd, s.handlers h = some hd → hd.origin = c → hd.pc = .finished
  waits : ∀ c ∈ s.waiters, s.calls c = .waiting

theorem futureReady_iff (s : ServiceImpl) :
    s.futureReady = true ↔ ∀ h, s.future = some h → ∃ o, s.handlers h = some ⟨o, .finished⟩ := by
  unfold ServiceImpl.futureReady
  cases s.future with
  | none => simp
  | some h =>
    rcases hh : s.handlers h with _ | ⟨o, pc⟩ <;> simp [hh]

theorem linked_init : Linked {} := by
  constructor <;> simp

section

variable {s t : ServiceImpl} {a : Step}

theorem reachable_step (hs : Linked s) (ht : Trans s a t) (h : HandlerId) (hd : Handler)
    (hh : t.handlers h = some hd) (hpc : hd.pc ≠ .finished) :
    t.future = some h ∨ t.calls hd.origin = .assigning h := by
  cases ht with
  | launch c hc =>
    -- The call was not at the assignment of another handler.
    have := hs.reachable h hd
    simp only [ServiceImpl.setCall, ServiceImpl.setHandler, Function.update_apply] at *
    grind
  | assign c i hc hf =>
    -- The future that is dropped belonged to a handler that is done.
    rw [futureReady_iff] at hf
    have := hs.reachable h hd hh hpc
    simp only [ServiceImpl.setCall, Function.update_apply] at *
    grind
  | hNotify i o c hi hw =>
    have := hs.waits c hw
    have := hs.reachable h
    simp only [ServiceImpl.setCall, ServiceImpl.setHandler, Function.update_apply] at *
    grind
  | _ =>
    have := hs.reachable h
    simp only [ServiceImpl.setCall, ServiceImpl.setHandler, Function.update_apply] at *
    grind

theorem cleared_step (hs : Linked s) (ht : Trans s a t) (c : CallId) (ok : Bool) (d : String)
    (hc : t.calls c = .clearing ok d) (h : HandlerId) (hd : Handler) (hh : t.handlers h = some hd)
    (ho : hd.origin = c) : hd.pc = .finished := by
  cases ht with
  | futureWait c' ok' d' hc' hf =>
    -- An unfinished handler of this call would be the one in `future_`, which is ready.
    rw [futureReady_iff] at hf
    have := hs.reachable h hd hh
    have := hs.cleared c ok d
    simp only [ServiceImpl.setCall, Function.update_apply] at *
    grind
  | hNotify i o c' hi hw =>
    have := hs.waits c' hw
    have := hs.cleared c ok d
    simp only [ServiceImpl.setCall, ServiceImpl.setHandler, Function.update_apply] at *
    grind
  | _ =>
    have := hs.cleared c ok d
    simp only [ServiceImpl.setCall, ServiceImpl.setHandler, Function.update_apply] at *
    grind

theorem linked_step (hs : Linked s) (ht : Trans s a t) : Linked t where
  fresh := by
    have := hs.fresh
    cases ht <;> simp only [ServiceImpl.setCall, ServiceImpl.setHandler, Function.update_apply] at * <;> grind
  opened := by
    have := hs.opened
    have := hs.waits
    cases ht <;> simp only [ServiceImpl.setCall, ServiceImpl.setHandler, Function.update_apply] at * <;> grind
  reachable := reachable_step hs ht
  cleared := cleared_step hs ht
  waits := by
    have := hs.waits
    cases ht <;> simp only [ServiceImpl.setCall, ServiceImpl.setHandler, Function.update_apply] at * <;> grind

end

theorem exec_linked {as : List Step} {s : ServiceImpl} (h : Runs.exec step {} as = some s) : Linked s :=
  Runs.exec_inv (fun _ _ _ hs hst => linked_step hs (step_trans hst)) linked_init h

/-! ## Runs that keep `stream_` in place -/

/-- Every response still owed would now go to the right call. -/
structure OnTrack (s : ServiceImpl) : Prop where
  linked : Linked s
  aimed : ∀ h c, Owes s h c → s.stream = some c
  routed : Routed s

theorem not_owes_of_clearing {s : ServiceImpl} (hs : Linked s) {c : CallId} {ok : Bool} {d : String}
    (hc : s.calls c = .clearing ok d) (h : HandlerId) : ¬ Owes s h c := by
  rintro ⟨pc, hh, hpc⟩
  have hfin := hs.cleared c ok d hc h _ hh rfl
  simp only at hfin
  subst hfin
  cases hpc

theorem owes_step {s t : ServiceImpl} {a : Step} (ht : Trans s a t) {h : HandlerId} {c : CallId}
    (ho : Owes t h c) : Owes s h c ∨ (a = .call c .launch ∧ h = s.launched) := by
  obtain ⟨pc, hh, hpc⟩ := ho
  unfold Owes
  cases ht <;> simp only [ServiceImpl.setCall, ServiceImpl.setHandler, Function.update_apply] at * <;>
    grind [HandlerPc.owes]

theorem onTrack_step (s : ServiceImpl) (a : Step) (t : ServiceImpl) (hs : OnTrack s) (hok : Undisturbed s a)
    (h : step s a = some t) : OnTrack t := by
  have ht := step_trans h
  refine ⟨linked_step hs.linked ht, fun i c ho => ?_, ?_⟩
  · rcases owes_step ht ho with hold | ⟨rfl, -⟩
    · have haim := hs.aimed i c hold
      cases ht with
      | openStream c' hc => exact absurd hold (hok i c)
      | clearStream c' ok d hc =>
        obtain rfl := hok i c hold
        exact absurd hold (not_owes_of_clearing hs.linked hc i)
      | _ => exact haim
    · cases ht with
      | launch _ hc => exact hok
  · cases ht with
    | hWrite i o r l hh =>
      intro w hw
      rcases List.mem_append.mp hw with hw | hw
      · exact hs.routed w hw
      · rw [List.mem_singleton.mp hw]
        exact hs.aimed i o ⟨_, hh, rfl⟩
    | _ => exact hs.routed

/-! ## Runs that move it -/

/-- A response has gone astray, or one that is owed will: a call is opened only once, so `stream_`
never comes back to it. -/
def Astray (s : ServiceImpl) : Prop :=
  (∃ w ∈ s.written, w.target ≠ some w.origin) ∨
    ∃ h c, Owes s h c ∧ s.stream ≠ some c ∧ s.calls c ≠ .idle

/-- A response that is owed stays owed until it is written to where `stream_` points. -/
theorem owes_or_written {s t : ServiceImpl} {a : Step} (hs : Linked s) (ht : Trans s a t) {h : HandlerId}
    {c : CallId} (ho : Owes s h c) :
    Owes t h c ∨ ∃ r, t.written = s.written ++ [⟨h, c, s.stream, r⟩] := by
  obtain ⟨pc, hh, hpc⟩ := ho
  have := hs.fresh h
  unfold Owes
  cases ht with
  | hWrite i o r l hi =>
    by_cases hih : h = i
    · subst hih
      obtain ⟨rfl, -⟩ : o = c ∧ HandlerPc.writing r l = pc := by simpa [hi] using hh
      exact .inr ⟨r, rfl⟩
    · exact .inl ⟨pc, by simpa [ServiceImpl.setHandler, hih] using hh, hpc⟩
  | _ =>
    simp only [ServiceImpl.setCall, ServiceImpl.setHandler, Function.update_apply] at *
    grind [HandlerPc.owes]

theorem written_mono {s t : ServiceImpl} {a : Step} (ht : Trans s a t) {w : Write} (hw : w ∈ s.written) :
    w ∈ t.written := by
  cases ht <;> first | exact hw | exact List.mem_append_left _ hw

theorem not_idle_step {s t : ServiceImpl} {a : Step} (ht : Trans s a t) {c : CallId}
    (hc : s.calls c ≠ .idle) : t.calls c ≠ .idle := by
  cases ht <;> simp only [ServiceImpl.setCall, ServiceImpl.setHandler, Function.update_apply] at * <;> grind

theorem stream_step {s t : ServiceImpl} {a : Step} (ht : Trans s a t) {c : CallId}
    (hc : s.calls c ≠ .idle) (hst : s.stream ≠ some c) : t.stream ≠ some c := by
  cases ht with
  | openStream c' hc' => rintro ⟨⟩; exact hc hc'
  | clearStream => simp
  | _ => exact hst

theorem astray_step {s t : ServiceImpl} {a : Step} (hs : Linked s) (ht : Trans s a t) (hb : Astray s) :
    Astray t := by
  rcases hb with ⟨w, hw, hne⟩ | ⟨h, c, ho, hst, hc⟩
  · exact .inl ⟨w, written_mono ht hw, hne⟩
  · rcases owes_or_written hs ht ho with ho' | ⟨r, hr⟩
    · exact .inr ⟨h, c, ho', stream_step ht hc hst, not_idle_step ht hc⟩
    · exact .inl ⟨⟨h, c, s.stream, r⟩, by simp [hr], hst⟩

theorem astray_of_disturbed {s t : ServiceImpl} {a : Step} (hs : Linked s) (ht : Trans s a t)
    (hok : ¬ Undisturbed s a) : Astray t := by
  have opened : ∀ {h c}, Owes s h c → s.calls c ≠ .idle := fun ⟨_, hh, _⟩ => hs.opened _ _ hh
  cases ht with
  | openStream c hc =>
    simp only [Undisturbed, not_forall, not_not] at hok
    obtain ⟨h, c', ho⟩ := hok
    have hne : c' ≠ c := by rintro rfl; exact opened ho hc
    refine .inr ⟨h, c', ho, ?_, ?_⟩
    · rintro ⟨⟩; exact hne rfl
    · simpa [ServiceImpl.setCall, hne] using opened ho
  | clearStream c ok d hc =>
    simp only [Undisturbed, not_forall] at hok
    obtain ⟨h, c', ho, hne⟩ := hok
    exact .inr ⟨h, c', ho, by simp, by simpa [ServiceImpl.setCall, hne] using opened ho⟩
  | launch c hc =>
    refine .inr ⟨s.launched, c, ⟨.starting, ?_, rfl⟩, hok, ?_⟩
    · simp [ServiceImpl.setHandler]
    · simp [ServiceImpl.setCall, ServiceImpl.setHandler]
  | _ => exact absurd trivial hok

theorem exec_astray {as : List Step} {s t : ServiceImpl} (hs : Linked s)
    (h : Runs.exec step s as = some t) : Astray s ∨ ¬ Runs.AllSteps step Undisturbed s as → Astray t := by
  induction as generalizing s with
  | nil =>
    cases h
    rintro (hb | hn)
    · exact hb
    · exact absurd trivial hn
  | cons a as ih =>
    obtain ⟨u, hu, ht⟩ := (Runs.exec_cons_eq_some step).mp h
    have hsu := step_trans hu
    intro hb
    apply ih (linked_step hs hsu) ht
    by_cases hok : Undisturbed s a
    · rcases hb with hb | hn
      · exact .inl (astray_step hs hsu hb)
      · refine .inr fun hall => hn ⟨hok, fun v hv => ?_⟩
        rw [hu] at hv
        cases hv
        exact hall
    · exact .inl (astray_of_disturbed hs hsu hok)

/-- Responses reach their own call in every run whose steps leave `stream_` to them, and, once no
response is owed, in no other run. -/
theorem routed_iff_undisturbed {as : List Step} {s : ServiceImpl} (h : Runs.exec step {} as = some s) :
    (Runs.AllSteps step Undisturbed {} as → Routed s) ∧
      ((∀ i c, ¬ Owes s i c) → Routed s → Runs.AllSteps step Undisturbed {} as) := by
  constructor
  · intro hall
    have hinit : OnTrack {} := ⟨linked_init, by rintro i c ⟨pc, hh, -⟩; simp at hh, by simp [Routed]⟩
    exact (Runs.exec_inv_of_allSteps onTrack_step hinit hall h).routed
  · intro howes hr
    by_contra hn
    rcases exec_astray linked_init h (.inr hn) with ⟨w, hw, hne⟩ | ⟨i, c, ho, -⟩
    · exact hne (hr w hw)
    · exact howes i c ho

def accepted (c : CallId) (h : HandlerId) : List Step :=
  [.call c (.read (some .startRequest)), .call c .tryLock, .call c .unlock, .call c .lockAccepted,
    .call c .launch, .call c .assign, .call c .wait, .handler h .lockAccepted, .handler h .lockBusy,
    .handler h (.notifyOne (some c)), .handler h .unlockAccepted, .call c .relockAccepted,
    .call c .unlockAccepted]

def benchmarkRan (h : HandlerId) : List Step :=
  [.handler h (.finish (.ran true)), .handler h .releaseBusy, .handler h .writeResponse, .handler h .return]

def servedRun : List Step :=
  .call 0 .openStream :: accepted 0 0 ++ benchmarkRan 0 ++
    [.call 0 (.read none), .call 0 .futureWait, .call 0 .clearStream]

theorem routed_served_alone :
    ∃ s, Runs.exec step {} servedRun = some s ∧ Runs.AllSteps step Undisturbed {} servedRun ∧ Routed s := by
  obtain ⟨s, hs, hw, hl, hh⟩ : ∃ s, Runs.exec step {} servedRun = some s ∧
      s.written = [⟨0, 0, some 0, ⟨none, true⟩⟩] ∧ s.launched = 1 ∧ s.handlers 0 = some ⟨0, .finished⟩ :=
    ⟨_, rfl, rfl, rfl, rfl⟩
  have hr : Routed s := by simp [Routed, hw]
  have howes : ∀ i c, ¬ Owes s i c := by
    rintro i c ⟨pc, hi, hpc⟩
    rcases Nat.eq_zero_or_pos i with rfl | hpos
    · obtain ⟨-, rfl⟩ : 0 = c ∧ HandlerPc.finished = pc := by simpa [hh] using hi
      cases hpc
    · simp [(exec_linked hs).fresh i (by omega)] at hi
  have hall := (routed_iff_undisturbed hs).2 howes hr
  exact ⟨s, hs, hall, (routed_iff_undisturbed hs).1 hall⟩

/-- A second call is opened while the first one's benchmark runs. -/
def overlapRun : List Step :=
  .call 0 .openStream :: accepted 0 0 ++ [.call 1 .openStream] ++ benchmarkRan 0

/-- A second call is opened and closed before the first one's benchmark starts. -/
def closedRun : List Step :=
  [.call 0 .openStream, .call 1 .openStream, .call 1 (.read none), .call 1 .futureWait,
    .call 1 .clearStream] ++
    accepted 0 0 ++ benchmarkRan 0

/-- The first call's response goes to the second call, or to a null stream. -/
theorem response_leaves_its_call :
    (∃ s, Runs.exec step {} overlapRun = some s ∧ s.written = [⟨0, 0, some 1, ⟨none, true⟩⟩] ∧ ¬ Routed s) ∧
    (∃ s, Runs.exec step {} closedRun = some s ∧ s.written = [⟨0, 0, none, ⟨none, true⟩⟩] ∧ ¬ Routed s) := by
  refine ⟨⟨_, rfl, rfl, fun hr => ?_⟩, ⟨_, rfl, rfl, fun hr => ?_⟩⟩
  · cases hr ⟨0, 0, some 1, ⟨none, true⟩⟩ (List.mem_singleton.mpr rfl)
  · cases hr ⟨0, 0, none, ⟨none, true⟩⟩ (List.mem_singleton.mpr rfl)

end Nighthawk.Service

import Nighthawk.BenchmarkClient.InFlight
import Nighthawk.RateLimiter.Still
import Nighthawk.Sequencer.Conservation
import Nighthawk.Sequencer.Shutdown
import Nighthawk.Worker.Code

/-!
# The parts of a worker agree

Every stream that has not ended holds one callback, and the callbacks that the sequencer waits for
are those of its streams. So whatever the limiter and the client do, the sequencer can follow it.
-/

namespace Nighthawk.Worker

open BenchmarkClient (Request StreamEvent)
open Sequencer (SequencerImpl Balanced books)
open Sequencer.SequencerImpl (Attempt)

/-! ## Callbacks -/

def CompletionCallback.target : CompletionCallback → Option ℕ
  | .sequencer id => some id
  | .exitDispatcher => none

/-- The sequencer's callbacks among these. -/
def targets (callbacks : List (ℕ × CompletionCallback)) : List ℕ := callbacks.filterMap (·.2.target)

structure Matched (s : SequencerImpl) (w : ClientWorkerImpl) : Prop where
  streams : w.callbacks.map Prod.fst = w.benchmark.streams.map Prod.fst
  distinct : (w.callbacks.map Prod.fst).Nodup
  fresh : ∀ id ∈ w.callbacks.map Prod.fst, id < w.benchmark.started
  outstanding : s.outstanding.map Sequencer.Callback.id = (targets w.callbacks).reverse

variable {c : Config} {s t : SequencerImpl} {w w' : ClientWorkerImpl}

theorem Matched.congr (h : Matched s w) (houtstanding : t.outstanding = s.outstanding)
    (hcallbacks : w'.callbacks = w.callbacks)
    (hstreams : w'.benchmark.streams.map Prod.fst = w.benchmark.streams.map Prod.fst)
    (hstarted : w'.benchmark.started = w.benchmark.started) : Matched t w' where
  streams := by rw [hcallbacks, hstreams, h.streams]
  distinct := by rw [hcallbacks]; exact h.distinct
  fresh := by rw [hcallbacks, hstarted]; exact h.fresh
  outstanding := by rw [hcallbacks, houtstanding]; exact h.outstanding

/-! ## Stream events -/

theorem streamEvent_cases {id : ℕ} {e : StreamEvent} {r : Option CompletionCallback}
    (h : w.streamEvent c id e = some (w', r)) :
    ∃ b, BenchmarkClient.step c.client w.benchmark (.stream id e) = some b ∧ b.started = w.benchmark.started ∧
      ((r = none ∧ w' = { w with benchmark := b } ∧
        b.streams.map Prod.fst = w.benchmark.streams.map Prod.fst) ∨
      ∃ callback, r = some callback ∧ w.callbacks.lookup id = some callback ∧
        w' = { w with benchmark := b, callbacks := w.callbacks.filter (·.1 ≠ id) } ∧
        b.streams = w.benchmark.streams.filter (·.1 ≠ id)) := by
  unfold ClientWorkerImpl.streamEvent at h
  obtain ⟨b, hb, h⟩ := Option.bind_eq_some_iff.mp h
  obtain ⟨st, -, -, hcases⟩ := BenchmarkClient.step_stream hb
  refine ⟨b, hb, ?_⟩
  rcases hcases with ⟨client, d, -, rfl⟩ | ⟨client, complete, success, -, rfl⟩
  · simp only [if_true, Option.some.injEq, Prod.mk.injEq] at h
    exact ⟨rfl, Or.inl ⟨h.2.symm, h.1.symm, BenchmarkClient.map_fst_update _ _ _⟩⟩
  · rw [if_neg (by simp)] at h
    obtain ⟨callback, hlookup, heq⟩ := Option.map_eq_some_iff.mp h
    obtain ⟨rfl, rfl⟩ := Prod.mk.inj heq
    exact ⟨rfl, Or.inr ⟨callback, rfl, hlookup, rfl, rfl⟩⟩

theorem mem_of_ended {id : ℕ} {e : StreamEvent} {callback : CompletionCallback}
    (h : w.streamEvent c id e = some (w', some callback)) : (id, callback) ∈ w.callbacks := by
  obtain ⟨b, -, -, ⟨hr, -⟩ | ⟨_, hr, hlookup, -⟩⟩ := streamEvent_cases h
  · cases hr
  · cases hr
    obtain ⟨before, after, hsplit, -⟩ := List.lookup_eq_some_iff.mp hlookup
    rw [hsplit]
    exact List.mem_append_right _ List.mem_cons_self

theorem exists_complete {id : ℕ} (h : id ∈ s.outstanding.map Sequencer.Callback.id) (time : ℤ) :
    ∃ t, s.complete id time = some t := by
  obtain ⟨callback, hmem, rfl⟩ := List.mem_map.mp h
  unfold SequencerImpl.complete
  cases hfind : s.outstanding.find? (·.id = callback.id) with
  | none => simpa using List.find?_eq_none.mp hfind callback hmem
  | some found => exact ⟨_, rfl⟩

theorem Matched.ended (hm : Matched s w) {id : ℕ} {e : StreamEvent} {callback : CompletionCallback}
    (h : w.streamEvent c id e = some (w', some callback)) :
    ∃ before after, targets w.callbacks = before ++ callback.target.toList ++ after ∧
      targets w'.callbacks = before ++ after ∧
      w'.callbacks.map Prod.fst = w'.benchmark.streams.map Prod.fst ∧ (w'.callbacks.map Prod.fst).Nodup ∧
      ∀ id ∈ w'.callbacks.map Prod.fst, id < w'.benchmark.started := by
  obtain ⟨b, -, hstarted, hcases⟩ := streamEvent_cases h
  obtain ⟨hr, -⟩ | ⟨_, hr, hlookup, rfl, hstreams⟩ := hcases
  · cases hr
  cases hr
  obtain ⟨before, after, hsplit, hfilter⟩ := Keyed.lookup_split hm.distinct hlookup
  have hsub : ((w.callbacks.filter (·.1 ≠ id)).map Prod.fst).Sublist (w.callbacks.map Prod.fst) :=
    List.filter_sublist.map _
  refine ⟨targets before, targets after, ?_, ?_, ?_, hm.distinct.sublist hsub, fun i hi => ?_⟩
  · rw [hsplit]
    simp only [targets, List.filterMap_append, List.filterMap_cons, List.append_assoc]
    cases callback.target <;> rfl
  · simp only [hfilter, targets, List.filterMap_append]
  · -- Filtering by the key commutes with taking the keys.
    have hkeys := congrArg (List.filter (· ≠ id)) hm.streams
    simp only [List.filter_map] at hkeys
    simp only [hstreams]
    exact hkeys
  · simp only [hstarted]
    exact hm.fresh i (hsub.subset hi)

theorem Matched.complete (hm : Matched s w) (hd : (s.outstanding.map Sequencer.Callback.id).Nodup) {id k : ℕ}
    {e : StreamEvent} (h : w.streamEvent c id e = some (w', some (.sequencer k))) (time : ℤ) :
    ∃ t, s.complete k time = some t ∧ Matched t w' := by
  obtain ⟨before, after, hsplit, hrest, hstreams, hdistinct, hfresh⟩ := hm.ended h
  have houtstanding : s.outstanding.map Sequencer.Callback.id = after.reverse ++ k :: before.reverse := by
    rw [hm.outstanding, hsplit]
    simp [CompletionCallback.target]
  have hmem : k ∈ s.outstanding.map Sequencer.Callback.id := by
    rw [houtstanding]
    simp
  obtain ⟨t, ht⟩ := exists_complete hmem time
  refine ⟨t, ht, hstreams, hdistinct, hfresh, ?_⟩
  obtain ⟨_, -, -, hbooks⟩ := Sequencer.complete_books ht
  simp only [books, Prod.mk.injEq] at hbooks
  rw [houtstanding] at hd
  have hremoved := Keyed.filter_middle (fun n : ℕ => n) (by rwa [List.map_id'])
  rw [hbooks.2.2.2.2.1, hrest, List.reverse_append, ← hremoved, ← houtstanding, List.filter_map]
  rfl

theorem Matched.exit (hm : Matched s w) {id : ℕ} {e : StreamEvent}
    (h : w.streamEvent c id e = some (w', some .exitDispatcher)) : Matched s w' := by
  obtain ⟨before, after, hsplit, hrest, hstreams, hdistinct, hfresh⟩ := hm.ended h
  refine ⟨hstreams, hdistinct, hfresh, ?_⟩
  rw [hm.outstanding, hsplit, hrest]
  simp [CompletionCallback.target]

theorem Matched.ongoing (hm : Matched s w) {id : ℕ} {e : StreamEvent}
    (h : w.streamEvent c id e = some (w', none)) : Matched s w' := by
  obtain ⟨b, -, hstarted, ⟨-, rfl, hkeys⟩ | ⟨_, hr, -⟩⟩ := streamEvent_cases h
  · exact hm.congr rfl rfl hkeys hstarted
  · cases hr

theorem streamEvent_frame {id : ℕ} {e : StreamEvent} {r : Option CompletionCallback}
    (h : w.streamEvent c id e = some (w', r)) :
    w'.benchmark.started = w.benchmark.started ∧ w'.limiter = w.limiter ∧ w'.sequencer = w.sequencer ∧
      w'.stage = w.stage ∧ w'.gracefulStopRequested = w.gracefulStopRequested := by
  obtain ⟨b, -, hstarted, ⟨-, rfl, -⟩ | ⟨_, -, -, rfl, -⟩⟩ := streamEvent_cases h
  · exact ⟨hstarted, rfl, rfl, rfl, rfl⟩
  · exact ⟨hstarted, rfl, rfl, rfl, rfl⟩

/-! ## What a turn of the loop can do -/

theorem tryStartRequest_cases {callback : CompletionCallback} {pool : Bool}
    {request : Option Request} {now : ℤ}
    {started : Bool} (h : w.tryStartRequest c callback pool request now = some (w', started)) :
    (started = false ∧ w' = w) ∨
      (started = true ∧ ∃ b,
        BenchmarkClient.step c.client w.benchmark (.tryStartRequest pool request now) = some b ∧
        b.started = w.benchmark.started + 1 ∧
        b.streams.map Prod.fst = w.benchmark.started :: w.benchmark.streams.map Prod.fst ∧
        w' = { w with benchmark := b, callbacks := (w.benchmark.started, callback) :: w.callbacks }) := by
  unfold ClientWorkerImpl.tryStartRequest at h
  obtain ⟨b, hb, heq⟩ := Option.map_eq_some_iff.mp h
  obtain rfl | ⟨d, -, -, -, -, rfl⟩ := BenchmarkClient.step_tryStartRequest hb
  · rw [if_pos rfl] at heq
    obtain ⟨rfl, rfl⟩ := Prod.mk.inj heq
    exact Or.inl ⟨rfl, rfl⟩
  · rw [if_neg (by simp)] at heq
    obtain ⟨rfl, rfl⟩ := Prod.mk.inj heq
    exact Or.inr ⟨rfl, _, hb, rfl, rfl, rfl⟩

/-- The worker when the client has taken a request for the sequencer. -/
def taken (w : ClientWorkerImpl) (limiter : RateLimiter.Session) (b : BenchmarkClient.Benchmark) (calls : ℕ) :
    ClientWorkerImpl :=
  { w with limiter, benchmark := b, callbacks := (w.benchmark.started, .sequencer calls) :: w.callbacks }

open RateLimiter (Session)

/-- The limiter refuses, or the target accepts, or the target refuses and the acquisition goes back. -/
theorem turn_cases {calls : ℕ} {t : ClientWorkerImpl.Turn} {r : Option Attempt}
    (h : w.turn c calls t = some (w', r)) :
    ∃ limiter, Session.step w.limiter (.tryAcquireOne [] t.delay) = some limiter ∧
      ((limiter.mayRelease = false ∧ r = none ∧ w' = { w with limiter }) ∨
      (limiter.mayRelease = true ∧ ∃ b completions,
        BenchmarkClient.step c.client w.benchmark (.tryStartRequest t.pool t.request t.now) = some b ∧
        b.started = w.benchmark.started + 1 ∧
        b.streams.map Prod.fst = w.benchmark.started :: w.benchmark.streams.map Prod.fst ∧
        (taken w limiter b calls).inlineEvents c t.inline = some (w', completions) ∧
          r = some ⟨completions, true⟩) ∨
      (limiter.mayRelease = true ∧ ∃ limiter', limiter.step (.releaseOne []) = some limiter' ∧
        r = some ⟨[], false⟩ ∧ w' = { w with limiter := limiter' })) := by
  unfold ClientWorkerImpl.turn at h
  obtain ⟨limiter, hlimiter, h⟩ := Option.bind_eq_some_iff.mp h
  refine ⟨limiter, hlimiter, ?_⟩
  cases hmay : limiter.mayRelease with
  | false =>
    simp only [hmay, Bool.not_false, if_true, Option.some.injEq, Prod.mk.injEq] at h
    exact Or.inl ⟨rfl, h.2.symm, h.1.symm⟩
  | true =>
    simp only [hmay, Bool.not_true, Bool.false_eq_true, if_false] at h
    obtain ⟨⟨w₁, started⟩, hstart, h⟩ := Option.bind_eq_some_iff.mp h
    rcases tryStartRequest_cases hstart with ⟨rfl, rfl⟩ | ⟨rfl, b, hb, hstarted, hkeys, rfl⟩
    · obtain ⟨limiter', hrelease, heq⟩ := Option.map_eq_some_iff.mp h
      obtain ⟨rfl, rfl⟩ := Prod.mk.inj heq
      exact Or.inr (Or.inr ⟨rfl, limiter', hrelease, rfl, rfl⟩)
    · obtain ⟨⟨w₂, completions⟩, hinline, heq⟩ := Option.map_eq_some_iff.mp h
      obtain ⟨rfl, rfl⟩ := Prod.mk.inj heq
      exact Or.inr (Or.inl ⟨rfl, b, completions, hb, hstarted, hkeys, hinline, rfl⟩)

theorem inlineEvents_keeps {P : ClientWorkerImpl → Prop} {arrivals : List ClientWorkerImpl.Arrival}
    (hevent : ∀ a ∈ arrivals, ∀ w w' r, P w → w.streamEvent c a.id a.event = some (w', r) →
      P w' ∧ (r ≠ none → P (w'.updateApproximateMonotonicTime a.gap)))
    {completions : List (ℕ × ℤ)} (hw : P w)
    (h : w.inlineEvents c arrivals = some (w', completions)) : P w' := by
  induction arrivals generalizing w completions with
  | nil =>
    cases h
    exact hw
  | cons a rest ih =>
    have hlater := fun b hb => hevent b (List.mem_cons_of_mem a hb)
    unfold ClientWorkerImpl.inlineEvents at h
    split at h
    · cases h
    · rename_i w₁ hstream
      exact ih hlater (hevent a List.mem_cons_self _ _ _ hw hstream).1 h
    · rename_i w₁ id hstream
      obtain ⟨⟨w₂, completions'⟩, hrest, heq⟩ := Option.map_eq_some_iff.mp h
      obtain ⟨rfl, -⟩ := Prod.mk.inj heq
      exact ih hlater ((hevent a List.mem_cons_self _ _ _ hw hstream).2 (by simp)) hrest
    · cases h

/-- How many targets an attempt starts. -/
def accepted (a : Attempt) : ℕ := if a.accepts then 1 else 0

theorem loop_keeps {P : ℕ → ClientWorkerImpl → Prop} {turns : List ClientWorkerImpl.Turn}
    (hturn : ∀ t ∈ turns, ∀ n w calls w' r, P n w → w.turn c calls t = some (w', r) →
      P (n + r.elim 0 accepted) w')
    {n calls : ℕ} {attempts : List Attempt} (hw : P n w) (h : w.loop c calls turns = some (w', attempts)) :
    P (n + (attempts.map accepted).sum) w' := by
  induction turns generalizing w n calls attempts with
  | nil => cases h
  | cons t rest ih =>
    unfold ClientWorkerImpl.loop at h
    obtain ⟨⟨w₁, r⟩, hone, h⟩ := Option.bind_eq_some_iff.mp h
    have hw₁ := hturn t List.mem_cons_self _ _ _ _ _ hw hone
    cases r with
    | none =>
      cases h
      exact hw₁
    | some a =>
      simp only at h
      split_ifs at h
      · obtain ⟨⟨w₂, attempts'⟩, hrest, heq⟩ := Option.map_eq_some_iff.mp h
        obtain ⟨rfl, rfl⟩ := Prod.mk.inj heq
        rw [List.map_cons, List.sum_cons, ← Nat.add_assoc]
        exact ih (fun t ht => hturn t (List.mem_cons_of_mem _ ht)) hw₁ hrest
      · cases h
        exact hw₁

/-! ## The sequencer follows -/

theorem inlineEvents_matched {k : ℕ} {arrivals : List ClientWorkerImpl.Arrival} {completions : List (ℕ × ℤ)}
    (hm : Matched s w) (hb : Balanced k s) (h : w.inlineEvents c arrivals = some (w', completions)) :
    ∃ t, s.completeAll completions = some t ∧ Matched t w' := by
  induction arrivals generalizing s w completions with
  | nil =>
    cases h
    exact ⟨s, rfl, hm⟩
  | cons a rest ih =>
    unfold ClientWorkerImpl.inlineEvents at h
    split at h
    · cases h
    · rename_i w₁ hstream
      exact ih (hm.ongoing hstream) hb h
    · rename_i w₁ id hstream
      obtain ⟨⟨w₂, completions'⟩, hrest, heq⟩ := Option.map_eq_some_iff.mp h
      obtain ⟨rfl, rfl⟩ := Prod.mk.inj heq
      obtain ⟨u, hu, hmatched⟩ := hm.complete hb.distinct hstream
        (w₁.updateApproximateMonotonicTime a.gap).limiter.time
      have hlater : Matched u (w₁.updateApproximateMonotonicTime a.gap) := hmatched.congr rfl rfl rfl rfl
      obtain ⟨t, ht, hmatched'⟩ := ih hlater (Sequencer.complete_balanced hb hu) hrest
      exact ⟨t, Option.bind_eq_some_iff.mpr ⟨u, hu, ht⟩, hmatched'⟩
    · cases h

theorem completeAll_initiated {completions : List (ℕ × ℤ)} (h : s.completeAll completions = some t) :
    t.targetsInitiated = s.targetsInitiated := by
  induction completions generalizing s with
  | nil =>
    cases h
    rfl
  | cons p rest ih =>
    obtain ⟨u, hu, ht⟩ := Option.bind_eq_some_iff.mp h
    obtain ⟨_, -, -, hbooks⟩ := Sequencer.complete_books hu
    simp only [books, Prod.mk.injEq] at hbooks
    exact (ih ht).trans hbooks.2.1

theorem attempt_accepts {now : ℤ} {completions : List (ℕ × ℤ)}
    (h : (s.call now).completeAll completions = some t) :
    ∃ u, s.attempt now ⟨completions, true⟩ = some u ∧ u.outstanding = t.outstanding ∧ u.calls = t.calls ∧
      u.targetsInitiated = t.targetsInitiated + 1 := by
  have hbooks := Sequencer.books_unblock (t.log (.accepted s.calls)) now
  simp only [books, Prod.mk.injEq] at hbooks
  refine ⟨_, Option.bind_eq_some_iff.mpr ⟨t, h, if_pos rfl⟩, hbooks.2.2.2.2.1, hbooks.2.2.2.2.2, ?_⟩
  exact congrArg (· + 1) hbooks.2.1

theorem attempt_refuses (hb : Balanced 0 s) (now : ℤ) :
    ∃ u, s.attempt now ⟨[], false⟩ = some u ∧ u.outstanding = s.outstanding ∧ u.calls = s.calls + 1 ∧
      u.targetsInitiated = s.targetsInitiated := by
  have hdistinct := (Sequencer.call_balanced hb now).distinct
  have hdrop : (s.call now).outstanding.filter (·.id ≠ s.calls) = s.outstanding := by
    have := Keyed.filter_middle Sequencer.Callback.id hdistinct
    rwa [List.append_nil] at this
  let dropped := { (s.call now).log (.refused s.calls) with
    outstanding := (s.call now).outstanding.filter (·.id ≠ s.calls) }
  have hbooks := Sequencer.books_updateStartBlocking dropped
  simp only [books, Prod.mk.injEq] at hbooks
  refine ⟨dropped.updateStartBlockingTimeIfNeeded.log .released, ?_, hbooks.2.2.2.2.1.trans hdrop,
    hbooks.2.2.2.2.2, hbooks.2.1⟩
  have hnew : (s.call now).outstanding.any (·.id = s.calls) = true := by simp [SequencerImpl.call]
  simp only [SequencerImpl.attempt, SequencerImpl.completeAll, Option.bind_some, Bool.false_eq_true, if_false,
    hnew, if_true]
  rfl

theorem Matched.taken (hm : Matched s w) {b : BenchmarkClient.Benchmark}
    (hstarted : b.started = w.benchmark.started + 1)
    (hkeys : b.streams.map Prod.fst = w.benchmark.started :: w.benchmark.streams.map Prod.fst)
    (limiter : Session)
    (now : ℤ) : Matched (s.call now) (taken w limiter b s.calls) := by
  refine ⟨?_, ?_, ?_, ?_⟩
  · show w.benchmark.started :: w.callbacks.map Prod.fst = b.streams.map Prod.fst
    rw [hkeys, hm.streams]
  · refine List.nodup_cons.mpr ⟨fun hin => ?_, hm.distinct⟩
    exact absurd (hm.fresh _ hin) (lt_irrefl _)
  · intro id hid
    show id < b.started
    rw [hstarted]
    rcases List.mem_cons.mp hid with rfl | hid
    · exact Nat.lt_succ_self _
    · exact (hm.fresh id hid).trans (Nat.lt_succ_self _)
  · have hout := hm.outstanding
    simp only [SequencerImpl.call, Worker.taken, targets, List.map_append, List.map_cons, List.map_nil,
      List.filterMap_cons, CompletionCallback.target, List.reverse_cons,
      List.append_cancel_right_eq] at hout ⊢
    exact hout

theorem turn_matched (hm : Matched s w) (hb : Balanced 0 s) {t : ClientWorkerImpl.Turn} {a : Attempt}
    (h : w.turn c s.calls t = some (w', some a)) (now : ℤ) :
    ∃ u, s.attempt now a = some u ∧ Matched u w' ∧ u.calls = s.calls + 1 ∧
      u.targetsInitiated = s.targetsInitiated + accepted a := by
  obtain ⟨limiter, -, ⟨-, hr, -⟩ | ⟨-, b, completions, -, hstarted, hkeys, hinline, hr⟩ | ⟨-, _,
    -, hr, rfl⟩⟩ :=
    turn_cases h
  · cases hr
  · cases hr
    obtain ⟨v, hv, hmatched⟩ :=
      inlineEvents_matched (hm.taken hstarted hkeys limiter now) (Sequencer.call_balanced hb now) hinline
    obtain ⟨u, hu, hout, hcalls, hinit⟩ := attempt_accepts hv
    refine ⟨u, hu, hmatched.congr hout rfl rfl rfl, ?_, ?_⟩
    · rw [hcalls, (Sequencer.completeAll_balanced (Sequencer.call_balanced hb now) hv).2.1]
      rfl
    · rw [hinit, completeAll_initiated hv]
      rfl
  · cases hr
    obtain ⟨u, hu, hout, hcalls, hinit⟩ := attempt_refuses hb now
    exact ⟨u, hu, hm.congr hout rfl rfl rfl, hcalls, hinit⟩

/-- Whatever the turns are, the sequencer's loop can make the same attempts. -/
theorem loop_matched {turns : List ClientWorkerImpl.Turn} {attempts : List Attempt} (hm : Matched s w)
    (hb : Balanced 0 s) (h : w.loop c s.calls turns = some (w', attempts)) (now : ℤ) :
    ∃ u, s.loop now attempts = some u ∧ Matched u w' ∧
      u.targetsInitiated = s.targetsInitiated + (attempts.map accepted).sum := by
  induction turns generalizing s w attempts with
  | nil => cases h
  | cons t rest ih =>
    unfold ClientWorkerImpl.loop at h
    obtain ⟨⟨w₁, r⟩, hone, h⟩ := Option.bind_eq_some_iff.mp h
    cases r with
    | none =>
      cases h
      obtain ⟨limiter, -, ⟨-, -, rfl⟩ | ⟨-, _, _, -, -, -, -, hr⟩ | ⟨-, _, -, hr, -⟩⟩ := turn_cases hone
      · exact ⟨_, rfl, hm.congr rfl rfl rfl rfl, rfl⟩
      · cases hr
      · cases hr
    | some a =>
      obtain ⟨u, hu, hmatched, hcalls, hinit⟩ := turn_matched hm hb hone now
      have hbalanced := Sequencer.attempt_balanced hb hu
      simp only at h
      split_ifs at h with haccepts
      · obtain ⟨⟨w₂, attempts'⟩, hrest, heq⟩ := Option.map_eq_some_iff.mp h
        obtain ⟨rfl, rfl⟩ := Prod.mk.inj heq
        rw [← hcalls] at hrest
        obtain ⟨v, hv, hmatched', hinit'⟩ := ih hmatched hbalanced hrest
        refine ⟨v, Option.bind_eq_some_iff.mpr ⟨u, hu, by rw [if_pos haccepts]; exact hv⟩, hmatched', ?_⟩
        rw [hinit', hinit, List.map_cons, List.sum_cons, Nat.add_assoc]
      · cases h
        refine ⟨u, Option.bind_eq_some_iff.mpr ⟨u, hu, by rw [if_neg haccepts]; rfl⟩, hmatched, ?_⟩
        rw [hinit]
        rfl

end Nighthawk.Worker

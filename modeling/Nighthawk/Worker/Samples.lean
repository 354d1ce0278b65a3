import Nighthawk.Worker.Duration

/-!
# The samples of a worker

A worker reports the latencies that its sequencer saw and those that its client saw, and counts of
what went wrong. The sequencer has one sample for each request that ended, however it ended. The
client has one for each response, and counts the others except those that a pool timeout ended.
-/

namespace Nighthawk.Worker

open BenchmarkClient (Benchmark Finish Measuring StreamEvent Tally)
open Options (OptionsImpl)

variable {c : Config} {w w' : ClientWorkerImpl}

/-! ## The client -/

/-- What a client reports of the requests that ended. -/
def reported (t : Tally) : ℕ := t.response + t.streamResets + t.poolOverflow + t.poolConnectionFailure

/-- The requests that ended: those that the client has reported, and the pool timeouts. -/
def endings (b : Benchmark) : ℕ := reported b.client.tally + b.poolTimeouts

/-- Since `b₁` there was one ending for each decoder that ended. -/
structure Sampled (b₁ b : Benchmark) : Prop where
  measuring : Measuring b
  ended : endings b + b₁.completionCallbacks.length = endings b₁ + b.completionCallbacks.length

/-- Every started request is outstanding or was called back. -/
structure Kept (b : Benchmark) : Prop where
  nodup : (b.streams.map Prod.fst).Nodup
  fresh : ∀ id ∈ b.streams.map Prod.fst, id < b.started
  total : b.streams.length + b.completionCallbacks.length = b.started

theorem start_kept {b b' : Benchmark} {pool : Bool} {request : Option BenchmarkClient.Request}
    {now : ℤ} (h : Kept b)
    (hs : BenchmarkClient.step c.client b (.tryStartRequest pool request now) = some b') : Kept b' := by
  obtain rfl | ⟨d, -, -, -, -, rfl⟩ := BenchmarkClient.step_tryStartRequest hs
  · exact h
  have htotal := h.total
  refine ⟨?_, ?_, ?_⟩
  · exact List.nodup_cons.mpr ⟨fun hin => absurd (h.fresh _ hin) (lt_irrefl _), h.nodup⟩
  · intro id hid
    rcases List.mem_cons.mp hid with rfl | hid
    · exact Nat.lt_succ_self _
    · exact (h.fresh id hid).trans (Nat.lt_succ_self _)
  · simp only [List.length_cons]
    omega

theorem stream_kept {b b' : Benchmark} {id : ℕ} {e : StreamEvent} (h : Kept b)
    (hs : BenchmarkClient.step c.client b (.stream id e) = some b') : Kept b' := by
  obtain ⟨st, hlookup, -, ⟨client, d, -, rfl⟩ | ⟨client, complete, success, -, rfl⟩⟩ :=
    BenchmarkClient.step_stream hs
  · refine ⟨?_, ?_, by simpa using h.total⟩
    · rw [BenchmarkClient.map_fst_update]; exact h.nodup
    · rw [BenchmarkClient.map_fst_update]; exact h.fresh
  · have hlength := BenchmarkClient.length_filter_of_lookup b.streams id st h.nodup hlookup
    have htotal := h.total
    have hsub : ((b.streams.filter (·.1 ≠ id)).map Prod.fst).Sublist (b.streams.map Prod.fst) :=
      List.filter_sublist.map _
    refine ⟨h.nodup.sublist hsub, fun i hi => h.fresh i (hsub.subset hi), ?_⟩
    simp only [List.length_append, List.length_singleton]
    omega

/-! ## The worker -/

theorem moves_kept {e : Event} (h : Kept w.benchmark) (hmoves : Moves c w e w') : Kept w'.benchmark :=
  moves_client (Q := fun _ => True) (fun _ _ _ _ _ hb hs => start_kept hb hs)
    (fun _ _ _ _ _ hb hs => stream_kept hb hs)
    (fun _ _ hb => ⟨hb.nodup, hb.fresh, hb.total⟩) (fun _ _ => trivial) h hmoves

end Nighthawk.Worker

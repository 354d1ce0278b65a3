import Mathlib.Data.Int.ConditionallyCompleteOrder
import Mathlib.Data.Set.Lattice
import Mathlib.Order.ConditionallyCompleteLattice.Basic
import Nighthawk.AdaptiveLoad.Metrics
import Nighthawk.Results.Collector

/-!
# When all workers are active

The reporting period that the evaluator reads from an output, against the times of the workers
that the output was made from.
-/

namespace Nighthawk.AdaptiveLoad

open Options Results

/-! ## Times -/

namespace Timestamp

def toNanos (t : Timestamp) : ℤ := t.seconds * nanosPerSecond + t.nanos

/-- The nanoseconds are in their range. -/
def Normal (t : Timestamp) : Prop := 0 ≤ t.nanos ∧ t.nanos < nanosPerSecond

end Timestamp

def Duration.toNanos (d : Duration) : ℤ := d.seconds * nanosPerSecond + d.nanos

theorem normal_nanosecondsToTimestamp (count : ℤ) : Timestamp.Normal (nanosecondsToTimestamp count) :=
  ⟨Int.emod_nonneg _ (by decide), Int.emod_lt_of_pos _ (by decide)⟩

theorem toNanos_nanosecondsToTimestamp (count : ℤ) :
    Timestamp.toNanos (nanosecondsToTimestamp count) = count :=
  Int.ediv_mul_add_emod count nanosPerSecond

theorem toNanos_nanosecondsToDuration (count : ℤ) : Duration.toNanos (nanosecondsToDuration count) = count :=
  Int.ediv_mul_add_emod count nanosPerSecond

theorem normal_addDuration (t : Timestamp) (d : Duration) : Timestamp.Normal (Timestamp.addDuration t d) :=
  ⟨Int.emod_nonneg _ (by decide), Int.emod_lt_of_pos _ (by decide)⟩

theorem toNanos_addDuration (t : Timestamp) (d : Duration) :
    Timestamp.toNanos (Timestamp.addDuration t d) = Timestamp.toNanos t + Duration.toNanos d := by
  have hcarry := Int.ediv_mul_add_emod (t.nanos + d.nanos) nanosPerSecond
  simp only [Timestamp.toNanos, Timestamp.addDuration, Duration.toNanos, nanosPerSecond] at hcarry ⊢
  omega

theorem toNanos_subtract (t u : Timestamp) :
    Duration.toNanos (Timestamp.subtract t u) = Timestamp.toNanos t - Timestamp.toNanos u := by
  simp only [Timestamp.subtract, Duration.toNanos, Int.tdiv_mul_add_tmod, Timestamp.toNanos, nanosPerSecond]
  omega

theorem before_iff {t u : Timestamp} (ht : Timestamp.Normal t) (hu : Timestamp.Normal u) :
    Timestamp.before t u = true ↔ Timestamp.toNanos t < Timestamp.toNanos u := by
  obtain ⟨ht0, ht1⟩ := ht
  obtain ⟨hu0, hu1⟩ := hu
  unfold Timestamp.before Timestamp.toNanos
  simp only [nanosPerSecond] at *
  split_ifs with hseconds
  · rw [decide_eq_true_eq, hseconds]
    omega
  · rw [decide_eq_true_eq]
    omega

theorem later_spec {t u : Timestamp} (ht : Timestamp.Normal t) (hu : Timestamp.Normal u) :
    Timestamp.Normal (if Timestamp.before t u then u else t) ∧
      Timestamp.toNanos (if Timestamp.before t u then u else t) =
        max (Timestamp.toNanos t) (Timestamp.toNanos u) := by
  split_ifs with hbefore
  · exact ⟨hu, (max_eq_right ((before_iff ht hu).mp hbefore).le).symm⟩
  · exact ⟨ht, (max_eq_left (not_lt.mp fun hlt => hbefore ((before_iff ht hu).mpr hlt))).symm⟩

theorem sooner_spec {t u : Timestamp} (ht : Timestamp.Normal t) (hu : Timestamp.Normal u) :
    Timestamp.Normal (if Timestamp.before u t then u else t) ∧
      Timestamp.toNanos (if Timestamp.before u t then u else t) =
        min (Timestamp.toNanos t) (Timestamp.toNanos u) := by
  split_ifs with hbefore
  · exact ⟨hu, (min_eq_right ((before_iff hu ht).mp hbefore).le).symm⟩
  · exact ⟨ht, (min_eq_left (not_lt.mp fun hlt => hbefore ((before_iff hu ht).mpr hlt))).symm⟩

theorem toNanos_foldl {pick : Timestamp → Timestamp → Timestamp} {op : ℤ → ℤ → ℤ}
    (hpick : ∀ t u, Timestamp.Normal t → Timestamp.Normal u →
      Timestamp.Normal (pick t u) ∧
        Timestamp.toNanos (pick t u) = op (Timestamp.toNanos t) (Timestamp.toNanos u))
    (f : Result → Timestamp) (results : List Result) (hf : ∀ r ∈ results, Timestamp.Normal (f r))
    (t : Timestamp)
    (ht : Timestamp.Normal t) :
    ∃ u, results.foldl (fun t r => pick t (f r)) t = u ∧ Timestamp.Normal u ∧
      Timestamp.toNanos u =
        (results.map fun r => Timestamp.toNanos (f r)).foldl op (Timestamp.toNanos t) := by
  induction results generalizing t with
  | nil => exact ⟨t, rfl, ht, rfl⟩
  | cons r results ih =>
    obtain ⟨hnormal, hnanos⟩ := hpick t (f r) ht (hf r List.mem_cons_self)
    rw [List.foldl_cons, List.map_cons, List.foldl_cons, ← hnanos]
    exact ih (fun q hq => hf q (List.mem_cons_of_mem _ hq)) _ hnormal

/-! ## The period of an output -/

def ReportingPeriod.interval (p : ReportingPeriod) : Set ℤ :=
  Set.Ico (Timestamp.toNanos p.startTime) (Timestamp.toNanos p.startTime + Duration.toNanos p.duration)

def span (r : Result) : ℤ × ℤ := (Timestamp.toNanos (Result.start r), Timestamp.toNanos (Result.finish r))

theorem getReportingPeriod_spec {output : Output} (hne : output.results ≠ [])
    (hnormal : ∀ r ∈ output.results, Timestamp.Normal (Result.start r)) :
    ∃ last first, ((output.results.map span).map Prod.fst).max? = some last ∧
      ((output.results.map span).map Prod.snd).min? = some first ∧
      match getReportingPeriod output with
      | .ok period => last < first ∧ period.interval = Set.Ico last first
      | .error _ => first ≤ last := by
  obtain ⟨r, results, hresults⟩ := List.exists_cons_of_ne_nil hne
  have hfinish : ∀ r, Timestamp.Normal (Result.finish r) := fun r => normal_addDuration _ _
  obtain ⟨t, ht, htnormal, htnanos⟩ :=
    toNanos_foldl (fun _ _ ht hu => later_spec ht hu) Result.start output.results
    hnormal (Result.start r) (hnormal r (by simp [hresults]))
  obtain ⟨u, hu, hunormal, hunanos⟩ :=
    toNanos_foldl (fun _ _ ht hu => sooner_spec ht hu) Result.finish output.results
    (fun r _ => hfinish r) (Result.finish r) (hfinish r)
  refine ⟨Timestamp.toNanos t, Timestamp.toNanos u, ?_, ?_, ?_⟩
  -- The folds of the code start with the first result and meet it again.
  · rw [htnanos, hresults, List.map_map, List.map_cons, List.map_cons, List.max?_cons',
      List.foldl_cons, max_self]
    rfl
  · rw [hunanos, hresults, List.map_map, List.map_cons, List.map_cons, List.min?_cons',
      List.foldl_cons, min_self]
    rfl
  · unfold getReportingPeriod
    rw [hresults] at ht hu ⊢
    dsimp only
    rw [ht, hu]
    split_ifs with hbefore
    · refine ⟨(before_iff htnormal hunormal).mp hbefore, ?_⟩
      rw [ReportingPeriod.interval, toNanos_subtract, add_sub_cancel]
    · exact not_lt.mp fun hlt => hbefore ((before_iff htnormal hunormal).mpr hlt)

/-! ## The results of the workers -/

def WorkerResult.start (w : WorkerResult) : ℤ := w.firstAcquisitionTime.getD 0

def WorkerResult.span (w : WorkerResult) : ℤ × ℤ := (start w, start w + w.executionDuration)

def WorkerResult.interval (w : WorkerResult) : Set ℤ := Set.Ico (span w).1 (span w).2

def NormalStarts (output : Output) : Prop := ∀ r ∈ output.results, Timestamp.Normal (Result.start r)

section

variable (output : Output) (name : Str) (statistics : List Results.Statistic)
    (counters : List Results.Counter)
  (executionDuration : ℤ) (firstAcquisitionTime : Option ℤ) (userDefinedOutputs : List UserDefinedOutput)

theorem addResult_spans :
    (addResult output name statistics counters executionDuration firstAcquisitionTime
      userDefinedOutputs).results.map span =
      output.results.map span ++
        [(firstAcquisitionTime.getD 0, firstAcquisitionTime.getD 0 + executionDuration)] := by
  simp only [addResult, List.map_append, List.map_cons, List.map_nil, List.append_cancel_left_eq,
    List.cons.injEq, and_true, span, Result.finish, Result.start, toNanos_addDuration, Option.getD_some,
    toNanos_nanosecondsToDuration]
  cases firstAcquisitionTime with
  | none => rfl
  | some time => simp only [Option.map_some, Option.getD_some, toNanos_nanosecondsToTimestamp]

theorem addResult_normalStarts (h : NormalStarts output) :
    NormalStarts (addResult output name statistics counters executionDuration firstAcquisitionTime
      userDefinedOutputs) := by
  intro r hr
  rcases List.mem_append.mp hr with hr | hr
  · exact h r hr
  · rw [List.mem_singleton.mp hr, Result.start]
    cases firstAcquisitionTime with
    | none => exact normal_nanosecondsToTimestamp 0
    | some time => exact normal_nanosecondsToTimestamp time

end

theorem foldl_collectWorker_spans (n : ℕ) (workers : List WorkerResult) (c : Collected) :
    (workers.foldl (collectWorker n) c).output.results.map span =
      c.output.results.map span ++ if 1 < n then workers.map WorkerResult.span else [] := by
  induction workers generalizing c with
  | nil => simp
  | cons w workers ih =>
    rw [List.foldl_cons, ih]
    by_cases hn : 1 < n
    · simp only [collectWorker, gt_iff_lt, hn, if_true, addResult_spans, List.append_assoc, List.map_cons]
      rfl
    · simp only [collectWorker, gt_iff_lt, hn, if_false]

theorem foldl_collectWorker_normalStarts (n : ℕ) (workers : List WorkerResult) (c : Collected)
    (h : NormalStarts c.output) : NormalStarts (workers.foldl (collectWorker n) c).output := by
  induction workers generalizing c with
  | nil => exact h
  | cons w workers ih =>
    refine ih _ ?_
    simp only [collectWorker]
    split_ifs
    · exact addResult_normalStarts _ _ _ _ _ _ _ h
    · exact h

theorem foldl_collectWorker_total (n : ℕ) (workers : List WorkerResult) (c : Collected) :
    (workers.foldl (collectWorker n) c).totalExecutionDuration =
      c.totalExecutionDuration + (workers.map (·.executionDuration)).sum := by
  induction workers generalizing c with
  | nil => simp
  | cons w workers ih =>
    rw [List.foldl_cons, ih, List.map_cons, List.sum_cons, ← add_assoc]
    rfl

theorem foldl_collectWorker_first (n : ℕ) (workers : List WorkerResult)
    (hstarted : ∀ w ∈ workers, w.firstAcquisitionTime.isSome) (c : Collected) :
    (workers.foldl (collectWorker n) c).firstAcquisitionTime =
      (c.firstAcquisitionTime.toList ++ workers.map WorkerResult.start).min? := by
  induction workers generalizing c with
  | nil => cases hfirst : c.firstAcquisitionTime <;> simp [hfirst]
  | cons w workers ih =>
    obtain ⟨start, hstart⟩ := Option.isSome_iff_exists.mp (hstarted w List.mem_cons_self)
    have hw : WorkerResult.start w = start := by rw [WorkerResult.start, hstart, Option.getD_some]
    rw [List.foldl_cons, ih fun v hv => hstarted v (List.mem_cons_of_mem _ hv), List.map_cons, hw]
    cases hfirst : c.firstAcquisitionTime with
    | none =>
      simp only [collectWorker, hfirst, hstart, earliest]
      rfl
    | some time =>
      simp only [collectWorker, hfirst, hstart, earliest]
      rfl

def meanDuration (workers : List WorkerResult) : ℤ := (workers.map (·.executionDuration)).sum / workers.length

/-- The times of the results: those of the workers when there are several, and the earliest start
with the mean duration. -/
def spans (workers : List WorkerResult) (least : ℤ) : List (ℤ × ℤ) :=
  (if 1 < workers.length then workers.map WorkerResult.span else []) ++
    [(least, least + meanDuration workers)]

theorem runInternal_spans {workers : List WorkerResult} (hne : workers ≠ [])
    (hstarted : ∀ w ∈ workers, w.firstAcquisitionTime.isSome) (globalResult : GlobalResult) {output : Output}
    (houtput : output.results = []) :
    ∃ least, (workers.map WorkerResult.start).min? = some least ∧
      NormalStarts (runInternal workers globalResult output).2 ∧
      (runInternal workers globalResult output).2.results.map span = spans workers least := by
  have hpos : workers.length > 0 := List.length_pos_of_ne_nil hne
  obtain ⟨least, hleast⟩ : ∃ least, (workers.map WorkerResult.start).min? = some least := by
    rw [← Option.isSome_iff_exists, List.isSome_min?_iff]
    simpa using hne
  have hfirst := foldl_collectWorker_first workers.length workers hstarted { output }
  rw [Option.toList_none, List.nil_append, hleast] at hfirst
  have hnormal : NormalStarts output := by
    intro r hr
    rw [houtput] at hr
    cases hr
  refine ⟨least, hleast, ?_, ?_⟩
  · simp only [runInternal, if_pos hpos]
    exact addResult_normalStarts _ _ _ _ _ _ _ (foldl_collectWorker_normalStarts _ _ _ hnormal)
  · simp only [runInternal, if_pos hpos]
    rw [addResult_spans, foldl_collectWorker_spans, foldl_collectWorker_total, hfirst, houtput, zero_add]
    rfl

/-! ## The common time -/

/-- When all workers are active. -/
def allActive (workers : List WorkerResult) : Set ℤ := ⋂ w ∈ workers, WorkerResult.interval w

theorem mem_allActive {workers : List WorkerResult} {x : ℤ} :
    x ∈ allActive workers ↔ ∀ w ∈ workers, (WorkerResult.span w).1 ≤ x ∧ x < (WorkerResult.span w).2 := by
  simp only [allActive, Set.mem_iInter, WorkerResult.interval, Set.mem_Ico]

/-- The evaluator reports just the time when all workers are active, or an error when there is none. -/
def ReportsAllActive (workers : List WorkerResult) (output : Output) : Prop :=
  match getReportingPeriod output with
  | .ok period => period.interval = allActive workers ∧ (allActive workers).Nonempty
  | .error _ => allActive workers = ∅

/-- `last` is the last start of a worker, and no worker ends before `first`. -/
structure Bounds (workers : List WorkerResult) (last first : ℤ) : Prop where
  start_le : ∀ w ∈ workers, (WorkerResult.span w).1 ≤ last
  start_eq : ∃ w ∈ workers, (WorkerResult.span w).1 = last
  le_finish : ∀ w ∈ workers, first ≤ (WorkerResult.span w).2

section

variable {workers : List WorkerResult} {last first : ℤ}

theorem Bounds.mem_allActive (h : Bounds workers last first) {x : ℤ} :
    x ∈ allActive workers ↔ last ≤ x ∧ ∀ w ∈ workers, x < (WorkerResult.span w).2 := by
  rw [AdaptiveLoad.mem_allActive]
  constructor
  · intro hx
    obtain ⟨w, hw, rfl⟩ := h.start_eq
    exact ⟨(hx w hw).1, fun v hv => (hx v hv).2⟩
  · rintro ⟨hx, hlt⟩ w hw
    exact ⟨(h.start_le w hw).trans hx, hlt w hw⟩

theorem Bounds.allActive_eq (h : Bounds workers last first)
    (hended : ∃ w ∈ workers, (WorkerResult.span w).2 = first) :
    allActive workers = Set.Ico last first := by
  ext x
  rw [h.mem_allActive, Set.mem_Ico]
  obtain ⟨w, hw, rfl⟩ := hended
  exact and_congr_right fun _ => ⟨fun hx => hx w hw, fun hx v hv => hx.trans_le (h.le_finish v hv)⟩

/-- The workers are still active at a first end that is none of theirs. -/
theorem Bounds.first_mem (h : Bounds workers last first)
    (hended : ¬∃ w ∈ workers, (WorkerResult.span w).2 = first)
    (hlt : last < first) : first ∈ allActive workers :=
  h.mem_allActive.mpr ⟨hlt.le, fun w hw => lt_of_le_of_ne (h.le_finish w hw) fun heq =>
    hended ⟨w, hw, heq.symm⟩⟩

theorem Bounds.reports_iff (h : Bounds workers last first) {output : Output}
    (hperiod : match getReportingPeriod output with
      | .ok period => last < first ∧ period.interval = Set.Ico last first
      | .error _ => first ≤ last) :
    ReportsAllActive workers output ↔
      allActive workers = ∅ ∨ ∃ w ∈ workers, (WorkerResult.span w).2 = first := by
  unfold ReportsAllActive
  cases hresult : getReportingPeriod output with
  | ok period =>
    rw [hresult] at hperiod
    obtain ⟨hlt, hinterval⟩ := hperiod
    by_cases hended : ∃ w ∈ workers, (WorkerResult.span w).2 = first
    · refine iff_of_true ?_ (.inr hended)
      dsimp only
      rw [hinterval, h.allActive_eq hended]
      exact ⟨rfl, last, le_refl _, hlt⟩
    · have hmem := h.first_mem hended hlt
      refine iff_of_false ?_ (not_or.mpr ⟨fun hempty => by simp [hempty] at hmem, hended⟩)
      rintro ⟨heq, -⟩
      rw [← heq, hinterval] at hmem
      exact lt_irrefl _ hmem.2
  | error status =>
    rw [hresult] at hperiod
    refine ⟨.inl, fun hor => hor.elim id fun hended => ?_⟩
    rw [h.allActive_eq hended]
    exact Set.Ico_eq_empty (not_lt.mpr hperiod)

end

theorem span_mem_spans {workers : List WorkerResult} {least : ℤ}
    (hleast : least ∈ workers.map WorkerResult.start)
    {w : WorkerResult} (hw : w ∈ workers) : WorkerResult.span w ∈ spans workers least := by
  unfold spans
  split_ifs with hlength
  · exact List.mem_append_left _ (List.mem_map_of_mem hw)
  · obtain ⟨v, rfl⟩ := List.length_eq_one_iff.mp
      (show workers.length = 1 by have := List.length_pos_of_mem hw; omega)
    rw [List.mem_singleton.mp hw, List.mem_singleton.mp hleast]
    simp [WorkerResult.span, meanDuration]

theorem mem_spans {workers : List WorkerResult} {least : ℤ} {s : ℤ × ℤ} (h : s ∈ spans workers least) :
    (∃ w ∈ workers, WorkerResult.span w = s) ∨ s = (least, least + meanDuration workers) := by
  rcases List.mem_append.mp h with h | h
  · split_ifs at h
    · exact .inl (List.mem_map.mp h)
    · cases h
  · exact .inr (List.mem_singleton.mp h)

/-- The global result ends after the mean duration. So the period is right exactly when some worker
has ended by then, or when there is no common time at all. -/
theorem reportsAllActive_iff (workers : List WorkerResult) (hne : workers ≠ [])
    (hstarted : ∀ w ∈ workers, w.firstAcquisitionTime.isSome) (globalResult : GlobalResult) (output : Output)
    (houtput : output.results = []) :
    ReportsAllActive workers (runInternal workers globalResult output).2 ↔ allActive workers = ∅ ∨
      ∃ w ∈ workers, ∀ v ∈ workers,
        WorkerResult.start w + w.executionDuration ≤ WorkerResult.start v + meanDuration workers := by
  obtain ⟨least, hmin, hnormal, hspans⟩ := runInternal_spans hne hstarted globalResult houtput
  obtain ⟨hleast, hleastAll⟩ := List.min?_eq_some_iff.mp hmin
  have hresults : (runInternal workers globalResult output).2.results ≠ [] := by
    intro hnil
    simp [hnil, spans] at hspans
  obtain ⟨last, first, hlast, hfirst, hperiod⟩ := getReportingPeriod_spec hresults hnormal
  rw [hspans, List.max?_eq_some_iff] at hlast
  rw [hspans, List.min?_eq_some_iff] at hfirst
  have hbounds : Bounds workers last first := by
    refine ⟨?_, ?_, ?_⟩
    · exact fun w hw => hlast.2 _ (List.mem_map_of_mem (span_mem_spans hleast hw))
    · obtain ⟨s, hs, rfl⟩ := List.mem_map.mp hlast.1
      rcases mem_spans hs with ⟨w, hw, rfl⟩ | rfl
      · exact ⟨w, hw, rfl⟩
      · exact List.mem_map.mp hleast
    · exact fun w hw => hfirst.2 _ (List.mem_map_of_mem (span_mem_spans hleast hw))
  rw [hbounds.reports_iff hperiod]
  refine or_congr_right ⟨?_, ?_⟩
  · rintro ⟨w, hw, hfinish⟩
    refine ⟨w, hw, fun v hv => ?_⟩
    have hglobal : first ≤ least + meanDuration workers :=
      hfirst.2 _ (List.mem_map_of_mem (List.mem_append_right _ (List.mem_singleton_self _)))
    have hstart := hleastAll _ (List.mem_map_of_mem hv)
    exact hfinish.trans_le (hglobal.trans (by omega))
  · rintro ⟨w, hw, hle⟩
    obtain ⟨v, hv, rfl⟩ := List.mem_map.mp hleast
    obtain ⟨s, hs, rfl⟩ := List.mem_map.mp hfirst.1
    rcases mem_spans hs with ⟨u, hu, rfl⟩ | rfl
    · exact ⟨u, hu, rfl⟩
    · exact ⟨w, hw, le_antisymm (hle v hv) (hbounds.le_finish w hw)⟩

def twoWorkers (duration start duration' : ℤ) : List WorkerResult :=
  [⟨[], [], duration, some 0, []⟩, ⟨[], [], duration', some start, []⟩]

theorem reportsAllActive_equal_durations :
    ReportsAllActive (twoWorkers 20 10 20) (runInternal (twoWorkers 20 10 20) {} {}).2 := by
  refine (reportsAllActive_iff (twoWorkers 20 10 20) (by decide) (by decide) {} {} rfl).mpr (.inr ?_)
  decide

/-- Both workers are active from 10 to 20, and the period ends at 15, with the mean duration. -/
theorem period_ends_with_mean :
    getReportingPeriod (runInternal (twoWorkers 20 10 10) {} {}).2 = .ok ⟨⟨0, 10⟩, ⟨0, 5⟩⟩ ∧
      allActive (twoWorkers 20 10 10) = Set.Ico 10 20 ∧
      ¬ReportsAllActive (twoWorkers 20 10 10) (runInternal (twoWorkers 20 10 10) {} {}).2 := by
  have hperiod : getReportingPeriod (runInternal (twoWorkers 20 10 10) {} {}).2 = .ok ⟨⟨0, 10⟩, ⟨0, 5⟩⟩ := rfl
  have hactive : allActive (twoWorkers 20 10 10) = Set.Ico 10 20 := by
    ext x
    simp [mem_allActive, twoWorkers, WorkerResult.span, WorkerResult.start]
    omega
  refine ⟨hperiod, hactive, ?_⟩
  rw [ReportsAllActive, hperiod, hactive]
  rintro ⟨heq, -⟩
  have hmem : (15 : ℤ) ∈ Set.Ico (10 : ℤ) 20 := by decide
  rw [← heq] at hmem
  exact absurd hmem.2 (by decide)

end Nighthawk.AdaptiveLoad

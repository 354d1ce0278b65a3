import Mathlib.Data.List.Perm.Basic
import Nighthawk.OutputFormatter.Percentiles

/-!
# The Prometheus exposition

The text is well formed exactly when no two names collide after they were folded. The values play
no part in this, so the argument is about the family, the name and the labels of each sample.
-/

namespace Nighthawk.OutputFormatter.Prometheus

open Results Exposition

/-! ## The names of an output -/

def counterNames (s : Results.Statistic) : List Str :=
  if s.id = [] then []
  else
    (["_min".toList, "_max".toList, "_mean".toList, "_pstdev".toList] ++
      if s.percentiles = [] then ["_count".toList, "_sum".toList] else []).map (metricName s.id ++ ·)

def isSummary (s : Results.Statistic) : Bool := s.id ≠ [] ∧ s.percentiles ≠ []

def resultCounters (r : Result) : List Str :=
  r.statistics.flatMap counterNames ++ r.counters.map fun c => metricName c.name

def resultSummaries (r : Result) : List Str := (r.statistics.filter isSummary).map fun s => metricName s.id

def allCounters (output : Output) : List Str := output.results.flatMap resultCounters
def allSummaries (output : Output) : List Str := output.results.flatMap resultSummaries

/-- No counter and no summary of one result have the same name twice, and no name of a summary is
the name of another family. -/
structure CollisionFree (output : Output) : Prop where
  free : ∀ n ∈ allSummaries output, Free (allCounters output) (allSummaries output) n
  distinct : ∀ r ∈ output.results, (resultCounters r).Nodup ∧ (resultSummaries r).Nodup

/-- Neither a line feed nor an opening brace. -/
def PlainName (s : Str) : Prop := '\n' ∉ s ∧ '\x7b' ∉ s

instance (s : Str) : Decidable (PlainName s) := inferInstanceAs (Decidable (_ ∧ _))

/-- No name that is printed has a character that would be read as the end of a line or of a name.
The name of a result is printed with its counters. -/
structure PlainNames (output : Output) : Prop where
  results : ∀ r ∈ output.results, resultCounters r ≠ [] → '\n' ∉ r.name
  statistics : ∀ r ∈ output.results, ∀ s ∈ r.statistics, PlainName s.id
  counters : ∀ r ∈ output.results, ∀ c ∈ r.counters, PlainName c.name

/-! ## The heads of the samples -/

/-- The family, the name and the labels. -/
abbrev Head := Family × Str × Str

def head (m : Metric) : Head := (⟨m.name, m.type⟩, m.name ++ m.suffix, m.labels)

def counterHead (scope name : Str) : Head := (⟨name, .counter⟩, name, scopeLabel scope)

def summaryHeads (format : DoubleFormat) (scope : Str) (s : Results.Statistic) : List Head :=
  ((iteratePercentiles s).map fun p =>
    (⟨metricName s.id, .summary⟩, metricName s.id, quantileLabel format scope p.percentile)) ++
  summarySuffixes.map fun suffix => (⟨metricName s.id, .summary⟩, metricName s.id ++ suffix, scopeLabel scope)

variable (format : DoubleFormat)

theorem statistic_heads (scope : Str) (s : Results.Statistic) :
    (statisticMetrics format scope s).map head =
      (counterNames s).map (counterHead scope) ++ if isSummary s then
        summaryHeads format scope s else [] := by
  unfold statisticMetrics counterNames isSummary
  by_cases hid : s.id = []
  · simp [hid]
  · by_cases hp : s.percentiles = []
    · have hnone : iteratePercentiles s = [] := by
        unfold iteratePercentiles
        rw [hp, iteratePercentilesFrom_nil]
      simp [hid, hp, hnone, head, counterHead]
    · simp [hid, hp, head, counterHead, summaryHeads, summarySuffixes, Function.comp_def]

theorem result_heads_perm (r : Result) :
    ((resultMetrics format r).map head).Perm
      ((resultCounters r).map (counterHead r.name) ++
        (r.statistics.filter isSummary).flatMap (summaryHeads format r.name)) := by
  have hstatistics : ((r.statistics.flatMap (statisticMetrics format r.name)).map head).Perm
      ((r.statistics.flatMap counterNames).map (counterHead r.name) ++
        (r.statistics.filter isSummary).flatMap (summaryHeads format r.name)) := by
    have hfilter : (r.statistics.filter isSummary).flatMap (summaryHeads format r.name) =
        r.statistics.flatMap fun s => if isSummary s then summaryHeads format r.name s else [] := by
      induction r.statistics with
      | nil => rfl
      | cons s statistics ih =>
        rw [List.flatMap_cons, ← ih, List.filter_cons]
        split <;> rfl
    rw [List.map_flatMap, List.map_flatMap, hfilter]
    simp only [statistic_heads]
    exact (List.flatMap_append_perm _ _ _).symm
  have hcounters : r.counters.map (head ∘ counterMetric r.name) =
      r.counters.map (counterHead r.name ∘ fun c => metricName c.name) := by
    simp [head, counterMetric, counterHead, Function.comp_def]
  unfold resultMetrics resultCounters
  rw [List.map_append, List.map_append, List.map_map, List.map_map, hcounters]
  apply (hstatistics.append_right _).trans
  rw [List.append_assoc, List.append_assoc]
  exact List.perm_append_comm.append_left _

def heads (output : Output) : List Head := output.results.flatMap fun r => (resultMetrics format r).map head

variable {format} {output : Output}

theorem mem_heads {h : Head} :
    h ∈ heads format output ↔ ∃ r ∈ output.results, (∃ c ∈ resultCounters r, counterHead r.name c = h) ∨
      ∃ s ∈ r.statistics.filter isSummary, h ∈ summaryHeads format r.name s := by
  unfold heads
  rw [List.mem_flatMap]
  apply exists_congr
  intro r
  rw [(result_heads_perm format r).mem_iff, List.mem_append, List.mem_map, List.mem_flatMap]

theorem mem_summaryHeads {scope : Str} {s : Results.Statistic} {h : Head} :
    h ∈ summaryHeads format scope s ↔
      (∃ p ∈ iteratePercentiles s,
        (⟨metricName s.id, .summary⟩, metricName s.id, quantileLabel format scope p.percentile) = h) ∨
      ∃ suffix ∈ summarySuffixes,
        (⟨metricName s.id, .summary⟩, metricName s.id ++ suffix, scopeLabel scope) = h := by
  unfold summaryHeads
  rw [List.mem_append, List.mem_map, List.mem_map]

/-! ## Families -/

theorem mem_allCounters {n : Str} : n ∈ allCounters output ↔ ∃ r ∈ output.results, n ∈ resultCounters r :=
  List.mem_flatMap

theorem mem_allSummaries {n : Str} :
    n ∈ allSummaries output ↔
      ∃ r ∈ output.results, ∃ s ∈ r.statistics.filter isSummary, metricName s.id = n := by
  unfold allSummaries resultSummaries
  simp only [List.mem_flatMap, List.mem_map]

theorem suffix_mem_heads (format : DoubleFormat) {n suffix : Str} (hn : n ∈ allSummaries output)
    (hsuffix : suffix ∈ summarySuffixes) :
    ∃ scope, (⟨n, .summary⟩, n ++ suffix, scopeLabel scope) ∈ heads format output := by
  obtain ⟨r, hr, s, hs, rfl⟩ := mem_allSummaries.mp hn
  exact ⟨r.name, mem_heads.mpr ⟨r, hr, Or.inr ⟨s, hs, mem_summaryHeads.mpr (Or.inr ⟨suffix, hsuffix, rfl⟩)⟩⟩⟩

theorem declares_of_mem_heads {h : Head} (hh : h ∈ heads format output) :
    Declares (allCounters output) (allSummaries output) h.1 := by
  obtain ⟨r, hr, ⟨c, hc, rfl⟩ | ⟨s, hs, hh⟩⟩ := mem_heads.mp hh
  · exact declares_counter.mpr (mem_allCounters.mpr ⟨r, hr, hc⟩)
  · have hn : metricName s.id ∈ allSummaries output := mem_allSummaries.mpr ⟨r, hr, s, hs, rfl⟩
    obtain ⟨p, -, rfl⟩ | ⟨suffix, -, rfl⟩ := mem_summaryHeads.mp hh
    · exact declares_summary.mpr hn
    · exact declares_summary.mpr hn

theorem owns_of_mem_heads {h : Head} (hh : h ∈ heads format output) : h.1.Owns h.2.1 := by
  obtain ⟨r, hr, ⟨c, hc, rfl⟩ | ⟨s, hs, hh⟩⟩ := mem_heads.mp hh
  · exact counter_owns.mpr rfl
  · obtain ⟨p, -, rfl⟩ | ⟨suffix, hsuffix, rfl⟩ := mem_summaryHeads.mp hh
    · exact summary_owns.mpr (Or.inl rfl)
    · exact summary_owns.mpr (Or.inr ⟨suffix, hsuffix, rfl⟩)

theorem family_iff (f : Family) : f ∈ (heads format output).map Prod.fst ↔
    Declares (allCounters output) (allSummaries output) f := by
  constructor
  · intro hf
    obtain ⟨h, hh, rfl⟩ := List.mem_map.mp hf
    exact declares_of_mem_heads hh
  · intro hf
    obtain ⟨n, kind⟩ := f
    cases kind with
    | counter =>
      obtain ⟨r, hr, hn⟩ := mem_allCounters.mp (declares_counter.mp hf)
      exact List.mem_map.mpr ⟨counterHead r.name n, mem_heads.mpr ⟨r, hr, Or.inl ⟨n, hn, rfl⟩⟩, rfl⟩
    | summary =>
      obtain ⟨scope, hh⟩ := suffix_mem_heads format (declares_summary.mp hf) List.mem_cons_self
      exact List.mem_map.mpr ⟨_, hh, rfl⟩

/-! ## Labels -/

theorem scopeLabel_injective : Function.Injective scopeLabel := by
  intro scope scope' h
  exact List.append_cancel_left (List.append_cancel_right h)

/-- The last quote but one stands before the quantile, whatever the scope has in it. -/
theorem quantileLabel_inj {scope scope' : Str} {p q : Double}
    (h : quantileLabel format scope p = quantileLabel format scope' q) : scope = scope' ∧ p = q := by
  have hquantile : ∀ (s : Str) (x : Double), quantileLabel format s x =
      (scopeLabel s ++ ",quantile=".toList) ++ '"' :: (format.text x ++ "\"".toList) := by
    intro s x
    unfold quantileLabel
    simp
  have hquote : ∀ x, '"' ∉ format.text x := fun x hx => (format.plain x _ hx).2.2 rfl
  rw [hquantile, hquantile, ← List.cons_append, ← List.cons_append, ← List.append_assoc,
    ← List.append_assoc] at h
  have hbody := List.append_cancel_right h
  have hlength := congrArg (Text.rfind '"') hbody
  rw [Text.rfind_append _ _ (hquote p), Text.rfind_append _ _ (hquote q), Option.some.injEq] at hlength
  obtain ⟨hscope, htext⟩ := List.append_inj hbody hlength
  exact ⟨scopeLabel_injective (List.append_cancel_right hscope), format.injective (List.cons.inj htext).2⟩

theorem quantileLabel_ne_scopeLabel (scope : Str) (p : Double) :
    quantileLabel format scope p ≠ scopeLabel scope := by
  intro h
  have hquantile : 0 < ",quantile=\"".length := by decide
  have hlength := congrArg List.length h
  unfold quantileLabel at hlength
  simp only [List.length_append, String.length_toList] at hlength
  omega

/-! ## Distinct samples -/

theorem summaryKeys_nodup (scope : Str) (s : Results.Statistic) :
    ((summaryHeads format scope s).map Prod.snd).Nodup := by
  unfold summaryHeads
  rw [List.map_append, List.map_map, List.map_map, List.nodup_append]
  refine ⟨?_, ?_, ?_⟩
  · -- The percentiles increase strictly, so no quantile comes twice.
    apply List.pairwise_map.mpr
    apply (iteratePercentilesFrom_increasing s.percentiles _ targetPercentiles).2.imp
    intro p q hlt heq
    exact Nan.ne_of_nan_lt hlt (quantileLabel_inj (congrArg Prod.snd heq)).2
  · apply List.Nodup.map_on
    · intro suffix _ suffix' _ heq
      exact List.append_cancel_left (congrArg Prod.fst heq)
    · decide
  · intro a ha b hb heq
    obtain ⟨p, -, rfl⟩ := List.mem_map.mp ha
    obtain ⟨suffix, -, rfl⟩ := List.mem_map.mp hb
    exact quantileLabel_ne_scopeLabel scope p.percentile (congrArg Prod.snd heq)

theorem summaryKeys_disjoint_iff {scope : Str} {s s' : Results.Statistic} :
    List.Disjoint ((summaryHeads format scope s).map Prod.snd) ((summaryHeads format scope s').map Prod.snd) ↔
      metricName s.id ≠ metricName s'.id := by
  constructor
  · intro hdisjoint hname
    have hcount : ∀ t : Results.Statistic, (metricName t.id ++ "_count".toList, scopeLabel scope) ∈
        (summaryHeads format scope t).map Prod.snd := fun t =>
      List.mem_map.mpr ⟨_, mem_summaryHeads.mpr (Or.inr ⟨_, List.mem_cons_self, rfl⟩), rfl⟩
    exact hdisjoint (hcount s) (hname ▸ hcount s')
  · intro hname key hkey hkey'
    obtain ⟨h, hh, rfl⟩ := List.mem_map.mp hkey
    obtain ⟨h', hh', heq⟩ := List.mem_map.mp hkey'
    obtain ⟨p, -, rfl⟩ | ⟨suffix, hsuffix, rfl⟩ := mem_summaryHeads.mp hh <;>
      obtain ⟨q, -, rfl⟩ | ⟨suffix', hsuffix', rfl⟩ := mem_summaryHeads.mp hh'
    · exact hname (congrArg Prod.fst heq).symm
    · exact quantileLabel_ne_scopeLabel scope p.percentile (congrArg Prod.snd heq).symm
    · exact quantileLabel_ne_scopeLabel scope q.percentile (congrArg Prod.snd heq)
    · exact hname (suffix_cancel hsuffix' hsuffix (congrArg Prod.fst heq)).symm

theorem result_keys_nodup_iff {r : Result}
    (hfree : ∀ s ∈ r.statistics.filter isSummary, ∀ suffix ∈ summarySuffixes,
      metricName s.id ++ suffix ∉ resultCounters r) :
    (((resultMetrics format r).map head).map Prod.snd).Nodup ↔
      (resultCounters r).Nodup ∧ (resultSummaries r).Nodup := by
  have hcounters : (((resultCounters r).map (counterHead r.name)).map Prod.snd).Nodup ↔
      (resultCounters r).Nodup := by
    rw [List.map_map]
    exact List.nodup_map_iff fun c c' heq => congrArg Prod.fst heq
  have hsummaries : (((r.statistics.filter isSummary).flatMap (summaryHeads format r.name)).map
    Prod.snd).Nodup ↔
      (resultSummaries r).Nodup := by
    rw [List.map_flatMap, List.nodup_flatMap, and_iff_right fun s _ => summaryKeys_nodup r.name s]
    unfold resultSummaries
    rw [List.Nodup, List.pairwise_map]
    exact List.Pairwise.iff fun s s' => summaryKeys_disjoint_iff
  rw [((result_heads_perm format r).map Prod.snd).nodup_iff, List.map_append, List.nodup_append,
    hcounters, hsummaries]
  refine and_congr_right fun _ => and_iff_left ?_
  intro a ha b hb heq
  obtain ⟨_, hhead, rfl⟩ := List.mem_map.mp ha
  obtain ⟨c, hc, rfl⟩ := List.mem_map.mp hhead
  obtain ⟨h, hh, rfl⟩ := List.mem_map.mp hb
  obtain ⟨s, hs, hh⟩ := List.mem_flatMap.mp hh
  obtain ⟨p, -, rfl⟩ | ⟨suffix, hsuffix, rfl⟩ := mem_summaryHeads.mp hh
  · exact quantileLabel_ne_scopeLabel r.name p.percentile (congrArg Prod.snd heq).symm
  · have hname : c = metricName s.id ++ suffix := congrArg Prod.fst heq
    exact hfree s hs suffix hsuffix (hname ▸ hc)

theorem labels_of_mem (hfree : ∀ n ∈ allSummaries output, Free (allCounters output) (allSummaries output) n)
    {r : Result} (hr : r ∈ output.results) {h : Head} (hh : h ∈ (resultMetrics format r).map head) :
    (h.2.2 = scopeLabel r.name ∧ h.2.1 ∉ allSummaries output) ∨
      ∃ p, h.2.2 = quantileLabel format r.name p ∧ h.2.1 ∈ allSummaries output := by
  rw [(result_heads_perm format r).mem_iff, List.mem_append, List.mem_map, List.mem_flatMap] at hh
  obtain ⟨c, hc, rfl⟩ | ⟨s, hs, hh⟩ := hh
  · exact Or.inl ⟨rfl, fun hsummary => (hfree c hsummary).1 (mem_allCounters.mpr ⟨r, hr, hc⟩)⟩
  · have hn : metricName s.id ∈ allSummaries output := mem_allSummaries.mpr ⟨r, hr, s, hs, rfl⟩
    obtain ⟨p, -, rfl⟩ | ⟨suffix, hsuffix, rfl⟩ := mem_summaryHeads.mp hh
    · exact Or.inr ⟨p.percentile, rfl, hn⟩
    · exact Or.inl ⟨rfl, ((hfree _ hn).2 suffix hsuffix).2⟩

theorem scope_eq (hfree : ∀ n ∈ allSummaries output, Free (allCounters output) (allSummaries output) n)
    {r r' : Result} (hr : r ∈ output.results) (hr' : r' ∈ output.results) {h h' : Head}
    (hh : h ∈ (resultMetrics format r).map head) (hh' : h' ∈ (resultMetrics format r').map head)
    (hkey : h.2 = h'.2) :
    r.name = r'.name := by
  have hlabels := labels_of_mem hfree hr' hh'
  rw [← hkey] at hlabels
  obtain ⟨hscope, hname⟩ | ⟨p, hquantile, hname⟩ := labels_of_mem hfree hr hh <;>
    obtain ⟨hscope', hname'⟩ | ⟨q, hquantile', hname'⟩ := hlabels
  · exact scopeLabel_injective (hscope.symm.trans hscope')
  · exact absurd hname' hname
  · exact absurd hname hname'
  · exact (quantileLabel_inj (hquantile.symm.trans hquantile')).1

theorem keys_nodup_iff (hnames : (output.results.map Result.name).Nodup)
    (hfree : ∀ n ∈ allSummaries output, Free (allCounters output) (allSummaries output) n) :
    ((heads format output).map Prod.snd).Nodup ↔
      ∀ r ∈ output.results, (resultCounters r).Nodup ∧ (resultSummaries r).Nodup := by
  have hdisjoint : output.results.Pairwise
      (Function.onFun List.Disjoint fun r => ((resultMetrics format r).map head).map Prod.snd) := by
    have hnames : output.results.Pairwise fun r r' => r.name ≠ r'.name := List.pairwise_map.mp hnames
    apply hnames.imp_of_mem
    intro r r' hr hr' hne key hkey hkey'
    obtain ⟨h, hh, rfl⟩ := List.mem_map.mp hkey
    obtain ⟨h', hh', heq⟩ := List.mem_map.mp hkey'
    exact hne (scope_eq hfree hr hr' hh hh' heq.symm)
  unfold heads
  rw [List.map_flatMap, List.nodup_flatMap, and_iff_left hdisjoint]
  apply forall₂_congr
  intro r hr
  apply result_keys_nodup_iff
  intro s hs suffix hsuffix hmem
  have hn : metricName s.id ∈ allSummaries output := mem_allSummaries.mpr ⟨r, hr, s, hs, rfl⟩
  exact ((hfree _ hn).2 suffix hsuffix).1 (mem_allCounters.mpr ⟨r, hr, hmem⟩)

/-! ## The text -/

def entry (m : Metric) : Family × Sample := (⟨m.name, m.type⟩, ⟨m.name ++ m.suffix, m.labels, m.value⟩)

def entries (format : DoubleFormat) (output : Output) : List (Family × Sample) :=
  (output.results.flatMap (resultMetrics format)).map entry

theorem entries_heads :
    (entries format output).map (fun e => (e.1, e.2.name, e.2.labels)) = heads format output := by
  unfold entries heads
  rw [List.map_map, List.map_flatMap]
  rfl

/-- A value of a sample line. -/
def PlainValue (s : Str) : Prop := ∀ c ∈ s, c ≠ '\n' ∧ c ≠ '\x7d' ∧ c ≠ '"'

theorem plain_padded (width : ℕ) (n : ℤ) : PlainValue (Text.padded width n) := by
  intro c hc
  obtain rfl | hdigit := Text.mem_padded hc
  · decide
  · refine ⟨?_, ?_, ?_⟩ <;> (rintro rfl; exact absurd hdigit (by decide))

theorem plain_decimal (n : ℕ) : PlainValue (Text.decimal n) := by
  intro c hc
  have hdigit := Text.isDigit_of_mem_decimal hc
  refine ⟨?_, ?_, ?_⟩ <;> (rintro rfl; exact absurd hdigit (by decide))

theorem plain_memberValue {α : Type} {ofDuration : Options.Duration → Str} {ofRaw : α → Str}
    (hduration : ∀ d, PlainValue (ofDuration d)) (hraw : ∀ x, PlainValue (ofRaw x)) (zero : α)
    (v : Option (DurationOrRaw α)) : PlainValue (memberValue ofDuration ofRaw zero v) := by
  match v with
  | some (.duration d) => exact hduration d
  | some (.raw x) => exact hraw x
  | none => exact hraw zero

theorem not_mem_metricName {c : Char} {id : Str} (hc : c ∉ "nighthawk_".toList) (hid : c ∉ id) :
    c ∉ metricName id := by
  unfold metricName
  rw [List.mem_append, not_or]
  refine ⟨hc, fun hmem => ?_⟩
  obtain ⟨d, hd, rfl⟩ := List.mem_map.mp hmem
  split at hc
  · exact hc (by decide)
  · rename_i hdot
    rw [if_neg hdot] at hid
    exact hid hd

theorem head?_metricName (id rest : Str) : (metricName id ++ rest).head? = some 'n' := by
  unfold metricName
  rw [List.append_assoc, List.head?_append]
  rfl

theorem plain_entry {m : Metric} {id : Str} (hid : PlainName id) (ending : Str) (hending : PlainName ending)
    (hname : m.name ++ m.suffix = metricName id ++ ending) (hlabels : '\n' ∉ m.labels)
    (hvalue : PlainValue m.value) :
    '\n' ∉ (entry m).1.name ∧ (Line.sample (entry m).2).Plain := by
  have hnewline : '\n' ∉ m.name ++ m.suffix := by
    rw [hname, List.mem_append, not_or]
    exact ⟨not_mem_metricName (by decide) hid.1, hending.1⟩
  have hbrace : '\x7b' ∉ m.name ++ m.suffix := by
    rw [hname, List.mem_append, not_or]
    exact ⟨not_mem_metricName (by decide) hid.2, hending.2⟩
  have hhead : (m.name ++ m.suffix).head? ≠ some '#' := by
    rw [hname, head?_metricName]
    decide
  refine ⟨fun h => hnewline (List.mem_append_left _ h), hnewline, hlabels, ?_, hhead, hbrace, ?_⟩
  · exact fun h => (hvalue _ h).1 rfl
  · exact fun h => (hvalue _ h).2.1 rfl

theorem newline_not_mem_scopeLabel {scope : Str} (h : '\n' ∉ scope) : '\n' ∉ scopeLabel scope := by
  unfold scopeLabel
  rw [List.mem_append, List.mem_append, not_or, not_or]
  exact ⟨⟨by decide, h⟩, by decide⟩

theorem newline_not_mem_quantileLabel {scope : Str} (h : '\n' ∉ scope) (p : Double) :
    '\n' ∉ quantileLabel format scope p := by
  unfold quantileLabel
  rw [List.mem_append, List.mem_append, List.mem_append, not_or, not_or, not_or]
  exact ⟨⟨⟨newline_not_mem_scopeLabel h, by decide⟩, fun hp => (format.plain p _ hp).1 rfl⟩, by decide⟩

theorem plain_statisticMetrics {scope : Str} (hscope : '\n' ∉ scope) {s : Results.Statistic}
    (hid : PlainName s.id) :
    ∀ m ∈ statisticMetrics format scope s, '\n' ∉ (entry m).1.name ∧ (Line.sample (entry m).2).Plain := by
  have hlabels := newline_not_mem_scopeLabel hscope
  have hmicros : ∀ d, PlainValue (microsecondsText d) := fun d => plain_padded 0 _
  have hdecimal : ∀ n : UInt64, PlainValue (Text.decimal n.toNat) := fun n => plain_decimal _
  have hplain : ∀ (name type value suffix ending), PlainName ending →
    name ++ suffix = metricName s.id ++ ending →
      PlainValue value → '\n' ∉ (entry ⟨name, type, scopeLabel scope, value, suffix⟩).1.name ∧
        (Line.sample (entry ⟨name, type, scopeLabel scope, value, suffix⟩).2).Plain :=
    fun name type value suffix ending hending hname hvalue =>
      plain_entry hid ending hending hname hlabels hvalue
  unfold statisticMetrics
  split
  · exact fun m hm => absurd hm List.not_mem_nil
  · intro m hm
    obtain hm | hm := List.mem_append.mp hm
    · obtain hm | hm := List.mem_append.mp hm
      · simp only [List.mem_cons, List.not_mem_nil, or_false] at hm
        obtain rfl | rfl | rfl | rfl := hm
        · exact hplain _ _ _ _
            "_min".toList (by decide) (List.append_nil _) (plain_memberValue hmicros hdecimal _ _)
        · exact hplain _ _ _ _
            "_max".toList (by decide) (List.append_nil _) (plain_memberValue hmicros hdecimal _ _)
        · exact hplain _ _ _ _ "_mean".toList (by decide) (List.append_nil _) (format.plain _)
        · exact hplain _ _ _ _ "_pstdev".toList (by decide) (List.append_nil _)
            (plain_memberValue hmicros format.plain _ _)
      · obtain ⟨p, -, rfl⟩ := List.mem_map.mp hm
        exact plain_entry hid [] (by decide) rfl (newline_not_mem_quantileLabel hscope p.percentile)
          (plain_memberValue hmicros (fun _ => plain_padded 0 _) _ _)
    · split at hm
      · simp only [List.mem_cons, List.not_mem_nil, or_false] at hm
        obtain rfl | rfl := hm
        · exact hplain _ _ _ _ "_count".toList (by decide) (List.append_nil _) (hdecimal _)
        · exact hplain _ _ _ _ "_sum".toList (by decide) (List.append_nil _) (format.plain _)
      · simp only [List.mem_cons, List.not_mem_nil, or_false] at hm
        obtain rfl | rfl := hm
        · exact hplain _ _ _ _ "_count".toList (by decide) rfl (hdecimal _)
        · exact hplain _ _ _ _ "_sum".toList (by decide) rfl (format.plain _)

theorem resultCounters_ne_nil {r : Result} {m : Metric} (hm : m ∈ resultMetrics format r) :
    resultCounters r ≠ [] := by
  have hhead := (result_heads_perm format r).mem_iff.mp (List.mem_map_of_mem hm)
  obtain hc | hs := List.mem_append.mp hhead
  · obtain ⟨c, hc, -⟩ := List.mem_map.mp hc
    exact List.ne_nil_of_mem hc
  · obtain ⟨s, hs, -⟩ := List.mem_flatMap.mp hs
    obtain ⟨hs, hsummary⟩ := List.mem_filter.mp hs
    have hid : s.id ≠ [] := (of_decide_eq_true hsummary).1
    have hmin : metricName s.id ++ "_min".toList ∈ counterNames s := by
      unfold counterNames
      rw [if_neg hid]
      exact List.mem_cons_self
    exact List.ne_nil_of_mem (List.mem_append_left _ (List.mem_flatMap.mpr ⟨s, hs, hmin⟩))

theorem plain_entries (hplain : PlainNames output) :
    ∀ e ∈ entries format output, '\n' ∉ e.1.name ∧ (Line.sample e.2).Plain := by
  intro e he
  obtain ⟨m, hm, rfl⟩ := List.mem_map.mp he
  obtain ⟨r, hr, hm⟩ := List.mem_flatMap.mp hm
  have hscope := hplain.results r hr (resultCounters_ne_nil hm)
  obtain hm | hm := List.mem_append.mp hm
  · obtain ⟨s, hs, hm⟩ := List.mem_flatMap.mp hm
    exact plain_statisticMetrics hscope (hplain.statistics r hr s hs) m hm
  · obtain ⟨c, hc, rfl⟩ := List.mem_map.mp hm
    exact plain_entry (hplain.counters r hr c hc) [] (by decide) rfl (newline_not_mem_scopeLabel hscope)
      (plain_decimal _)

theorem exists_formatProto (format : DoubleFormat) (output : Output) :
    ∃ fs : List Family, fs.Nodup ∧ (∀ f, f ∈ fs ↔ f ∈ (entries format output).map Prod.fst) ∧
      formatProto format output = render (blocks fs (entries format output)) := by
  obtain ⟨fs, hnodup, hmem, htext⟩ := exists_blocks (entries format output)
  refine ⟨fs, hnodup, hmem, ?_⟩
  rw [← htext, collect, entries, List.foldl_map]
  rfl

/-! ## Well-formed texts -/

/-- What is read from the text is a well-formed exposition. -/
def ParsesWellFormed (text : Str) : Prop := ∃ lines, Exposition.parse text = some lines ∧ WellFormed lines

theorem wellFormed_iff {fs : List Family} (hnodup : fs.Nodup)
    (hmem : ∀ f, f ∈ fs ↔ f ∈ (entries format output).map Prod.fst)
    (hnames : (output.results.map Result.name).Nodup) :
    WellFormed (blocks fs (entries format output)) ↔ CollisionFree output := by
  have hfst : (entries format output).map Prod.fst = (heads format output).map Prod.fst := by
    rw [← entries_heads, List.map_map]
    rfl
  have hsampleNames : (entries format output).map (·.2.name) = (heads format output).map (·.2.1) := by
    rw [← entries_heads, List.map_map]
    rfl
  have hkeys : ((entries format output).map fun e => (e.2.name, e.2.labels)) =
      (heads format output).map Prod.snd := by
    rw [← entries_heads, List.map_map]
    rfl
  have hdeclares : ∀ f, f ∈ fs ↔ Declares (allCounters output) (allSummaries output) f := by
    intro f
    rw [hmem, hfst]
    exact family_iff f
  have howned : ∀ name ∈ (heads format output).map (·.2.1), ∃ f ∈ fs, f.Owns name := by
    intro name hname
    obtain ⟨h, hh, rfl⟩ := List.mem_map.mp hname
    exact ⟨h.1, (hdeclares h.1).mpr (declares_of_mem_heads hh), owns_of_mem_heads hh⟩
  have hsuffixed : ∀ n ∈ allSummaries output, ∀ suffix ∈ summarySuffixes,
      n ++ suffix ∈ (heads format output).map (·.2.1) := by
    intro n hn suffix hsuffix
    obtain ⟨scope, hh⟩ := suffix_mem_heads format hn hsuffix
    exact List.mem_map.mpr ⟨_, hh, rfl⟩
  rw [wellFormed_blocks_iff hnodup fun e he => (hmem e.1).mpr (List.mem_map_of_mem he), hsampleNames, hkeys,
    names_iff hnodup hdeclares howned hsuffixed]
  constructor
  · rintro ⟨hfree, hdistinct⟩
    exact ⟨hfree, (keys_nodup_iff hnames hfree).mp hdistinct⟩
  · rintro ⟨hfree, hdistinct⟩
    exact ⟨hfree, (keys_nodup_iff hnames hfree).mpr hdistinct⟩

theorem parse_formatProto {fs : List Family} (hplain : PlainNames output)
    (hmem : ∀ f, f ∈ fs ↔ f ∈ (entries format output).map Prod.fst)
    (htext : formatProto format output = render (blocks fs (entries format output))) :
    Exposition.parse (formatProto format output) = some (blocks fs (entries format output)) := by
  rw [htext]
  exact parse_render (plain_blocks (fun f hf => (hmem f).mp hf) (plain_entries hplain))

theorem parsesWellFormed_iff (format : DoubleFormat) (hnames : (output.results.map Result.name).Nodup)
    (hplain : PlainNames output) : ParsesWellFormed (formatProto format output) ↔ CollisionFree output := by
  obtain ⟨fs, hnodup, hmem, htext⟩ := exists_formatProto format output
  have hparse := parse_formatProto hplain hmem htext
  rw [← wellFormed_iff hnodup hmem hnames]
  constructor
  · rintro ⟨lines, hlines, hwell⟩
    rw [hparse] at hlines
    exact Option.some.inj hlines ▸ hwell
  · intro hwell
    exact ⟨_, hparse, hwell⟩

/-! ## A format of doubles -/

/-- Integers without a point, other doubles as fractions. -/
def fractionText : Double → Str
  | .nan => "nan".toList
  | .num x => if x.den = 1 then Text.padded 0 x.num else Text.padded 0 x.num ++ '/' :: Text.decimal x.den

theorem not_mem_padded {c : Char} {n : ℤ} (hminus : c ≠ '-') (hdigit : c.isDigit = false) :
    c ∉ Text.padded 0 n := by
  intro h
  obtain h | h := Text.mem_padded h
  · exact hminus h
  · rw [hdigit] at h
    cases h

theorem fractionText_num_injective {x y : ℚ} (h : fractionText (.num x) = fractionText (.num y)) : x = y := by
  have hslash : ∀ n : ℤ, '/' ∉ Text.padded 0 n := fun n => not_mem_padded (by decide) (by decide)
  simp only [fractionText] at h
  split_ifs at h with hx hy hy
  · exact Rat.ext (Text.padded_injective h) (hx.trans hy.symm)
  · exact absurd (h ▸ List.mem_append_right _ List.mem_cons_self) (hslash x.num)
  · exact absurd (h ▸ List.mem_append_right _ List.mem_cons_self) (hslash y.num)
  · have hcut := congrArg (Text.cut '/') h
    rw [Text.cut_append (hslash x.num), Text.cut_append (hslash y.num)] at hcut
    obtain ⟨hnum, hden⟩ := Prod.mk.inj (Option.some.inj hcut)
    have hdigits := congrArg Text.digitsVal hden
    rw [Text.digitsVal_decimal, Text.digitsVal_decimal] at hdigits
    exact Rat.ext (Text.padded_injective hnum) (Option.some.inj hdigits)

theorem fractionText_num_ne_nan (x : ℚ) : fractionText (.num x) ≠ fractionText .nan := by
  intro h
  have hletter : 'n' ∉ fractionText (.num x) := by
    have hnum : 'n' ∉ Text.padded 0 x.num := not_mem_padded (by decide) (by decide)
    have hden : 'n' ∉ Text.decimal x.den := fun hmem => absurd (Text.isDigit_of_mem_decimal hmem) (by decide)
    simp only [fractionText]
    split
    · exact hnum
    · simp [hnum, hden]
  exact hletter (h ▸ List.mem_cons_self)

theorem fractionText_injective : Function.Injective fractionText := by
  intro a b h
  match a, b, h with
  | .nan, .nan, _ => rfl
  | .nan, .num x, h => exact absurd h.symm (fractionText_num_ne_nan x)
  | .num x, .nan, h => exact absurd h (fractionText_num_ne_nan x)
  | .num x, .num y, h => rw [fractionText_num_injective h]

theorem fractionText_plain (a : Double) : PlainValue (fractionText a) := by
  intro c hc
  match a with
  | .nan =>
    have hletters : c ∈ ['n', 'a', 'n'] := hc
    simp only [List.mem_cons, List.not_mem_nil, or_false] at hletters
    obtain rfl | rfl | rfl := hletters <;> decide
  | .num x =>
    simp only [fractionText] at hc
    split at hc
    · exact plain_padded 0 x.num c hc
    · obtain hc | hc := List.mem_append.mp hc
      · exact plain_padded 0 x.num c hc
      · obtain rfl | hc := List.mem_cons.mp hc
        · decide
        · exact plain_decimal x.den c hc

def fractionFormat : DoubleFormat := ⟨fractionText, fractionText_injective, fractionText_plain⟩

/-! ## When the text is well formed -/

/-- There is one sample line for each call of `populateMetric`. Every family is declared once, every
sample belongs to one family and no two samples are alike, exactly when no names collide. Without
line feeds and braces in the names, these are the lines that are read from the text. -/
theorem formatProto_wellFormed_iff (format : DoubleFormat) (output : Output)
    (hnames : (output.results.map Result.name).Nodup) :
    ∃ lines, formatProto format output = render lines ∧
      (samples lines).Perm ((output.results.flatMap (resultMetrics format)).map fun m => (entry m).2) ∧
      (((families lines).map Family.name).Nodup ∧
        (∀ s ∈ samples lines, ∃! f, f ∈ families lines ∧ f.Owns s.name) ∧
        ((samples lines).map fun s => (s.name, s.labels)).Nodup ↔ CollisionFree output) ∧
      (PlainNames output → Exposition.parse (formatProto format output) = some lines) := by
  obtain ⟨fs, hnodup, hmem, htext⟩ := exists_formatProto format output
  refine ⟨blocks fs (entries format output), htext, ?_, ?_, fun hplain => ?_⟩
  · have hperm := samples_blocks_perm hnodup fun e he => (hmem e.1).mpr (List.mem_map_of_mem he)
    rwa [entries, List.map_map] at hperm
  · rw [← wellFormed_iff hnodup hmem hnames]
    constructor
    · rintro ⟨hfamilies, hsamples, hkeys⟩
      exact ⟨hfamilies, hsamples, hkeys⟩
    · intro hwell
      exact ⟨hwell.declaredOnce, hwell.owned, hwell.distinct⟩
  · exact parse_formatProto hplain hmem htext

def twoResults : Output :=
  { results := ["global".toList, "a\"b".toList].map fun name =>
      { name, statistics := [{ id := "a.b".toList, percentiles := [⟨none, .num 1, 1⟩] },
        { id := "c".toList }],
        counters := [⟨"d.e".toList, 1⟩] } }

theorem formatProto_wellFormed_twoResults :
    ∃ lines, Exposition.parse (formatProto fractionFormat twoResults) = some lines ∧
      ((families lines).map Family.name).Nodup ∧
      (∀ s ∈ samples lines, ∃! f, f ∈ families lines ∧ f.Owns s.name) ∧
      ((samples lines).map fun s => (s.name, s.labels)).Nodup := by
  obtain ⟨lines, -, -, hwell, hparse⟩ := formatProto_wellFormed_iff fractionFormat twoResults (by decide)
  exact ⟨lines, hparse ⟨by decide, by decide, by decide⟩, hwell.mpr ⟨by decide, by decide⟩⟩

/-- One result has percentiles for the statistic, the other has none. -/
def withAndWithout : Output :=
  { results := [
      { name := "global".toList,
        statistics := [{ id := "a".toList, percentiles := [⟨none, .num (1 / 2), 1⟩] }] },
      { name := "worker_0".toList, statistics := [{ id := "a".toList }] }] }

/-- Two ids that are folded into one name. -/
def foldedTogether : Output :=
  { results := [{ name := "global".toList, statistics := [{ id := "a.b".toList }, { id := "a_b".toList }] }] }

/-- The names of the results, and the ids and counters of each result, are distinct. -/
def Distinct (output : Output) : Prop :=
  (output.results.map Result.name).Nodup ∧
    ∀ r ∈ output.results, (r.statistics.map Results.Statistic.id).Nodup ∧ (r.counters.map Counter.name).Nodup

/-- One result with one counter. -/
def oneCounter (result counter : Str) : Output :=
  { results := [{ name := result, counters := [⟨counter, 1⟩] }] }

theorem not_parsesWellFormed_of_unowned {text : Str} {lines : List Line} {s : Sample}
    (hparse : Exposition.parse text = some lines) (hs : s ∈ samples lines)
    (hunowned : ∀ f ∈ families lines, ¬ f.Owns s.name) : ¬ ParsesWellFormed text := by
  rintro ⟨lines', hlines', hwell⟩
  rw [hparse, Option.some.injEq] at hlines'
  subst hlines'
  obtain ⟨f, ⟨hf, howns⟩, -⟩ := hwell.owned s hs
  exact hunowned f hf howns

/-- In `withAndWithout`, the sample `nighthawk_a_count` belongs to the summary `nighthawk_a` and to
the counter `nighthawk_a_count`. In `foldedTogether`, every sample comes twice. A line feed in a
name breaks its line, and after a brace in a name the sample is not of the declared family. -/
theorem formatProto_collisions :
    Distinct withAndWithout ∧ Distinct foldedTogether ∧
      ∀ format, ¬ ParsesWellFormed (formatProto format withAndWithout) ∧
        ¬ ParsesWellFormed (formatProto format foldedTogether) ∧
        ¬ ParsesWellFormed (formatProto format (oneCounter "a\nb".toList "c".toList)) ∧
        ¬ ParsesWellFormed (formatProto format (oneCounter "a".toList "b\nc".toList)) ∧
        ¬ ParsesWellFormed (formatProto format (oneCounter "a".toList "b\x7bc".toList)) := by
  have hunread : ∀ text, Exposition.parse text = none → ¬ ParsesWellFormed text := by
    rintro text hnone ⟨lines, hlines, -⟩
    rw [hnone] at hlines
    cases hlines
  refine ⟨⟨by decide, by decide⟩, ⟨by decide, by decide⟩, fun format => ⟨fun hwell => ?_, fun hwell => ?_,
    hunread _ rfl, hunread _ rfl, ?_⟩⟩
  · have hfree := (parsesWellFormed_iff format (by decide) ⟨by decide, by decide, by decide⟩).mp hwell
    exact absurd (hfree.free "nighthawk_a".toList (by decide)) (by decide)
  · have hfree := (parsesWellFormed_iff format (by decide) ⟨by decide, by decide, by decide⟩).mp hwell
    exact absurd (hfree.distinct _ List.mem_cons_self).1 (by decide)
  · have hparse : Exposition.parse (formatProto format (oneCounter "a".toList "b\x7bc".toList)) =
        some [.type ⟨"nighthawk_b\x7bc".toList, .counter⟩,
          .sample ⟨"nighthawk_b".toList, "c\x7bscope=\"a\"".toList, "1".toList⟩] := rfl
    apply not_parsesWellFormed_of_unowned hparse
    · exact List.mem_cons_self
    · intro f hf
      obtain rfl := List.mem_singleton.mp hf
      rw [counter_owns]
      decide

end Nighthawk.OutputFormatter.Prometheus

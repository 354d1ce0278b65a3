import Mathlib.Data.Char
import Mathlib.Data.List.Lex
import Mathlib.Data.List.Nodup
import Mathlib.Data.Set.List
import Nighthawk.Lib.SortedMap
import Nighthawk.Lib.Text

/-!
# The text exposition format

Metric families are declared in `TYPE` lines and have sample lines. A summary owns the samples of
its own name, and those with the suffixes `_count` and `_sum`.
-/

namespace Exposition

inductive Kind where
  | counter | summary
  deriving DecidableEq, Repr

def Kind.text : Kind → Str
  | counter => "counter".toList
  | summary => "summary".toList

structure Family where
  name : Str
  kind : Kind
  deriving DecidableEq, Repr

structure Sample where
  name : Str
  labels : Str
  value : Str
  deriving DecidableEq, Repr

inductive Line where
  | type (family : Family)
  | sample (sample : Sample)
  deriving DecidableEq, Repr

def Family.definition (f : Family) : Str := f.name ++ ' ' :: f.kind.text

def Line.text : Line → Str
  | type f => '#' :: ' ' :: 'T' :: 'Y' :: 'P' :: 'E' :: ' ' :: f.definition
  | sample s => s.name ++ '\x7b' :: (s.labels ++ '\x7d' :: ' ' :: s.value)

def render (lines : List Line) : Str := lines.flatMap fun line => line.text ++ ['\n']

/-! ## Reading -/

def Kind.parse (s : Str) : Option Kind :=
  if s = Kind.counter.text then some .counter else if s = Kind.summary.text then some .summary else none

/-- The kind stands after the last space. -/
def Family.parse (s : Str) : Option Family := do
  let i ← Text.rfind ' ' s
  let kind ← Kind.parse (s.drop (i + 1))
  return ⟨s.take i, kind⟩

/-- The labels stand between the first opening and the last closing brace. -/
def Sample.parse (s : Str) : Option Sample := do
  let (name, rest) ← Text.cut '\x7b' s
  let i ← Text.rfind '\x7d' rest
  match rest.drop (i + 1) with
  | ' ' :: value => return ⟨name, rest.take i, value⟩
  | _ => none

def Line.parse : Str → Option Line
  | '#' :: ' ' :: 'T' :: 'Y' :: 'P' :: 'E' :: ' ' :: rest => (Family.parse rest).map .type
  | s => (Sample.parse s).map .sample

/-- Every line ends with a line feed. -/
def parse (s : Str) : Option (List Line) := (s.splitOn '\n').dropLast.mapM Line.parse

theorem Kind.parse_text (k : Kind) : Kind.parse k.text = some k := by
  cases k <;> rfl

theorem Kind.space_not_mem_text (k : Kind) : ' ' ∉ k.text := by
  cases k <;> decide

theorem Kind.newline_not_mem_text (k : Kind) : '\n' ∉ k.text := by
  cases k <;> decide

theorem Family.parse_definition (f : Family) : Family.parse f.definition = some f := by
  unfold Family.parse Family.definition
  rw [Text.rfind_append ' ' f.name f.kind.space_not_mem_text]
  simp [Kind.parse_text]

theorem Family.definition_injective : Function.Injective Family.definition := by
  intro f g h
  have hparse := congrArg Family.parse h
  rw [Family.parse_definition, Family.parse_definition] at hparse
  exact Option.some.inj hparse

/-- A line that can be told apart from others. -/
def Line.Plain : Line → Prop
  | type f => '\n' ∉ f.name
  | sample s => '\n' ∉ s.name ∧ '\n' ∉ s.labels ∧ '\n' ∉ s.value ∧
      s.name.head? ≠ some '#' ∧ '\x7b' ∉ s.name ∧ '\x7d' ∉ s.value

theorem Sample.parse_text {s : Sample} (hname : '\x7b' ∉ s.name) (hvalue : '\x7d' ∉ s.value) :
    Sample.parse (Line.sample s).text = some s := by
  have hrest : '\x7d' ∉ ' ' :: s.value := by
    rw [List.mem_cons, not_or]
    exact ⟨by decide, hvalue⟩
  unfold Sample.parse Line.text
  rw [Text.cut_append hname]
  simp only [Option.bind_eq_bind, Option.bind_some]
  rw [Text.rfind_append _ s.labels hrest]
  simp

theorem Line.parse_text {line : Line} (h : line.Plain) : Line.parse line.text = some line := by
  cases line with
  | type f =>
    show (Family.parse f.definition).map Line.type = _
    rw [f.parse_definition]
    rfl
  | sample s =>
    obtain ⟨-, -, -, hhash, hname, hvalue⟩ := h
    have hsample : ∀ text, (Line.sample s).text = text → text.head? ≠ some '#' → Line.parse text =
        (Sample.parse text).map Line.sample := by
      intro text _ hhead
      unfold Line.parse
      split
      · simp at hhead
      · rfl
    rw [hsample _ rfl ?_, Sample.parse_text hname hvalue]
    · rfl
    · unfold Line.text
      rw [List.head?_append]
      cases hs : s.name.head? with
      | none => simp
      | some c => rwa [hs] at hhash

theorem Line.newline_not_mem_text {line : Line} (h : line.Plain) : '\n' ∉ line.text := by
  cases line with
  | type f =>
    simp only [Line.Plain] at h
    simp [Line.text, Family.definition, h, f.kind.newline_not_mem_text]
  | sample s =>
    obtain ⟨hname, hlabels, hvalue, -⟩ := h
    simp [Line.text, hname, hlabels, hvalue]

theorem parse_render {lines : List Line} (h : ∀ line ∈ lines, line.Plain) :
    parse (render lines) = some lines := by
  have hsplit : (render lines).splitOn '\n' = lines.map Line.text ++ [[]] := by
    unfold render
    induction lines with
    | nil => rfl
    | cons line lines ih =>
      rw [List.flatMap_cons, List.append_assoc, List.singleton_append,
        List.splitOn_append_cons_self_of_not_mem (Line.newline_not_mem_text (h line List.mem_cons_self)),
        ih fun l hl => h l (List.mem_cons_of_mem line hl)]
      rfl
  unfold parse
  rw [hsplit, List.dropLast_concat]
  clear hsplit
  induction lines with
  | nil => rfl
  | cons line lines ih =>
    rw [List.map_cons, List.mapM_cons, Line.parse_text (h line List.mem_cons_self),
      ih fun l hl => h l (List.mem_cons_of_mem line hl)]
    rfl

/-! ## Well-formed expositions -/

def summarySuffixes : List Str := ["_count".toList, "_sum".toList]

def Kind.suffixes : Kind → List Str
  | counter => [[]]
  | summary => [] :: summarySuffixes

/-- The family owns the samples of this name. -/
def Family.Owns (f : Family) (name : Str) : Prop := ∃ suffix ∈ f.kind.suffixes, name = f.name ++ suffix

def families (lines : List Line) : List Family :=
  lines.filterMap fun
    | .type f => some f
    | .sample _ => none

def samples (lines : List Line) : List Sample :=
  lines.filterMap fun
    | .type _ => none
    | .sample s => some s

structure WellFormed (lines : List Line) : Prop where
  declaredOnce : ((families lines).map Family.name).Nodup
  owned : ∀ s ∈ samples lines, ∃! f, f ∈ families lines ∧ f.Owns s.name
  distinct : ((samples lines).map fun s => (s.name, s.labels)).Nodup

/-! ## Samples that are collected by family -/

/-- Each family with its samples. -/
def blocks (fs : List Family) (entries : List (Family × Sample)) : List Line :=
  fs.flatMap fun f => .type f :: (entries.filter (·.1 = f)).map fun e => .sample e.2

theorem families_blocks (fs : List Family) (entries : List (Family × Sample)) :
    families (blocks fs entries) = fs := by
  unfold families blocks
  rw [List.filterMap_flatMap]
  simp

theorem samples_blocks (fs : List Family) (entries : List (Family × Sample)) :
    samples (blocks fs entries) = (fs.flatMap fun f => entries.filter (·.1 = f)).map Prod.snd := by
  unfold samples blocks
  rw [List.filterMap_flatMap, List.map_flatMap]
  simp

theorem flatMap_filter_perm {fs : List Family} (hfs : fs.Nodup) (entries : List (Family × Sample)) :
    (fs.flatMap fun f => entries.filter (·.1 = f)).Perm (entries.filter (·.1 ∈ fs)) := by
  induction fs with
  | nil => simp
  | cons f fs ih =>
    obtain ⟨hf, hfs⟩ := List.nodup_cons.mp hfs
    rw [List.flatMap_cons]
    apply ((ih hfs).append_left _).trans
    have hsplit := List.filter_append_perm (fun e : Family × Sample => decide (e.1 = f))
      (entries.filter (·.1 ∈ f :: fs))
    rw [List.filter_filter, List.filter_filter] at hsplit
    convert hsplit using 2
    · apply List.filter_congr
      intro e _
      by_cases he : e.1 = f <;> simp [he]
    · apply List.filter_congr
      intro e _
      by_cases he : e.1 = f
      · simp [he, hf]
      · simp [he]

variable {fs : List Family} {entries : List (Family × Sample)}

theorem samples_blocks_perm (hfs : fs.Nodup) (hmem : ∀ e ∈ entries, e.1 ∈ fs) :
    (samples (blocks fs entries)).Perm (entries.map Prod.snd) := by
  rw [samples_blocks]
  apply List.Perm.map
  apply (flatMap_filter_perm hfs entries).trans
  rw [List.filter_eq_self.mpr fun e he => decide_eq_true (hmem e he)]

theorem plain_blocks (hfs : ∀ f ∈ fs, f ∈ entries.map Prod.fst)
    (hentries : ∀ e ∈ entries, '\n' ∉ e.1.name ∧ (Line.sample e.2).Plain) :
    ∀ line ∈ blocks fs entries, line.Plain := by
  intro line hline
  obtain ⟨f, hf, hline⟩ := List.mem_flatMap.mp hline
  obtain rfl | hline := List.mem_cons.mp hline
  · obtain ⟨e, he, rfl⟩ := List.mem_map.mp (hfs f hf)
    exact (hentries e he).1
  · obtain ⟨e, he, rfl⟩ := List.mem_map.mp hline
    exact (hentries e (List.mem_filter.mp he).1).2

theorem wellFormed_blocks_iff (hfs : fs.Nodup) (hmem : ∀ e ∈ entries, e.1 ∈ fs) :
    WellFormed (blocks fs entries) ↔
      ((fs.map Family.name).Nodup ∧ ∀ name ∈ entries.map (·.2.name), ∃! f, f ∈ fs ∧ f.Owns name) ∧
        (entries.map fun e => (e.2.name, e.2.labels)).Nodup := by
  have hperm := samples_blocks_perm hfs hmem
  have hnodup := (hperm.map fun s => (s.name, s.labels)).nodup_iff
  rw [List.map_map] at hnodup
  constructor
  · rintro ⟨honce, howned, hdistinct⟩
    rw [families_blocks] at honce howned
    refine ⟨⟨honce, fun name hname => ?_⟩, hnodup.mp hdistinct⟩
    obtain ⟨e, he, rfl⟩ := List.mem_map.mp hname
    exact howned e.2 (hperm.mem_iff.mpr (List.mem_map_of_mem he))
  · rintro ⟨⟨honce, howned⟩, hdistinct⟩
    refine ⟨?_, ?_, hnodup.mpr hdistinct⟩
    · rwa [families_blocks]
    · intro s hs
      rw [families_blocks]
      obtain ⟨e, he, rfl⟩ := List.mem_map.mp (hperm.mem_iff.mp hs)
      exact howned e.2.name (List.mem_map_of_mem he)

/-! ## Streams by family -/

/-- What a map from definitions to streams holds after each sample was written to its family. -/
def collect (entries : List (Family × Sample)) : List (Str × Str) :=
  entries.foldl (fun m e => SortedMap.extend e.1.definition ((Line.sample e.2).text ++ ['\n']) m) []

theorem exists_blocks (entries : List (Family × Sample)) :
    ∃ fs : List Family, fs.Nodup ∧ (∀ f, f ∈ fs ↔ f ∈ entries.map Prod.fst) ∧
      ((collect entries).flatMap fun d => "# TYPE ".toList ++ d.1 ++ ['\n'] ++ d.2) =
        render (blocks fs entries) := by
  let written : Family × Sample → Str × Str := fun e => (e.1.definition, (Line.sample e.2).text ++ ['\n'])
  obtain ⟨ks, hsorted, hmem, hfold⟩ := SortedMap.exists_foldl_extend (entries.map written)
  have hrange : ks ∈ Set.range (List.map Family.definition) := by
    rw [Set.range_list_map]
    intro k hk
    obtain ⟨_, he, rfl⟩ := List.mem_map.mp ((hmem k).mp hk)
    obtain ⟨e, -, rfl⟩ := List.mem_map.mp he
    exact ⟨e.1, rfl⟩
  obtain ⟨fs, rfl⟩ := hrange
  refine ⟨fs, ?_, fun f => ?_, ?_⟩
  · exact List.Nodup.of_map _ (hsorted.imp fun h => h.ne)
  · rw [← List.mem_map_of_injective Family.definition_injective, hmem, List.map_map,
      ← List.mem_map_of_injective Family.definition_injective, List.map_map]
    rfl
  · have hcollect : collect entries =
        (entries.map written).foldl (fun m e => SortedMap.extend e.1 e.2 m) [] := by
      rw [List.foldl_map]
      rfl
    rw [hcollect, hfold, List.map_map, List.flatMap_map, render, blocks, List.flatMap_assoc]
    apply List.flatMap_congr
    intro f _
    have hfilter : ∀ p : Str × Str → Bool, (∀ d, p d = true ↔ d.1 = f.definition) →
        (entries.map written).filter p = (entries.filter (·.1 = f)).map written := by
      intro p hp
      rw [List.filter_map]
      congr 1
      apply List.filter_congr
      intro e _
      rw [Bool.eq_iff_iff, Function.comp_apply, hp, decide_eq_true_iff]
      exact Family.definition_injective.eq_iff
    simp only [Function.comp_apply]
    rw [hfilter _ ?_, List.flatMap_map, List.flatMap_cons, List.flatMap_map]
    · rfl
    · exact fun d => by simp

/-! ## The names -/

/-- No other family has a name of this summary. -/
def Free (counters summaries : List Str) (name : Str) : Prop :=
  name ∉ counters ∧ ∀ suffix ∈ summarySuffixes, name ++ suffix ∉ counters ∧ name ++ suffix ∉ summaries

instance (counters summaries : List Str) (name : Str) : Decidable (Free counters summaries name) :=
  inferInstanceAs (Decidable (_ ∧ _))

/-- The families that these names have. -/
def Declares (counters summaries : List Str) (f : Family) : Prop :=
  (f.kind = .counter ∧ f.name ∈ counters) ∨ (f.kind = .summary ∧ f.name ∈ summaries)

variable {counters summaries : List Str}

theorem declares_counter {n : Str} : Declares counters summaries ⟨n, .counter⟩ ↔ n ∈ counters := by
  simp [Declares]

theorem declares_summary {n : Str} : Declares counters summaries ⟨n, .summary⟩ ↔ n ∈ summaries := by
  simp [Declares]

theorem counter_owns {n name : Str} : (⟨n, .counter⟩ : Family).Owns name ↔ name = n := by
  simp [Family.Owns, Kind.suffixes]

theorem summary_owns {n name : Str} :
    (⟨n, .summary⟩ : Family).Owns name ↔ name = n ∨ ∃ suffix ∈ summarySuffixes, name = n ++ suffix := by
  simp [Family.Owns, Kind.suffixes]

theorem suffix_cancel {n m s t : Str} (hs : s ∈ summarySuffixes) (ht : t ∈ summarySuffixes)
    (h : n ++ s = m ++ t) :
    n = m := by
  have hlast := congrArg List.getLast? h
  simp only [summarySuffixes, List.mem_cons, List.not_mem_nil, or_false] at hs ht
  obtain rfl | rfl := hs <;> obtain rfl | rfl := ht
  · exact List.append_cancel_right h
  · simp [List.getLast?_append] at hlast
  · simp [List.getLast?_append] at hlast
  · exact List.append_cancel_right h

theorem summary_not_owns (hfree : ∀ n ∈ summaries, Free counters summaries n) {n name : Str}
    (hn : n ∈ summaries)
    (hname : name ∈ counters) : ¬ (⟨n, .summary⟩ : Family).Owns name := by
  rw [summary_owns]
  rintro (rfl | ⟨suffix, hsuffix, rfl⟩)
  · exact (hfree _ hn).1 hname
  · exact ((hfree n hn).2 suffix hsuffix).1 hname

theorem owner_unique (hfree : ∀ n ∈ summaries, Free counters summaries n) {f g : Family} {name : Str}
    (hf : Declares counters summaries f) (hg : Declares counters summaries g) (hfn : f.Owns name)
    (hgn : g.Owns name) :
    f = g := by
  obtain ⟨n, kind⟩ := f
  obtain ⟨m, kind'⟩ := g
  cases kind with
  | counter =>
    rw [declares_counter] at hf
    obtain rfl := counter_owns.mp hfn
    cases kind' with
    | counter => rw [counter_owns.mp hgn]
    | summary => exact absurd hgn (summary_not_owns hfree (declares_summary.mp hg) hf)
  | summary =>
    rw [declares_summary] at hf
    cases kind' with
    | counter =>
      obtain rfl := counter_owns.mp hgn
      exact absurd hfn (summary_not_owns hfree hf (declares_counter.mp hg))
    | summary =>
      rw [declares_summary] at hg
      obtain rfl | ⟨s, hs, rfl⟩ := summary_owns.mp hfn <;> obtain rfl | ⟨t, ht, heq⟩ := summary_owns.mp hgn
      · rfl
      · exact absurd (heq ▸ hf) ((hfree m hg).2 t ht).2
      · exact absurd hg ((hfree n hf).2 s hs).2
      · rw [suffix_cancel hs ht heq]

/-- Families of these names are declared once and own their samples alone exactly when every
summary is free. -/
theorem names_iff (hfs : fs.Nodup) (hdeclares : ∀ f, f ∈ fs ↔ Declares counters summaries f)
    {names : List Str}
    (howned : ∀ name ∈ names, ∃ f ∈ fs, f.Owns name)
    (hsuffixed : ∀ n ∈ summaries, ∀ suffix ∈ summarySuffixes, n ++ suffix ∈ names) :
    ((fs.map Family.name).Nodup ∧ ∀ name ∈ names, ∃! f, f ∈ fs ∧ f.Owns name) ↔
      ∀ n ∈ summaries, Free counters summaries n := by
  constructor
  · rintro ⟨honce, hunique⟩ n hn
    have hsummary := (hdeclares ⟨n, .summary⟩).mpr (declares_summary.mpr hn)
    refine ⟨fun hcounter => ?_, fun suffix hsuffix => ?_⟩
    · have hcounter := (hdeclares ⟨n, .counter⟩).mpr (declares_counter.mpr hcounter)
      cases List.inj_on_of_nodup_map honce hsummary hcounter rfl
    · -- The sample `n ++ suffix` is there, and belongs to the summary.
      have howner : ∀ g ∈ fs, g.Owns (n ++ suffix) → (⟨n, .summary⟩ : Family) = g := fun g hg hgn =>
        (hunique _ (hsuffixed n hn suffix hsuffix)).unique
          ⟨hsummary, summary_owns.mpr (Or.inr ⟨suffix, hsuffix, rfl⟩)⟩ ⟨hg, hgn⟩
      constructor
      · intro hcounter
        have hsame := howner _ ((hdeclares _).mpr (declares_counter.mpr hcounter)) (counter_owns.mpr rfl)
        have hkind : Kind.summary = Kind.counter := congrArg Family.kind hsame
        cases hkind
      · intro hsummary'
        have hsame := howner _ ((hdeclares _).mpr (declares_summary.mpr hsummary'))
          (summary_owns.mpr (Or.inl rfl))
        have hnil : suffix = [] := List.append_right_eq_self.mp (congrArg Family.name hsame).symm
        rw [hnil] at hsuffix
        exact absurd hsuffix (by decide)
  · intro hfree
    refine ⟨List.Nodup.map_on ?_ hfs, fun name hname => ?_⟩
    · intro f hf g hg hname
      have hself : ∀ h : Family, h.Owns h.name := by
        intro h
        refine ⟨[], ?_, (List.append_nil _).symm⟩
        cases h.kind <;> exact List.mem_cons_self
      exact owner_unique hfree ((hdeclares f).mp hf) ((hdeclares g).mp hg) (hself f) (hname ▸ hself g)
    · obtain ⟨f, hf, hfn⟩ := howned name hname
      refine ⟨f, ⟨hf, hfn⟩, ?_⟩
      rintro g ⟨hg, hgn⟩
      exact owner_unique hfree ((hdeclares g).mp hg) ((hdeclares f).mp hf) hgn hfn

end Exposition

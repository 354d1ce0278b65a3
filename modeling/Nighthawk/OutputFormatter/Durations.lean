import Nighthawk.OutputFormatter.Code

/-!
# Rendered durations

The console and CSV formatters take the seconds modulo 1000. Below 1000 seconds the text says what
the duration is.
-/

namespace Nighthawk.OutputFormatter

open Options

/-! ## The text -/

theorem letter_not_mem_padded {c : Char} (hsign : c ≠ '-') (hdigit : c.isDigit = false) (width : ℕ) (n : ℤ) :
    c ∉ Text.padded width n := by
  intro h
  obtain rfl | h := Text.mem_padded h
  · exact hsign rfl
  · rw [hdigit] at h
    exact absurd h Bool.false_ne_true

theorem secondsText_eq (s ms us : ℤ) :
    secondsText s ms us = Text.padded 0 s ++ 's' :: ' ' :: (Text.padded 3 ms ++ 'm' :: 's' :: ' ' ::
      (Text.padded 3 us ++ 'u' :: ['s'])) := by
  unfold secondsText
  simp

theorem secondsText_injective {s ms us s' ms' us' : ℤ} (h : secondsText s ms us = secondsText s' ms' us') :
    s = s' ∧ ms = ms' ∧ us = us' := by
  rw [secondsText_eq, secondsText_eq] at h
  have hs := letter_not_mem_padded (c := 's') (by decide) rfl
  have hm := letter_not_mem_padded (c := 'm') (by decide) rfl
  have hu := letter_not_mem_padded (c := 'u') (by decide) rfl
  have hseconds := congrArg (Text.cut 's') h
  rw [Text.cut_append (hs 0 s), Text.cut_append (hs 0 s')] at hseconds
  obtain ⟨hseconds, h⟩ := Prod.mk.inj (Option.some.inj hseconds)
  have hmillis := congrArg (Text.cut 'm') (List.cons.inj h).2
  rw [Text.cut_append (hm 3 ms), Text.cut_append (hm 3 ms')] at hmillis
  obtain ⟨hmillis, h⟩ := Prod.mk.inj (Option.some.inj hmillis)
  have hmicros := congrArg (Text.cut 'u') (List.cons.inj (List.cons.inj h).2).2
  rw [Text.cut_append (hu 3 us), Text.cut_append (hu 3 us')] at hmicros
  obtain ⟨hmicros, -⟩ := Prod.mk.inj (Option.some.inj hmicros)
  exact ⟨Text.padded_injective hseconds, Text.padded_injective hmillis, Text.padded_injective hmicros⟩

/-! ## What a text says -/

def NonNegative (d : Duration) : Prop := 0 ≤ d.seconds ∧ 0 ≤ d.nanos

def wholeMicroseconds (d : Duration) : ℤ := (d.seconds * 1000000000 + d.nanos) / 1000

/-- The text names the whole microseconds, as seconds, milliseconds and microseconds. -/
def Faithful (text : Str) (d : Duration) : Prop :=
  ∃ s ms us : ℕ, text = secondsText s ms us ∧ ms < 1000 ∧ us < 1000 ∧
    (s * 1000000 + ms * 1000 + us : ℤ) = wholeMicroseconds d

theorem Faithful.eq {text : Str} {d d' : Duration} (h : Faithful text d) (h' : Faithful text d') :
    wholeMicroseconds d = wholeMicroseconds d' := by
  obtain ⟨s, ms, us, htext, -, -, hsum⟩ := h
  obtain ⟨s', ms', us', htext', -, -, hsum'⟩ := h'
  obtain ⟨hs, hms, hus⟩ := secondsText_injective (htext.symm.trans htext')
  rw [← hsum, ← hsum', hs, hms, hus]

theorem durationToMicroseconds_eq {d : Duration} (hd : NonNegative d) :
    durationToMicroseconds d = int64 (wholeMicroseconds d) := by
  obtain ⟨-, hnanos⟩ := hd
  unfold durationToMicroseconds wholeMicroseconds
  rw [Int.tdiv_eq_ediv_of_nonneg hnanos]
  congr 1
  omega

theorem wholeMicroseconds_nonneg {d : Duration} (hd : NonNegative d) : 0 ≤ wholeMicroseconds d := by
  obtain ⟨hseconds, hnanos⟩ := hd
  unfold wholeMicroseconds
  omega

theorem splitMicroseconds_of_lt {d : Duration} {x : ℤ} (h0 : 0 ≤ x) (hx : x < 1000000000)
    (hwhole : wholeMicroseconds d = x) : Faithful (splitMicroseconds x) d := by
  refine ⟨(x / 1000000).toNat, (x % 1000000 / 1000).toNat, (x % 1000).toNat, ?_, by omega, by omega, by omega⟩
  unfold splitMicroseconds
  rw [Int.tmod_eq_emod_of_nonneg h0, Int.tmod_eq_emod_of_nonneg h0, Int.tmod_eq_emod_of_nonneg h0,
    Int.tdiv_eq_ediv_of_nonneg (by omega), Int.tdiv_eq_ediv_of_nonneg (by omega),
    Int.toNat_of_nonneg (by omega), Int.toNat_of_nonneg (by omega), Int.toNat_of_nonneg (by omega),
    Int.emod_eq_of_lt h0 hx]

theorem lt_of_faithful {d : Duration} {x : ℤ} (h : Faithful (splitMicroseconds x) d) :
    wholeMicroseconds d < 1000000000 := by
  obtain ⟨s, ms, us, htext, hms, hus, hsum⟩ := h
  obtain ⟨hs, -, -⟩ := secondsText_injective htext
  have hrest : x.tmod 1000000000 < 1000000000 := Int.tmod_lt_of_pos x (by decide)
  have hseconds : (x.tmod 1000000000).tdiv 1000000 < 1000 := by
    obtain hneg | hpos := lt_or_ge (x.tmod 1000000000) 0
    · have hnonneg : 0 ≤ (-x.tmod 1000000000).tdiv 1000000 := Int.tdiv_nonneg (by omega) (by decide)
      rw [Int.neg_tdiv] at hnonneg
      omega
    · rw [Int.tdiv_eq_ediv_of_nonneg hpos]
      omega
  omega

theorem faithful_iff {d : Duration} (hd : NonNegative d) :
    Faithful (splitMicroseconds (durationToMicroseconds d)) d ↔ wholeMicroseconds d < 1000000000 := by
  refine ⟨lt_of_faithful, fun hlt => ?_⟩
  have hnonneg := wholeMicroseconds_nonneg hd
  have hint : durationToMicroseconds d = wholeMicroseconds d := by
    rw [durationToMicroseconds_eq hd]
    exact Int.bmod_eq_of_le (by omega) (by omega)
  rw [hint]
  exact splitMicroseconds_of_lt hnonneg hlt rfl

/-- Both formatters render a duration faithfully exactly when it is shorter than 1000 seconds, and
below that no two texts are alike. -/
theorem formatProtoDuration_faithful_iff (d : Duration) (hd : NonNegative d) :
    (Faithful (Console.formatProtoDuration d) d ↔ wholeMicroseconds d < 1000000000) ∧
    (Faithful (Csv.formatProtoDuration d) d ↔ wholeMicroseconds d < 1000000000) ∧
    ∀ d', NonNegative d' → wholeMicroseconds d < 1000000000 → wholeMicroseconds d' < 1000000000 →
      Console.formatProtoDuration d = Console.formatProtoDuration d' ∨
        Csv.formatProtoDuration d = Csv.formatProtoDuration d' →
      wholeMicroseconds d = wholeMicroseconds d' := by
  refine ⟨faithful_iff hd, faithful_iff hd, ?_⟩
  intro d' hd' hlt hlt' hsame
  have hsplit : splitMicroseconds (durationToMicroseconds d) =
      splitMicroseconds (durationToMicroseconds d') :=
    hsame.elim id id
  exact ((faithful_iff hd).mpr hlt).eq (hsplit ▸ (faithful_iff hd').mpr hlt')

theorem formatProtoDuration_faithful_999 :
    wholeMicroseconds ⟨999, 999999999⟩ = 999999999 ∧
      Faithful (Console.formatProtoDuration ⟨999, 999999999⟩) ⟨999, 999999999⟩ :=
  ⟨by decide, (formatProtoDuration_faithful_iff ⟨999, 999999999⟩ ⟨by decide, by decide⟩).1.mpr (by decide)⟩

/-- 1000 seconds are printed as no time at all. -/
theorem formatProtoDuration_thousand :
    Console.formatProtoDuration ⟨1000, 0⟩ = "0s 000ms 000us".toList ∧
    Csv.formatProtoDuration ⟨1000, 0⟩ = "0s 000ms 000us".toList ∧
    Console.formatProtoDuration ⟨1000, 0⟩ = Console.formatProtoDuration ⟨0, 0⟩ ∧
    wholeMicroseconds ⟨1000, 0⟩ ≠ wholeMicroseconds ⟨0, 0⟩ ∧
    ¬ Faithful (Console.formatProtoDuration ⟨1000, 0⟩) ⟨1000, 0⟩ ∧
    ¬ Faithful (Csv.formatProtoDuration ⟨1000, 0⟩) ⟨1000, 0⟩ := by
  refine ⟨by decide, by decide, by decide, by decide, ?_, ?_⟩
  · intro h
    exact absurd (lt_of_faithful h) (by decide)
  · intro h
    exact absurd (lt_of_faithful h) (by decide)

end Nighthawk.OutputFormatter

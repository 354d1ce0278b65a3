import Mathlib.Algebra.BigOperators.Group.List.Basic
import Mathlib.Algebra.Order.Group.Defs
import Mathlib.Data.List.Induction
import Mathlib.Tactic.Abel

/-!
# A stopwatch

A stopwatch is started and stopped at given times, and keeps the intervals in between. Starting
it while it runs and stopping it while it stands do nothing.
-/

namespace Stopwatch

inductive Mark (τ : Type*) where
  | start (time : τ)
  | stop (time : τ)

def Mark.time {τ : Type*} : Mark τ → τ
  | start time => time
  | stop time => time

end Stopwatch

/-- The intervals so far, and since when it runs. -/
structure Stopwatch (τ : Type*) where
  intervals : List (τ × τ) := []
  pending : Option τ := none

namespace Stopwatch

variable {τ ε : Type*}

def press (w : Stopwatch τ) : Mark τ → Stopwatch τ
  | .start time => { w with pending := some (w.pending.getD time) }
  | .stop time =>
    match w.pending with
    | none => w
    | some start => { intervals := w.intervals ++ [(start, time)] }

variable (mark : ε → Mark τ)

def after (es : List ε) : Stopwatch τ := es.foldl (fun w e => w.press (mark e)) {}

theorem after_snoc (es : List ε) (e : ε) : after mark (es ++ [e]) = (after mark es).press (mark e) := by
  simp [after]

/-! ## Where the intervals come from -/

theorem of_pending {es : List ε} {t : τ} (h : (after mark es).pending = some t) :
    ∃ before e starts, es = before ++ e :: starts ∧ mark e = .start t ∧
      ∀ e ∈ starts, ∃ u, mark e = .start u := by
  induction es using List.reverseRecOn with
  | nil => cases h
  | append_singleton es e ih =>
    rw [after_snoc] at h
    cases hmark : mark e with
    | start u =>
      rw [hmark, press] at h
      cases hpending : (after mark es).pending with
      | none =>
        rw [hpending] at h
        exact ⟨es, e, [], rfl, hmark.trans (congrArg Mark.start (Option.some.inj h)), by simp⟩
      | some v =>
        rw [hpending] at h
        obtain rfl : v = t := Option.some.inj h
        obtain ⟨before, d, starts, rfl, hd, hstarts⟩ := ih hpending
        refine ⟨before, d, starts ++ [e], by simp, hd, fun e' he' => ?_⟩
        rcases List.mem_append.mp he' with he' | he'
        · exact hstarts e' he'
        · exact ⟨u, by rw [List.mem_singleton.mp he', hmark]⟩
    | stop u =>
      rw [hmark, press] at h
      split at h
      · rename_i hnone
        rw [hnone] at h
        cases h
      · cases h

/-- An interval runs from an event that starts the watch to the first later one that stops it. -/
theorem of_mem_intervals {es : List ε} {i : τ × τ} (h : i ∈ (after mark es).intervals) :
    ∃ before e starts d later, es = before ++ e :: starts ++ d :: later ∧ mark e = .start i.1 ∧
      mark d = .stop i.2 ∧
      ∀ e ∈ starts, ∃ u, mark e = .start u := by
  induction es using List.reverseRecOn with
  | nil => cases h
  | append_singleton es e ih =>
    -- An earlier interval has its events already.
    have hearlier (hi : i ∈ (after mark es).intervals) :
        ∃ before d starts d' later, es ++ [e] = before ++ d :: starts ++ d' :: later ∧ mark d = .start i.1 ∧
          mark d' = .stop i.2 ∧ ∀ e ∈ starts, ∃ u, mark e = .start u := by
      obtain ⟨before, d, starts, d', later, rfl, hrest⟩ := ih hi
      exact ⟨before, d, starts, d', later ++ [e], by simp, hrest⟩
    rw [after_snoc] at h
    cases hmark : mark e with
    | start u =>
      rw [hmark] at h
      exact hearlier h
    | stop u =>
      rw [hmark, press] at h
      split at h
      · exact hearlier h
      · rename_i start hpending
        rcases List.mem_append.mp h with h | h
        · exact hearlier h
        · obtain rfl := List.mem_singleton.mp h
          obtain ⟨before, d, starts, rfl, hd, hstarts⟩ := of_pending mark hpending
          exact ⟨before, d, starts, e, [], rfl, hd, hmark, hstarts⟩

/-! ## A clock that does not go back -/

variable [AddCommGroup τ] [LinearOrder τ] [IsOrderedAddMonoid τ]

def total (w : Stopwatch τ) : τ := (w.intervals.map fun i => i.2 - i.1).sum

/-- What it shows at time `t`, used since `first`. -/
structure Sound (first t : τ) (w : Stopwatch τ) : Prop where
  ordered : ∀ i ∈ w.intervals, i.1 ≤ i.2
  disjoint : w.intervals.Pairwise fun i j => i.2 ≤ j.1
  ended : ∀ i ∈ w.intervals, i.2 ≤ w.pending.getD t
  pending : w.pending.getD t ≤ t
  total : w.total ≤ w.pending.getD t - first

theorem Sound.later {first t u : τ} {w : Stopwatch τ} (h : Sound first t w) (htu : t ≤ u) :
    Sound first u w := by
  obtain ⟨ordered, disjoint, ended, pending, total⟩ := h
  cases hpending : w.pending with
  | none =>
    simp only [hpending, Option.getD_none] at ended pending total
    refine ⟨ordered, disjoint, fun i hi => ?_, ?_, ?_⟩
    · rw [hpending]
      exact (ended i hi).trans htu
    · rw [hpending]
      exact le_rfl
    · rw [hpending]
      exact total.trans (sub_le_sub_right htu first)
  | some start =>
    simp only [hpending, Option.getD_some] at ended pending total
    refine ⟨ordered, disjoint, fun i hi => ?_, ?_, ?_⟩
    · rw [hpending]
      exact ended i hi
    · rw [hpending]
      exact pending.trans htu
    · rw [hpending]
      exact total

theorem Sound.press {first t : τ} {w : Stopwatch τ} (h : Sound first t w) {m : Mark τ} (hm : m.time = t) :
    Sound first t (w.press m) := by
  obtain ⟨ordered, disjoint, ended, pending, total⟩ := h
  cases m with
  | start u =>
    obtain rfl : u = t := hm
    exact ⟨ordered, disjoint, ended, pending, total⟩
  | stop u =>
    obtain rfl : u = t := hm
    rw [Stopwatch.press]
    split
    · exact ⟨ordered, disjoint, ended, pending, total⟩
    · rename_i start hpending
      rw [hpending, Option.getD_some] at pending total
      simp only [hpending, Option.getD_some] at ended
      refine ⟨fun i hi => ?_, ?_, fun i hi => ?_, le_rfl, ?_⟩
      · rcases List.mem_append.mp hi with hi | hi
        · exact ordered i hi
        · rw [List.mem_singleton.mp hi]
          exact pending
      · refine List.pairwise_append.mpr ⟨disjoint, List.pairwise_singleton _ _, fun i hi j hj => ?_⟩
        rw [List.mem_singleton.mp hj]
        exact ended i hi
      · rcases List.mem_append.mp hi with hi | hi
        · exact (ended i hi).trans pending
        · rw [List.mem_singleton.mp hi]
          exact le_rfl
      · simp only [Stopwatch.total, List.map_append, List.map_singleton, List.sum_append, List.sum_singleton]
        calc w.total + (u - start) ≤ start - first + (u - start) := by gcongr
          _ = u - first := by abel

theorem sound_after {first last : τ} {es : List ε}
    (hsorted : (es.map fun e => (mark e).time).Pairwise (· ≤ ·))
    (hfirst : ∀ e ∈ es, first ≤ (mark e).time) (hlast : ∀ e ∈ es, (mark e).time ≤ last) (h : first ≤ last) :
    Sound first last (after mark es) := by
  induction es using List.reverseRecOn generalizing last with
  | nil => exact ⟨by simp [after], by simp [after], by simp [after], le_rfl, by simpa [after, total] using h⟩
  | append_singleton es e ih =>
    rw [List.map_append, List.pairwise_append] at hsorted
    obtain ⟨hes, -, hle⟩ := hsorted
    have hprev : ∀ d ∈ es, (mark d).time ≤ (mark e).time := fun d hd =>
      hle _ (List.mem_map_of_mem hd) _ (by simp)
    have hsound := ih hes (fun d hd => hfirst d (by simp [hd])) hprev (hfirst e (by simp))
    rw [after_snoc]
    exact (hsound.press rfl).later (hlast e (by simp))

end Stopwatch

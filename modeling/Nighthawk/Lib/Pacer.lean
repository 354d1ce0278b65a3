import Mathlib.Algebra.Order.Ring.Int

/-!
# Pacing by a schedule

A pacer hands out units so that their number follows a schedule: a function from the time since
the first reading of the clock to the units that are due by then. It reads the clock only when
it has nothing left to hand out.
-/

structure Pacer where
  start : Option ℤ := none
  available : ℤ := 0
  taken : ℤ := 0
  deriving DecidableEq, Repr

namespace Pacer

def take (p : Pacer) : Pacer := { p with available := p.available - 1, taken := p.taken + 1 }

def giveBack (p : Pacer) : Pacer := { p with available := p.available + 1, taken := p.taken - 1 }

/-- What is due at `now` and not taken becomes available. -/
def refill (schedule : ℤ → ℤ) (p : Pacer) (now : ℤ) : Pacer :=
  { p with start := some (p.start.getD now), available := schedule (now - p.start.getD now) - p.taken }

/-- One poll. `now` is what the clock shows if it is read. -/
def poll (schedule : ℤ → ℤ) (p : Pacer) (now : ℤ) : Bool × Pacer :=
  if 0 < p.available then (true, p.take)
  else
    let p := p.refill schedule now
    if 0 < p.available then (true, p.take) else (false, p)

/-- The units that are due at time `t`. -/
def due (schedule : ℤ → ℤ) (p : Pacer) (t : ℤ) : ℤ :=
  match p.start with
  | none => 0
  | some start => schedule (t - start)

/-- Nothing is due at first, and never less than before. -/
structure Schedule (schedule : ℤ → ℤ) : Prop where
  zero : schedule 0 = 0
  mono : ∀ {a b : ℤ}, 0 ≤ a → a ≤ b → schedule a ≤ schedule b

/-- What was taken and what is available is due at time `t`. -/
structure Tracks (schedule : ℤ → ℤ) (p : Pacer) (t : ℤ) : Prop where
  started : ∀ start, p.start = some start → start ≤ t
  available : 0 ≤ p.available
  total : p.taken + p.available ≤ p.due schedule t

variable {schedule : ℤ → ℤ} {p : Pacer} {t u now : ℤ}

theorem tracks_new (schedule : ℤ → ℤ) (t : ℤ) : Tracks schedule {} t := ⟨nofun, le_rfl, le_rfl⟩

theorem due_mono (hs : Schedule schedule) (hp : ∀ start, p.start = some start → start ≤ t) (h : t ≤ u) :
    p.due schedule t ≤ p.due schedule u := by
  cases hstart : p.start with
  | none => simp [due, hstart]
  | some start =>
    have hle := hp start hstart
    simp only [due, hstart]
    exact hs.mono (by omega) (by omega)

theorem Tracks.later (hs : Schedule schedule) (hp : Tracks schedule p t) (h : t ≤ u) :
    Tracks schedule p u where
  started start hstart := (hp.started start hstart).trans h
  available := hp.available
  total := hp.total.trans (due_mono hs hp.started h)

theorem due_refill (schedule : ℤ → ℤ) (p : Pacer) (now : ℤ) :
    (p.refill schedule now).due schedule now = p.taken + (p.refill schedule now).available := by
  simp [due, refill]

theorem refill_tracks (hs : Schedule schedule) (hp : Tracks schedule p t) (h : t ≤ now) :
    Tracks schedule (p.refill schedule now) now := by
  have htotal := (hp.later hs h).total
  have havail := hp.available
  refine ⟨?_, ?_, ?_⟩
  · intro start hstart
    cases hold : p.start with
    | none =>
      simp only [refill, hold, Option.getD_none, Option.some.injEq] at hstart
      omega
    | some old =>
      have hle := hp.started old hold
      simp only [refill, hold, Option.getD_some, Option.some.injEq] at hstart
      omega
  · cases hold : p.start with
    | none =>
      simp only [due, hold] at htotal
      simp only [refill, hold, Option.getD_none, sub_self, hs.zero]
      omega
    | some old =>
      simp only [due, hold] at htotal
      simp only [refill, hold, Option.getD_some]
      omega
  · rw [due_refill]
    exact le_rfl

theorem take_tracks (hp : Tracks schedule p t) (hpos : 0 < p.available) : Tracks schedule p.take t := by
  have htotal := hp.total
  refine ⟨hp.started, ?_, ?_⟩
  · show 0 ≤ p.available - 1
    omega
  · show p.taken + 1 + (p.available - 1) ≤ p.due schedule t
    omega

theorem giveBack_tracks (hp : Tracks schedule p t) : Tracks schedule p.giveBack t := by
  have htotal := hp.total
  have havail := hp.available
  refine ⟨hp.started, ?_, ?_⟩
  · show 0 ≤ p.available + 1
    omega
  · show p.taken - 1 + (p.available + 1) ≤ p.due schedule t
    omega

/-- What a poll can do. A refused poll has read the clock and left nothing available. -/
theorem poll_cases (schedule : ℤ → ℤ) (p : Pacer) (now : ℤ) :
    (0 < p.available ∧ p.poll schedule now = (true, p.take)) ∨
    (p.available ≤ 0 ∧ 0 < (p.refill schedule now).available ∧
      p.poll schedule now = (true, (p.refill schedule now).take)) ∨
    (p.available ≤ 0 ∧ (p.refill schedule now).available ≤ 0 ∧
      p.poll schedule now = (false, p.refill schedule now)) := by
  unfold poll
  simp only
  split_ifs with h1 h2
  · exact Or.inl ⟨h1, rfl⟩
  · exact Or.inr (Or.inl ⟨by omega, h2, rfl⟩)
  · exact Or.inr (Or.inr ⟨by omega, by omega, rfl⟩)

theorem poll_tracks (hs : Schedule schedule) (hp : Tracks schedule p t) (h : t ≤ now) :
    Tracks schedule (p.poll schedule now).2 (if 0 < p.available then t else now) := by
  rcases poll_cases schedule p now with ⟨hpos, heq⟩ | ⟨hle, hpos, heq⟩ | ⟨hle, -, heq⟩
  · rw [heq, if_pos hpos]
    exact take_tracks hp hpos
  · rw [heq, if_neg (by omega)]
    exact take_tracks (refill_tracks hs hp h) hpos
  · rw [heq, if_neg (by omega)]
    exact refill_tracks hs hp h

theorem poll_taken (schedule : ℤ → ℤ) (p : Pacer) (now : ℤ) :
    (p.poll schedule now).2.taken = p.taken + if (p.poll schedule now).1 then 1 else 0 := by
  rcases poll_cases schedule p now with ⟨-, heq⟩ | ⟨-, -, heq⟩ | ⟨-, -, heq⟩ <;> simp [heq, take, refill]

theorem taken_of_refused (hs : Schedule schedule) (hp : Tracks schedule p t) (h : t ≤ now)
    (hr : (p.poll schedule now).1 = false) :
    p.available = 0 ∧ (p.poll schedule now).2.taken = (p.poll schedule now).2.due schedule now := by
  rcases poll_cases schedule p now with ⟨-, heq⟩ | ⟨-, -, heq⟩ | ⟨hle, hzero, heq⟩
  · simp [heq] at hr
  · simp [heq] at hr
  · have hpos := hp.available
    have hpos' := (refill_tracks hs hp h).available
    rw [heq]
    refine ⟨by omega, ?_⟩
    rw [due_refill]
    show p.taken = p.taken + _
    omega

theorem poll_granted_iff (hs : Schedule schedule) (hp : Tracks schedule p t) (h : t ≤ now) :
    (p.poll schedule now).1 = true ↔ p.taken < schedule (now - p.start.getD now) := by
  have htotal := (hp.later hs h).total
  have hrefill : (p.refill schedule now).available = schedule (now - p.start.getD now) - p.taken := rfl
  rcases poll_cases schedule p now with ⟨hpos, heq⟩ | ⟨-, hpos, heq⟩ | ⟨-, hle, heq⟩
  · rw [heq]
    refine iff_of_true rfl ?_
    cases hstart : p.start with
    | none =>
      simp only [due, hstart] at htotal
      simp only [Option.getD_none, sub_self, hs.zero]
      omega
    | some start =>
      simp only [due, hstart] at htotal
      simp only [Option.getD_some]
      omega
  · rw [heq]
    exact iff_of_true rfl (by omega)
  · rw [heq]
    exact iff_of_false (by simp) (by omega)

theorem poll_start (hp : Tracks schedule p t) (htaken : 0 ≤ p.taken) (now : ℤ) :
    (p.poll schedule now).2.start = some (p.start.getD now) := by
  have htotal := hp.total
  rcases poll_cases schedule p now with ⟨hpos, heq⟩ | ⟨-, -, heq⟩ | ⟨-, -, heq⟩
  · rw [heq]
    cases hstart : p.start with
    | none =>
      simp only [due, hstart] at htotal
      omega
    | some start => exact hstart
  · rw [heq]
    rfl
  · rw [heq]
    rfl

end Pacer

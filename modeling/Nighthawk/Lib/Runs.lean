import Mathlib.Data.List.Basic
import Mathlib.Data.List.Induction

/-!
# Runs of a machine

A machine is a step function `σ → ε → Option σ`: an event either is disabled or leads to
exactly one next state. A run executes a list of events.
-/

namespace Runs

variable {σ ε : Type*} (step : σ → ε → Option σ)

/-- The state after the events, or `none` when one of them is disabled. -/
def exec : σ → List ε → Option σ
  | s, [] => some s
  | s, e :: es => (step s e).bind fun s' => exec s' es

@[simp] theorem exec_nil (s : σ) : exec step s [] = some s := rfl

theorem exec_singleton (s : σ) (e : ε) : exec step s [e] = step s e := Option.bind_fun_some _

theorem exec_cons_eq_some {s t : σ} {e : ε} {es : List ε} :
    exec step s (e :: es) = some t ↔ ∃ u, step s e = some u ∧ exec step u es = some t := by
  simp [exec, Option.bind_eq_some_iff]

theorem exec_append (s : σ) (es fs : List ε) :
    exec step s (es ++ fs) = (exec step s es).bind fun u => exec step u fs := by
  induction es generalizing s with
  | nil => rfl
  | cons e es ih =>
    simp only [List.cons_append, exec]
    cases step s e with
    | none => rfl
    | some u => exact ih u

theorem exec_append_eq_some {s t : σ} {es fs : List ε} :
    exec step s (es ++ fs) = some t ↔ ∃ u, exec step s es = some u ∧ exec step u fs = some t := by
  rw [exec_append, Option.bind_eq_some_iff]

theorem exec_snoc_eq_some {s t : σ} {e : ε} {es : List ε} :
    exec step s (es ++ [e]) = some t ↔ ∃ u, exec step s es = some u ∧ step u e = some t := by
  rw [exec_append_eq_some]
  simp [exec_cons_eq_some]

/-! ## Invariants -/

variable {step}

/-- What every step keeps, every run keeps. -/
theorem exec_inv {Inv : σ → Prop} (hstep : ∀ s e t, Inv s → step s e = some t → Inv t) {s t : σ}
    {es : List ε} (hs : Inv s) (h : exec step s es = some t) : Inv t := by
  induction es generalizing s with
  | nil => cases h; exact hs
  | cons e es ih =>
    obtain ⟨u, hu, ht⟩ := (exec_cons_eq_some step).mp h
    exact ih (hstep s e u hs hu) ht

theorem exec_history {Inv : List ε → σ → Prop} {s t : σ} {es : List ε} (hs : Inv [] s)
    (hstep : ∀ es u e t, exec step s es = some u → Inv es u → step u e = some t → Inv (es ++ [e]) t)
    (h : exec step s es = some t) : Inv es t := by
  induction es using List.reverseRecOn generalizing t with
  | nil => cases h; exact hs
  | append_singleton es e ih =>
    obtain ⟨u, hu, ht⟩ := (exec_snoc_eq_some step).mp h
    exact hstep es u e t hu (ih hu) ht

/-- Where each step is matched by a run of another machine, so is each run. -/
theorem exec_simulated {τ φ : Type*} {step' : τ → φ → Option τ} {f : σ → τ} {Inv : σ → Prop}
    (hstep : ∀ s e t, Inv s → step s e = some t → Inv t ∧ ∃ fs, exec step' (f s) fs = some (f t)) {s t : σ}
    {es : List ε} (hs : Inv s) (h : exec step s es = some t) : ∃ fs, exec step' (f s) fs = some (f t) := by
  induction es generalizing s with
  | nil =>
    cases h
    exact ⟨[], rfl⟩
  | cons e es ih =>
    obtain ⟨u, hu, ht⟩ := (exec_cons_eq_some step).mp h
    obtain ⟨hinv, fs, hfs⟩ := hstep s e u hs hu
    obtain ⟨gs, hgs⟩ := ih hinv ht
    exact ⟨fs ++ gs, (exec_append_eq_some step').mpr ⟨f u, hfs, hgs⟩⟩

/-- `Ok` holds of each step of the run, in the state before the step. -/
def AllSteps (step : σ → ε → Option σ) (Ok : σ → ε → Prop) : σ → List ε → Prop
  | _, [] => True
  | s, e :: es => Ok s e ∧ ∀ u, step s e = some u → AllSteps step Ok u es

theorem allSteps_of_forall {Ok : σ → ε → Prop} {es : List ε} (h : ∀ e ∈ es, ∀ s, Ok s e) (s : σ) :
    AllSteps step Ok s es := by
  induction es generalizing s with
  | nil => trivial
  | cons e es ih => exact ⟨h e (by simp) s, fun u _ => ih (fun f hf => h f (by simp [hf])) u⟩

theorem allSteps_snoc {Ok : σ → ε → Prop} {s u : σ} {es : List ε} {e : ε} (h : exec step s es = some u) :
    AllSteps step Ok s (es ++ [e]) ↔ AllSteps step Ok s es ∧ Ok u e := by
  induction es generalizing s with
  | nil =>
    cases h
    simp [AllSteps]
  | cons f es ih =>
    obtain ⟨v, hv, hu⟩ := (exec_cons_eq_some step).mp h
    have hiff : AllSteps step Ok v (es ++ [e]) ↔ AllSteps step Ok v es ∧ Ok u e := ih hu
    simp [AllSteps, hv, hiff, and_assoc]

theorem exec_inv_of_allSteps {Inv : σ → Prop} {Ok : σ → ε → Prop}
    (hstep : ∀ s e t, Inv s → Ok s e → step s e = some t → Inv t) {s t : σ} {es : List ε} (hs : Inv s)
    (hok : AllSteps step Ok s es) (h : exec step s es = some t) : Inv t := by
  induction es generalizing s with
  | nil => cases h; exact hs
  | cons e es ih =>
    obtain ⟨u, hu, ht⟩ := (exec_cons_eq_some step).mp h
    exact ih (hstep s e u hs hok.1 hu) (hok.2 u hu) ht

/-- A run is no longer than what each of its steps takes from `work`. -/
theorem exec_length_le {Inv : σ → Prop} {Ok : σ → ε → Prop} (work : σ → Nat)
    (hstep : ∀ s e t, Inv s → Ok s e → step s e = some t → Inv t ∧ work t < work s) {s t : σ} {es : List ε}
    (hs : Inv s) (hok : AllSteps step Ok s es) (h : exec step s es = some t) :
    es.length + work t ≤ work s := by
  induction es generalizing s with
  | nil => cases h; simp
  | cons e es ih =>
    obtain ⟨u, hu, ht⟩ := (exec_cons_eq_some step).mp h
    obtain ⟨hinv, hlt⟩ := hstep s e u hs hok.1 hu
    have hle := ih hinv (hok.2 u hu) ht
    rw [List.length_cons]
    omega

end Runs

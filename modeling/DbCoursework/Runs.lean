import Mathlib.Data.Option.Basic
import Mathlib.Tactic.Lemma

/-!
Runs of a system whose steps may be undefined.

A step takes a state and an event to the next state, or to nothing when the event has no
defined result there; a run ends at such a step. `Along` speaks of the steps of a run and
`Throughout` of the states it meets; the rules at the end turn what one step does into
what a whole run does.
-/

namespace DbCoursework.Runs

variable {σ α : Type*} (step : σ → α → Option σ)

/-- The state after all the events, if each of them has a defined result. -/
def run : σ → List α → Option σ
  | s, [] => some s
  | s, e :: es => (step s e).bind fun s' => run s' es

/-- Every step the run takes starts from a state and an event related by `P`. -/
def Along (P : σ → α → Prop) : σ → List α → Prop
  | _, [] => True
  | s, e :: es => P s e ∧ ∀ s', step s e = some s' → Along P s' es

/-- Every state the run meets, the first one included, is in `Q`. -/
def Throughout (Q : σ → Prop) : σ → List α → Prop
  | s, [] => Q s
  | s, e :: es => Q s ∧ ∀ s', step s e = some s' → Throughout Q s' es

@[simp] lemma run_nil (s : σ) : run step s [] = some s := rfl

@[simp] lemma run_cons (s : σ) (e : α) (es : List α) :
    run step s (e :: es) = (step s e).bind fun s' => run step s' es := rfl

lemma run_cons_eq_some {s t : σ} {e : α} {es : List α} :
    run step s (e :: es) = some t ↔ ∃ s', step s e = some s' ∧ run step s' es = some t := by
  simp [Option.bind_eq_some_iff]

lemma run_append (s : σ) (es fs : List α) :
    run step s (es ++ fs) = (run step s es).bind fun t => run step t fs := by
  induction es generalizing s with
  | nil => rfl
  | cons e es ih => cases h : step s e <;> simp [run, h, ih]

instance decidableAlong (P : σ → α → Prop) [∀ s e, Decidable (P s e)] :
    ∀ (s : σ) (es : List α), Decidable (Along step P s es)
  | _, [] => isTrue trivial
  | s, e :: es =>
    match h : step s e with
    | none => decidable_of_iff (P s e) (by simp [Along, h])
    | some s' =>
      have := decidableAlong P s' es
      decidable_of_iff (P s e ∧ Along step P s' es) (by simp [Along, h])

variable {step}

lemma Throughout.head {Q : σ → Prop} {s : σ} {es : List α} (h : Throughout step Q s es) :
    Q s := by
  cases es with
  | nil => exact h
  | cons e es => exact h.1

/-- The last state of a run is one of the states it meets. -/
lemma Throughout.last {Q : σ → Prop} {s t : σ} {es : List α} (h : Throughout step Q s es)
    (hrun : run step s es = some t) : Q t := by
  induction es generalizing s with
  | nil => cases hrun; exact h
  | cons e es ih =>
    obtain ⟨s', hs, hr⟩ := (run_cons_eq_some step).mp hrun
    exact ih (h.2 s' hs) hr

/-! ### From one step to a run -/

variable {I : σ → Prop} {P : σ → α → Prop} {Q : σ → Prop}

/-- **Invariants under a condition on the steps.** What each step that meets `P` preserves
holds after a run all of whose steps meet `P`. -/
theorem run_inv_along (hstep : ∀ s e s', I s → P s e → step s e = some s' → I s')
    {s t : σ} {es : List α} (hs : I s) (hP : Along step P s es)
    (hrun : run step s es = some t) : I t := by
  induction es generalizing s with
  | nil => cases hrun; exact hs
  | cons e es ih =>
    obtain ⟨s', h1, hr⟩ := (run_cons_eq_some step).mp hrun
    exact ih (hstep s e s' hs hP.1 h1) (hP.2 s' h1) hr

lemma along_of_forall {es : List α} (h : ∀ e ∈ es, ∀ s, P s e) (s : σ) :
    Along step P s es := by
  induction es generalizing s with
  | nil => trivial
  | cons e es ih =>
    exact ⟨h e (by simp) s, fun s' _ => ih (fun f hf => h f (by simp [hf])) s'⟩

/-- **Invariants.** What every step preserves holds after every run. -/
theorem run_inv (hstep : ∀ s e s', I s → step s e = some s' → I s') {s t : σ} {es : List α}
    (hs : I s) (hrun : run step s es = some t) : I t :=
  run_inv_along (P := fun _ _ => True) (fun s e s' h _ => hstep s e s' h) hs
    (along_of_forall (fun _ _ _ => trivial) s) hrun

/-- **A run stays in `Q` exactly when its steps meet `P`**, if that is so of each step that
starts in `Q`. The events range over those with `A`; `I` is any invariant of the steps. -/
theorem throughout_iff_along {A : α → Prop} (hI : ∀ s e s', I s → step s e = some s' → I s')
    (hQ : ∀ s e s', I s → Q s → A e → step s e = some s' → (Q s' ↔ P s e))
    (hnone : ∀ s e, I s → Q s → A e → step s e = none → P s e)
    {s : σ} {es : List α} (hs : I s) (hq : Q s) (hA : ∀ e ∈ es, A e) :
    Throughout step Q s es ↔ Along step P s es := by
  induction es generalizing s with
  | nil => exact ⟨fun _ => trivial, fun _ => hq⟩
  | cons e es ih =>
    have hAe : A e := hA e (by simp)
    have hAes : ∀ f ∈ es, A f := fun f hf => hA f (by simp [hf])
    rcases hstep : step s e with _ | s'
    · simp [Throughout, Along, hstep, hq, hnone s e hs hq hAe hstep]
    · have key := hQ s e s' hs hq hAe hstep
      constructor
      · rintro ⟨-, h⟩
        have h' := h s' hstep
        refine ⟨key.mp h'.head, fun s'' hs'' => ?_⟩
        obtain rfl : s' = s'' := Option.some.inj (hstep.symm.trans hs'')
        exact (ih (hI s e s' hs hstep) h'.head hAes).mp h'
      · rintro ⟨hp, h⟩
        refine ⟨hq, fun s'' hs'' => ?_⟩
        obtain rfl : s' = s'' := Option.some.inj (hstep.symm.trans hs'')
        exact (ih (hI s e s' hs hstep) (key.mpr hp) hAes).mpr (h s' hstep)

end DbCoursework.Runs

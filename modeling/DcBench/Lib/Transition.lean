import Mathlib.Data.List.Induction

namespace DcBench.Lib.Transition

variable {σ τ ε : Type}

/-- Execute a list of events from left to right. The run is undefined as
soon as one event is not enabled in the state it meets. -/
def run (step : σ → ε → Option σ) : σ → List ε → Option σ
  | s, [] => some s
  | s, e :: es => (step s e).bind (fun t => run step t es)

/-- Every event of the list meets the guard in the state where it is taken. -/
def Along (step : σ → ε → Option σ) (guard : σ → ε → Prop) : σ → List ε → Prop
  | _, [] => True
  | s, e :: es => guard s e ∧ ∀ t, step s e = some t → Along step guard t es

variable {step : σ → ε → Option σ}

@[simp] theorem run_nil (s : σ) : run step s [] = some s := rfl

theorem run_cons (s : σ) (e : ε) (es : List ε) :
    run step s (e :: es) = (step s e).bind (fun t => run step t es) := rfl

theorem run_cons_some {s t : σ} {e : ε} {es : List ε} :
    run step s (e :: es) = some t ↔ ∃ u, step s e = some u ∧ run step u es = some t := by
  rw [run_cons, Option.bind_eq_some_iff]

theorem run_append (s : σ) (es fs : List ε) :
    run step s (es ++ fs) = (run step s es).bind (fun t => run step t fs) := by
  induction es generalizing s with
  | nil => rfl
  | cons e es ih =>
    rw [List.cons_append, run_cons, run_cons, Option.bind_assoc]
    congr 1
    funext t
    exact ih t

theorem run_append_some {s t : σ} {es fs : List ε} :
    run step s (es ++ fs) = some t ↔ ∃ u, run step s es = some u ∧ run step u fs = some t := by
  rw [run_append, Option.bind_eq_some_iff]

theorem run_induction {s : σ} {motive : List ε → σ → Prop} (nil : motive [] s)
    (snoc : ∀ es e t u, run step s es = some t → motive es t → step t e = some u →
      motive (es ++ [e]) u)
    {es : List ε} {t : σ} (h : run step s es = some t) : motive es t := by
  induction es using List.reverseRecOn generalizing t with
  | nil =>
    cases h
    exact nil
  | append_singleton es e ih =>
    obtain ⟨u, hu, he⟩ := run_append_some.mp h
    obtain ⟨v, hv, hr⟩ := run_cons_some.mp he
    cases hr
    exact snoc es e u t hu (ih hu) hv

theorem along_append {guard : σ → ε → Prop} {s t : σ} {es fs : List ε} (hr : run step s es = some t) :
    Along step guard s (es ++ fs) ↔ Along step guard s es ∧ Along step guard t fs := by
  induction es generalizing s with
  | nil =>
    cases hr
    simp [Along]
  | cons f es ih =>
    obtain ⟨u, hu, hr⟩ := run_cons_some.mp hr
    simp only [List.cons_append, Along, hu, Option.some.injEq, forall_eq']
    rw [ih hr, and_assoc]

theorem along_concat {guard : σ → ε → Prop} {s t : σ} {es : List ε} (e : ε) (hr : run step s es = some t) :
    Along step guard s (es ++ [e]) ↔ Along step guard s es ∧ guard t e := by
  rw [along_append hr]
  simp [Along]

theorem along_of_forall {guard : σ → ε → Prop} {es : List ε} (h : ∀ e ∈ es, ∀ s, guard s e) (s : σ) :
    Along step guard s es := by
  induction es generalizing s with
  | nil => exact trivial
  | cons e es ih =>
    exact ⟨h e (List.mem_cons_self ..) s, fun t _ => ih (fun f hf => h f (List.mem_cons_of_mem e hf)) t⟩

theorem invariant {P : σ → Prop} (hstep : ∀ s e t, P s → step s e = some t → P t)
    {s t : σ} {es : List ε} (hs : P s) (hr : run step s es = some t) : P t := by
  induction es generalizing s with
  | nil =>
    cases hr
    exact hs
  | cons e es ih =>
    obtain ⟨u, hu, hr⟩ := run_cons_some.mp hr
    exact ih (hstep s e u hs hu) hr

theorem invariant_along {guard : σ → ε → Prop} {P : σ → Prop}
    (hstep : ∀ s e t, P s → guard s e → step s e = some t → P t) {s t : σ} {es : List ε} (hs : P s)
    (hr : run step s es = some t) (ha : Along step guard s es) : P t := by
  induction es generalizing s with
  | nil =>
    cases hr
    exact hs
  | cons e es ih =>
    obtain ⟨u, hu, hr⟩ := run_cons_some.mp hr
    exact ih (hstep s e u hs ha.1 hu) hr (ha.2 u hu)

/-- A property of states that a step keeps exactly when it meets the guard holds
at the end of a run exactly when all its steps meet the guard. -/
theorem iff_along {guard : σ → ε → Prop} {I P : σ → Prop}
    (hinv : ∀ s e t, I s → step s e = some t → I t)
    (hstep : ∀ s e t, I s → step s e = some t → (P t ↔ P s ∧ guard s e)) {s t : σ} {es : List ε}
    (hI : I s) (hs : P s) (hr : run step s es = some t) : P t ↔ Along step guard s es := by
  refine run_induction (motive := fun es t => P t ↔ Along step guard s es) ?_ ?_ hr
  · exact iff_of_true hs trivial
  · intro es e t u hrun ih he
    rw [along_concat e hrun, hstep t e u (invariant hinv hI hrun) he, ih]

/-- A map that commutes with every step from the states of an invariant
commutes with whole runs: the image machine makes exactly the same moves. -/
theorem run_map {step' : τ → ε → Option τ} {f : σ → τ} {P : σ → Prop}
    (hinv : ∀ s e t, P s → step s e = some t → P t)
    (hf : ∀ s e, P s → (step s e).map f = step' (f s) e) {s : σ} (hs : P s) (es : List ε) :
    (run step s es).map f = run step' (f s) es := by
  induction es generalizing s with
  | nil => rfl
  | cons e es ih =>
    rw [run_cons, run_cons, ← hf s e hs]
    cases he : step s e with
    | none => rfl
    | some t => exact ih (hinv s e t hs he)

end DcBench.Lib.Transition

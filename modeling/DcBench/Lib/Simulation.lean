import DcBench.Lib.Transition

namespace DcBench.Lib.Simulation

open DcBench.Lib

variable {σ τ ε δ : Type} {step : σ → ε → Option σ} {step' : τ → δ → Option τ}

/-- The events of another machine that a run shows, at most one for each of its
own events. -/
def trace (step : σ → ε → Option σ) (obs : σ → ε → Option δ) : σ → List ε → List δ
  | _, [] => []
  | s, e :: es => (obs s e).toList ++ (step s e).elim [] (fun t => trace step obs t es)

theorem trace_cons {obs : σ → ε → Option δ} {s t : σ} {e : ε} (es : List ε) (h : step s e = some t) :
    trace step obs s (e :: es) = (obs s e).toList ++ trace step obs t es := by
  rw [trace, h]
  rfl

theorem trace_eq_filterMap {f : ε → Option δ} {s t : σ} {es : List ε} (h : Transition.run step s es = some t) :
    trace step (fun _ => f) s es = es.filterMap f := by
  induction es generalizing s with
  | nil => rfl
  | cons e es ih =>
    obtain ⟨u, hu, hr⟩ := Transition.run_cons_some.mp h
    rw [trace_cons es hu, ih hr]
    cases hf : f e <;> simp [hf]

/-- A map of states under which every step is one step of the other machine,
the one it shows, or none at all. -/
def Follows (step : σ → ε → Option σ) (step' : τ → δ → Option τ) (obs : σ → ε → Option δ) (f : σ → τ)
    (I : σ → Prop) : Prop :=
  ∀ s e t, I s → step s e = some t → Transition.run step' (f s) (obs s e).toList = some (f t)

theorem run_trace {obs : σ → ε → Option δ} {f : σ → τ} {I : σ → Prop}
    (hinv : ∀ s e t, I s → step s e = some t → I t) (hf : Follows step step' obs f I)
    {s t : σ} {es : List ε} (hs : I s) (hr : Transition.run step s es = some t) :
    Transition.run step' (f s) (trace step obs s es) = some (f t) := by
  induction es generalizing s with
  | nil =>
    cases hr
    rfl
  | cons e es ih =>
    obtain ⟨u, hu, hr⟩ := Transition.run_cons_some.mp hr
    rw [trace_cons es hu]
    exact Transition.run_append_some.mpr ⟨f u, hf s e u hs hu, ih (hinv s e u hs hu) hr⟩

theorem trace_append {obs : σ → ε → Option δ} {s t : σ} {es : List ε} (fs : List ε)
    (h : Transition.run step s es = some t) :
    trace step obs s (es ++ fs) = trace step obs s es ++ trace step obs t fs := by
  induction es generalizing s with
  | nil =>
    cases h
    rfl
  | cons e es ih =>
    obtain ⟨u, hu, hr⟩ := Transition.run_cons_some.mp h
    rw [List.cons_append, trace_cons _ hu, trace_cons _ hu, ih hr, List.append_assoc]

theorem trace_trace {γ : Type} {obs : σ → ε → Option δ} {out : τ → δ → Option γ} {out' : σ → ε → Option γ}
    {f : σ → τ} {I : σ → Prop} (hinv : ∀ s e t, I s → step s e = some t → I t)
    (hf : Follows step step' obs f I)
    (h : ∀ s e t, I s → step s e = some t → (obs s e).bind (out (f s)) = out' s e)
    {s t : σ} {es : List ε} (hs : I s) (hr : Transition.run step s es = some t) :
    trace step' out (f s) (trace step obs s es) = trace step out' s es := by
  induction es generalizing s with
  | nil => rfl
  | cons e es ih =>
    obtain ⟨u, hu, hr⟩ := Transition.run_cons_some.mp hr
    have hrun := hf s e u hs hu
    rw [trace_cons es hu, trace_cons es hu, trace_append _ hrun, ih (hinv s e u hs hu) hr, ← h s e u hs hu]
    congr 1
    cases hob : obs s e with
    | none => rfl
    | some d =>
      rw [hob] at hrun
      obtain ⟨b, hb, -⟩ := Transition.run_cons_some.mp hrun
      simp [trace, hb]

/-- A relation that each step keeps with the event it shows is kept by a run with its
trace. -/
theorem exists_run_trace {obs : σ → ε → Option δ} {R : σ → τ → Prop}
    (hstep : ∀ s e t a, R s a → step s e = some t → ∃ b, Transition.run step' a (obs s e).toList = some b ∧ R t b)
    {s t : σ} {a : τ} {es : List ε} (hs : R s a) (hr : Transition.run step s es = some t) :
    ∃ b, Transition.run step' a (trace step obs s es) = some b ∧ R t b := by
  induction es generalizing s a with
  | nil =>
    cases hr
    exact ⟨a, rfl, hs⟩
  | cons e es ih =>
    obtain ⟨u, hu, hr⟩ := Transition.run_cons_some.mp hr
    obtain ⟨b, hb, hR⟩ := hstep s e u a hs hu
    obtain ⟨c, hc, hR'⟩ := ih hR hr
    rw [trace_cons es hu]
    exact ⟨c, Transition.run_append_some.mpr ⟨b, hb, hc⟩, hR'⟩

theorem countP_le_length_trace {obs : σ → ε → Option δ} {p p' : ε → Bool}
    (h : ∀ s e t, step s e = some t → p e = true → p' e = true ∨ (obs s e).isSome = true)
    {s t : σ} {es : List ε} (hr : Transition.run step s es = some t) :
    es.countP p ≤ es.countP p' + (trace step obs s es).length := by
  induction es generalizing s with
  | nil => simp
  | cons e es ih =>
    obtain ⟨u, hu, hr⟩ := Transition.run_cons_some.mp hr
    have htail := ih hr
    rw [trace_cons es hu, List.length_append, List.countP_cons, List.countP_cons]
    by_cases hp : p e = true
    · obtain hp' | hobs := h s e u hu hp
      · rw [if_pos hp, if_pos hp']
        omega
      · obtain ⟨d, hd⟩ := Option.isSome_iff_exists.mp hobs
        rw [if_pos hp, hd]
        simp only [Option.toList_some, List.length_singleton]
        omega
    · rw [if_neg hp]
      omega

/-- A relation that the other machine can keep up in some number of steps. -/
theorem exists_run {R : σ → τ → Prop}
    (hstep : ∀ s e t a, R s a → step s e = some t → ∃ ds b, Transition.run step' a ds = some b ∧ R t b)
    {s t : σ} {a : τ} {es : List ε} (hs : R s a) (hr : Transition.run step s es = some t) :
    ∃ ds b, Transition.run step' a ds = some b ∧ R t b := by
  induction es generalizing s a with
  | nil =>
    cases hr
    exact ⟨[], a, rfl, hs⟩
  | cons e es ih =>
    obtain ⟨u, hu, hr⟩ := Transition.run_cons_some.mp hr
    obtain ⟨ds, b, hb, hR⟩ := hstep s e u a hs hu
    obtain ⟨ds', c, hc, hR'⟩ := ih hR hr
    exact ⟨ds ++ ds', c, Transition.run_append_some.mpr ⟨b, hb, hc⟩, hR'⟩

end DcBench.Lib.Simulation

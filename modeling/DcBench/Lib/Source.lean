import DcBench.Lib.Transition
import Mathlib.Logic.Function.Iterate

namespace DcBench.Lib.Source

variable {ι α γ σ ε : Type} [DecidableEq ι]

def after (draw : γ → α × γ) (g : γ) (k : Nat) : γ := (fun g => (draw g).2)^[k] g

def stream (draw : γ → α × γ) (g : γ) (k : Nat) : α := (draw (after draw g k)).1

theorem after_succ (draw : γ → α × γ) (g : γ) (k : Nat) : after draw g (k + 1) = (draw (after draw g k)).2 :=
  Function.iterate_succ_apply' _ _ _

/-- The source that is drawn from, if any, has moved on. -/
def advance (draw : γ → α × γ) (who : Option ι) (g : ι → γ) : ι → γ :=
  match who with
  | some i => Function.update g i (draw (g i)).2
  | none => g

def count (who : Option ι) (n : ι → Nat) : ι → Nat :=
  match who with
  | some i => Function.update n i (n i + 1)
  | none => n

theorem count_ite {p : Prop} [Decidable p] (i k : ι) (n : ι → Nat) :
    count (if p then some i else none) n k = n k + if k = i ∧ p then 1 else 0 := by
  by_cases hp : p
  · rw [if_pos hp, count]
    by_cases hk : k = i
    · rw [hk, Function.update_self, if_pos ⟨rfl, hp⟩]
    · rw [Function.update_of_ne hk, if_neg (fun h => hk h.1), Nat.add_zero]
  · rw [if_neg hp, if_neg (fun h => hp h.2), Nat.add_zero]
    rfl

theorem count_update (issued : σ → Nat) (party : ι → σ) {i : ι} {s : σ} {p : Prop} [Decidable p]
    (h : issued s = issued (party i) + if p then 1 else 0) :
    (fun k => issued (Function.update party i s k)) =
      count (if p then some i else none) (fun k => issued (party k)) := by
  funext k
  rw [count_ite]
  by_cases hk : k = i
  · subst hk
    rw [Function.update_self, h]
    simp only [true_and]
  · rw [Function.update_of_ne hk, if_neg (fun h => hk h.1), Nat.add_zero]

/-- A machine with sources. `step` gets what each source would give next, `who`
says which of them an event draws from. -/
def drawing (draw : γ → α × γ) (step : (ι → α) → σ → ε → Option σ) (who : σ → ε → Option ι)
    (s : σ × (ι → γ)) (e : ε) : Option (σ × (ι → γ)) :=
  (step (fun i => (draw (s.2 i)).1) s.1 e).map (fun t => (t, advance draw (who s.1 e) s.2))

theorem advance_after (draw : γ → α × γ) (who : Option ι) (g : ι → γ) (n : ι → Nat) :
    advance draw who (fun i => after draw (g i) (n i)) = fun i => after draw (g i) (count who n i) := by
  cases who with
  | none => rfl
  | some i =>
    funext k
    by_cases hk : k = i
    · subst hk
      rw [advance, count, Function.update_self, Function.update_self, after_succ]
    · rw [advance, count, Function.update_of_ne hk, Function.update_of_ne hk]

variable {draw : γ → α × γ} {step : (ι → α) → σ → ε → Option σ} {who : σ → ε → Option ι}

theorem run_of_drawing {P : σ → Prop} {step' : σ → ε → Option σ} (taken : σ → ι → Nat) (g : ι → γ)
    (hinv : ∀ s e t, P s → step' s e = some t → P t)
    (hstep : ∀ s e, P s → step (fun i => stream draw (g i) (taken s i)) s e = step' s e)
    (htaken : ∀ s e t, P s → step' s e = some t → taken t = count (who s e) (taken s))
    {s : σ} (hs : P s) (hzero : taken s = fun _ => 0) {es : List ε} {t : σ × (ι → γ)}
    (hr : Transition.run (drawing draw step who) (s, g) es = some t) : Transition.run step' s es = some t.1 := by
  suffices h : Transition.run step' s es = some t.1 ∧ P t.1 ∧ t.2 = fun i => after draw (g i) (taken t.1 i) from h.1
  refine Transition.run_induction (motive := fun es t => Transition.run step' s es = some t.1 ∧ P t.1 ∧
    t.2 = fun i => after draw (g i) (taken t.1 i)) ?_ ?_ hr
  · exact ⟨rfl, hs, by rw [hzero]; rfl⟩
  · rintro es e ⟨t, h⟩ u - ⟨hrun, hP, hg⟩ he
    obtain ⟨v, hv, rfl⟩ := Option.map_eq_some_iff.mp he
    dsimp only at hrun hP hg
    subst hg
    have hv' : step' t e = some v := by
      rw [← hstep t e hP]
      exact hv
    refine ⟨?_, hinv t e v hP hv', ?_⟩
    · rw [Transition.run_append, hrun, Option.bind_some, Transition.run_cons, hv']
      rfl
    · rw [htaken t e v hP hv', advance_after]

end DcBench.Lib.Source

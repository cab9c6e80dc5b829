import DcBench.Lib.Transition

namespace DcBench.Lib.Ranking

open DcBench.Lib

variable {σ ε : Type} {step : σ → ε → Option σ}

/-- Each event of one kind costs a unit of the rank and no event adds to it. The
rank bounds how many of them a run can have. -/
theorem countP_add_rank_le {I : σ → Prop} {rank : σ → Nat} (p : ε → Bool)
    (hinv : ∀ s e t, I s → step s e = some t → I t)
    (hrank : ∀ s e t, I s → step s e = some t → rank t + (if p e then 1 else 0) ≤ rank s)
    {s t : σ} {es : List ε} (hs : I s) (hr : Transition.run step s es = some t) :
    es.countP p + rank t ≤ rank s := by
  induction es generalizing s with
  | nil =>
    cases hr
    simp
  | cons e es ih =>
    obtain ⟨u, hu, hr⟩ := Transition.run_cons_some.mp hr
    have htail := ih (hinv s e u hs hu) hr
    have hhead := hrank s e u hs hu
    rw [List.countP_cons]
    omega

theorem length_add_rank_le {I : σ → Prop} {rank : σ → Nat} (hinv : ∀ s e t, I s → step s e = some t → I t)
    (hrank : ∀ s e t, I s → step s e = some t → rank t < rank s) {s t : σ} {es : List ε} (hs : I s)
    (hr : Transition.run step s es = some t) : es.length + rank t ≤ rank s := by
  have hcount := countP_add_rank_le (fun _ => true) hinv (fun s e t hI h => hrank s e t hI h) hs hr
  rwa [List.countP_true] at hcount

end DcBench.Lib.Ranking

import DcBench.Lib.Transition
import DcBench.Lib.Partition
import Mathlib.Tactic.Abel

namespace DcBench.Lib.Shared

open DcBench.Lib

variable {ι σ ε A : Type} [DecidableEq ι] [AddCommGroup A]

/-- A machine that adds to a counter and never reads it: it does the same from
any value of the counter. -/
structure Counting (σ ε A : Type) [AddCommGroup A] where
  step : σ → ε → Option σ
  total : σ → A
  shift : A → σ → σ
  shift_zero : ∀ s, shift 0 s = s
  total_shift : ∀ a s, total (shift a s) = total s + a
  shift_shift : ∀ a b s, shift a (shift b s) = shift (b + a) s
  step_shift : ∀ a s e, step (shift a s) e = (step s e).map (shift a)

def Counting.load (c : Counting σ ε A) (a : A) (s : σ) : σ := c.shift (a - c.total s) s

/-- Copies of the machine that run side by side on one counter. The one that
moves works on the common value and leaves the common value behind. -/
def step (c : Counting σ ε A) (s : (ι → σ) × A) (e : ι × ε) : Option ((ι → σ) × A) :=
  (c.step (c.load s.2 (s.1 e.1)) e.2).map (fun t => (Function.update s.1 e.1 t, c.total t))

def own (i : ι) (e : ι × ε) : Option ε := if e.1 = i then some e.2 else none

def eventsOf (i : ι) (es : List (ι × ε)) : List ε := es.filterMap (own i)

variable {c : Counting σ ε A}

theorem eventsOf_concat_self (es : List (ι × ε)) (i : ι) (e : ε) : eventsOf i (es ++ [(i, e)]) = eventsOf i es ++ [e] := by
  simp [eventsOf, own]

theorem eventsOf_concat_of_ne (es : List (ι × ε)) {i j : ι} (e : ε) (h : j ≠ i) :
    eventsOf j (es ++ [(i, e)]) = eventsOf j es := by
  simp [eventsOf, own, Ne.symm h]

theorem sum_length_eventsOf [Fintype ι] (es : List (ι × ε)) :
    ∑ i, (eventsOf i es).length = es.length := by
  induction es with
  | nil => simp [eventsOf]
  | cons e es ih =>
    have hcons (i : ι) : (eventsOf i (e :: es)).length = (if e.1 = i then 1 else 0) + (eventsOf i es).length := by
      by_cases hi : e.1 = i
      · simp [eventsOf, own, hi, Nat.add_comm]
      · simp [eventsOf, own, hi]
    rw [Finset.sum_congr rfl (fun i _ => hcons i), Finset.sum_add_distrib, ih, Finset.sum_ite_eq,
      if_pos (Finset.mem_univ _), List.length_cons, Nat.add_comm]

/-- What the copies are when each has run alone: the same as when they have run
together, up to their counters. -/
structure Alone (c : Counting σ ε A) (s : (ι → σ) × A) (es : List (ι × ε)) (t : (ι → σ) × A) (q : ι → σ) : Prop where
  run : ∀ i, Transition.run c.step (s.1 i) (eventsOf i es) = some (q i)
  eq : ∀ i, ∃ a, t.1 i = c.shift a (q i)
  total : ∀ S : Finset ι, (∀ e ∈ es, e.1 ∈ S) → t.2 + ∑ i ∈ S, c.total (s.1 i) = s.2 + ∑ i ∈ S, c.total (q i)

theorem alone_step {s t u : (ι → σ) × A} {es : List (ι × ε)} {q : ι → σ} {e : ι × ε} (h : Alone c s es t q)
    (hs : step c t e = some u) : ∃ x, c.step (q e.1) e.2 = some x ∧
      Alone c s (es ++ [e]) u (Function.update q e.1 x) := by
  obtain ⟨i, e⟩ := e
  obtain ⟨v, hv, rfl⟩ := Option.map_eq_some_iff.mp hs
  dsimp only at hv ⊢
  obtain ⟨a, ha⟩ := h.eq i
  -- the copy works on the common value, so on its own state with the counter moved
  rw [ha, Counting.load, c.shift_shift, c.step_shift] at hv
  obtain ⟨x, hx, hxv⟩ := Option.map_eq_some_iff.mp hv
  have hmoved : c.total v + c.total (q i) = t.2 + c.total x := by
    rw [← hxv, c.total_shift, c.total_shift]
    abel
  refine ⟨x, hx, ?_, ?_, ?_⟩
  · intro j
    by_cases hj : j = i
    · subst hj
      rw [eventsOf_concat_self, Function.update_self]
      exact Transition.run_append_some.mpr ⟨q j, h.run j, by simp [Transition.run, hx]⟩
    · rw [eventsOf_concat_of_ne es e hj, Function.update_of_ne hj]
      exact h.run j
  · intro j
    by_cases hj : j = i
    · subst hj
      simp only [Function.update_self]
      exact ⟨_, hxv.symm⟩
    · simp only [Function.update_of_ne hj]
      exact h.eq j
  · intro S hS
    have hbefore := h.total S (fun e he => hS e (List.mem_append_left _ he))
    have hsum := Partition.sum_update_add (fun _ => c.total) q x (hS (i, e) (by simp))
    dsimp only at hsum ⊢
    have hzero : c.total v + ∑ i ∈ S, c.total (s.1 i) + c.total (q i) =
        s.2 + ∑ j ∈ S, c.total (Function.update q i x j) + c.total (q i) := by
      rw [add_assoc s.2, hsum, add_right_comm, hmoved, add_right_comm, hbefore, add_assoc]
    exact add_right_cancel hzero

/-- A run of all copies is a run of each of them alone, and the counter has got
what each of them would have counted. -/
theorem alone_of_run {s t : (ι → σ) × A} {es : List (ι × ε)}
    (hr : Transition.run (step c) s es = some t) : ∃ q, Alone c s es t q := by
  refine Transition.run_induction (motive := fun es t => ∃ q, Alone c s es t q) ?_ ?_ hr
  · exact ⟨s.1, fun _ => rfl, fun i => ⟨0, (c.shift_zero _).symm⟩, fun _ _ => rfl⟩
  · rintro es e t u - ⟨q, hq⟩ hs
    obtain ⟨x, -, hx⟩ := alone_step hq hs
    exact ⟨_, hx⟩

end DcBench.Lib.Shared

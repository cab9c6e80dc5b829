import DcBench.Lib.Simulation
import Mathlib.Logic.Function.Basic

namespace DcBench.Lib.AtomicObject

open DcBench.Lib

variable {ι σ α β : Type} [DecidableEq ι]

/-- A thread that uses the object: it has called an operation that has not
taken effect yet, or the operation has taken effect and its answer is known. -/
inductive Status (α β : Type)
  | idle
  | called (op : α)
  | answered (answer : β)

/-- An instant of the object's life: `act` is the one at which a call takes
effect. -/
inductive Event (ι α : Type)
  | call (i : ι) (op : α)
  | act (i : ι)
  | ret (i : ι)

/-- What the threads see of it, their calls and the answers. -/
inductive Visible (ι α β : Type)
  | call (i : ι) (op : α)
  | answer (i : ι) (answer : β)

structure State (ι σ α β : Type) where
  value : σ
  status : ι → Status α β

/-- The object that serves its calls one at a time. A call takes effect at some
instant between its start and its return, and `apply` is the effect. -/
def step (apply : σ → α → σ × β) (s : State ι σ α β) : Event ι α → Option (State ι σ α β)
  | .call i op =>
    match s.status i with
    | .idle => some { s with status := Function.update s.status i (.called op) }
    | _ => none
  | .act i =>
    match s.status i with
    | .called op =>
      some ⟨(apply s.value op).1, Function.update s.status i (.answered (apply s.value op).2)⟩
    | _ => none
  | .ret i =>
    match s.status i with
    | .answered _ => some { s with status := Function.update s.status i .idle }
    | _ => none

def visible (s : State ι σ α β) : Event ι α → Option (Visible ι α β)
  | .call i op => some (.call i op)
  | .act _ => none
  | .ret i =>
    match s.status i with
    | .answered a => some (.answer i a)
    | _ => none

def effect (apply : σ → α → σ × β) (s : State ι σ α β) : Event ι α → Option (α × β)
  | .act i =>
    match s.status i with
    | .called op => some (op, (apply s.value op).2)
    | _ => none
  | _ => none

def start (value : σ) : State ι σ α β := ⟨value, fun _ => .idle⟩

theorem step_call_some {apply : σ → α → σ × β} {s t : State ι σ α β} {i : ι} {op : α} :
    step apply s (.call i op) = some t ↔
      s.status i = .idle ∧ t = ⟨s.value, Function.update s.status i (.called op)⟩ := by
  cases h : s.status i <;> simp [step, h, eq_comm]

theorem step_act_some {apply : σ → α → σ × β} {s t : State ι σ α β} {i : ι} :
    step apply s (.act i) = some t ↔ ∃ op, s.status i = .called op ∧
      t = ⟨(apply s.value op).1, Function.update s.status i (.answered (apply s.value op).2)⟩ := by
  cases h : s.status i <;> simp [step, h, eq_comm]

theorem step_ret_some {apply : σ → α → σ × β} {s t : State ι σ α β} {i : ι} :
    step apply s (.ret i) = some t ↔ ∃ answer, s.status i = .answered answer ∧
      t = ⟨s.value, Function.update s.status i .idle⟩ := by
  cases h : s.status i <;> simp [step, h, eq_comm]

theorem run_call {apply : σ → α → σ × β} {s : State ι σ α β} {i : ι} (op : α) (h : s.status i = .idle) :
    Transition.run (step apply) s [.call i op] =
      some ⟨s.value, Function.update s.status i (.called op)⟩ := by
  simp only [Transition.run, step, h, Option.bind_some]

theorem run_act {apply : σ → α → σ × β} {s : State ι σ α β} {i : ι} {op : α} {value : σ} {answer : β}
    (h : s.status i = .called op) (ha : apply s.value op = (value, answer)) :
    Transition.run (step apply) s [.act i] = some ⟨value, Function.update s.status i (.answered answer)⟩ := by
  simp only [Transition.run, step, h, ha, Option.bind_some]

theorem run_ret {apply : σ → α → σ × β} {s : State ι σ α β} {i : ι} {answer : β}
    (h : s.status i = .answered answer) :
    Transition.run (step apply) s [.ret i] = some ⟨s.value, Function.update s.status i .idle⟩ := by
  simp only [Transition.run, step, h, Option.bind_some]

/-- The value is what the operations leave when they are done one after the
other, in the order in which they take effect, and each one answers as it does
then. -/
theorem value_of_effects (apply : σ → α → σ × β) {R : List (α × β) → σ → Prop} {s t : State ι σ α β}
    (hstart : R [] s.value)
    (happly : ∀ done v op, R done v → R (done ++ [(op, (apply v op).2)]) (apply v op).1)
    {es : List (Event ι α)} (hr : Transition.run (step apply) s es = some t) :
    R (Simulation.trace (step apply) (effect apply) s es) t.value := by
  refine Transition.run_induction (motive := fun es (t : State ι σ α β) =>
    R (Simulation.trace (step apply) (effect apply) s es) t.value) hstart ?_ hr
  intro es e t u hrun ih he
  rw [Simulation.trace_append _ hrun, Simulation.trace_cons [] he, Simulation.trace, List.append_nil]
  cases e with
  | call i op =>
    cases hst : t.status i <;> simp only [step, hst, Option.some.injEq, reduceCtorEq] at he
    subst he
    simpa [effect] using ih
  | act i =>
    cases hst : t.status i <;> simp only [step, hst, Option.some.injEq, reduceCtorEq] at he
    subst he
    simpa [effect, hst] using happly _ _ _ ih
  | ret i =>
    cases hst : t.status i <;> simp only [step, hst, Option.some.injEq, reduceCtorEq] at he
    subst he
    simpa [effect] using ih

end DcBench.Lib.AtomicObject

import DcBench.Lib.AtomicObject
import Mathlib.Data.Fintype.Basic

namespace DcBench.BoundedQueue

open DcBench.Lib

variable {ι α : Type} [DecidableEq ι]

inductive Op (α : Type)
  | push (item : α)
  | pop
  | size

inductive Answer (α : Type)
  | pushed
  | popped (item : Option α)
  | size (n : Nat)

/-- Where a thread is in the queue's code. `push`, `notify`, `test`, `retest`,
`take`, `size` and `unlock` are reached with `mu_` held, `lock` and `woken` wait
for it, and `asleep` is inside `cv_.wait_until` with `mu_` released. -/
inductive Pc (α : Type)
  | outside
  | lock (op : Op α)
  | push (item : α)
  | notify
  | test
  | asleep
  | woken
  | retest
  | take
  | size
  | unlock (answer : Answer α)

structure State (ι α : Type) where
  holder : Option ι
  queue : List α
  pc : ι → Pc α

/-- `advance` is the next statement of a thread that holds `mu_`. `notify_one`
wakes any one of the threads that sleep. A sleeper also wakes when its time is
up, or for no reason; when it has `mu_` back it compares the clock with its
deadline, so that also a notified thread may find its time up. -/
inductive Event (ι α : Type)
  | call (i : ι) (op : Op α)
  | acquire (i : ι)
  | advance (i : ι)
  | notifyOne (i : ι) (sleeper : Option ι)
  | wake (i : ι)
  | resume (i : ι) (timedOut : Bool)
  | ret (i : ι)

def Op.body : Op α → Pc α
  | .push item => .push item
  | .pop => .test
  | .size => .size

def Pc.isAsleep : Pc α → Bool
  | .asleep => true
  | _ => false

def State.set (s : State ι α) (i : ι) (pc : Pc α) : State ι α := { s with pc := Function.update s.pc i pc }

@[simp] theorem State.queue_set (s : State ι α) (i : ι) (pc : Pc α) : (s.set i pc).queue = s.queue := rfl

theorem State.pc_set_self (s : State ι α) (i : ι) (pc : Pc α) : (s.set i pc).pc i = pc := Function.update_self ..

theorem State.pc_set_of_ne (s : State ι α) {i j : ι} (pc : Pc α) (h : j ≠ i) : (s.set i pc).pc j = s.pc j :=
  Function.update_of_ne h ..

/-- `notify_one` wakes one of the threads that sleep, or nobody if none does. -/
def State.mayWake (s : State ι α) (sleeper : Option ι) : Prop :=
  match sleeper with
  | some j => (s.pc j).isAsleep = true
  | none => ∀ j, (s.pc j).isAsleep = false

instance decidableMayWake [Fintype ι] (s : State ι α) : (sleeper : Option ι) → Decidable (s.mayWake sleeper)
  | some j => inferInstanceAs (Decidable ((s.pc j).isAsleep = true))
  | none => inferInstanceAs (Decidable (∀ j, (s.pc j).isAsleep = false))

def State.wakeUp (s : State ι α) : Option ι → State ι α
  | some j => s.set j .woken
  | none => s

/-- One step of one thread. `wait_for` tests the queue before it sleeps, after
each waking, and a last time when its time is up. -/
def step [Fintype ι] (s : State ι α) : Event ι α → Option (State ι α)
  | .call i op =>
    match s.pc i with
    | .outside => some (s.set i (.lock op))
    | _ => none
  | .acquire i =>
    match s.holder, s.pc i with
    | none, .lock op => some { s.set i op.body with holder := some i }
    | _, _ => none
  | .advance i =>
    match s.pc i, s.queue with
    | .push item, queue => some { s.set i .notify with queue := queue ++ [item] }
    | .test, [] => some { s.set i .asleep with holder := none }
    | .test, _ :: _ => some (s.set i .take)
    | .retest, [] => some (s.set i (.unlock (.popped none)))
    | .retest, _ :: _ => some (s.set i .take)
    | .take, item :: queue => some { s.set i (.unlock (.popped (some item))) with queue := queue }
    | .size, queue => some (s.set i (.unlock (.size queue.length)))
    | _, _ => none
  | .notifyOne i sleeper =>
    match s.pc i with
    | .notify => if s.mayWake sleeper then some ((s.wakeUp sleeper).set i (.unlock .pushed)) else none
    | _ => none
  | .wake i =>
    match s.pc i with
    | .asleep => some (s.set i .woken)
    | _ => none
  | .resume i timedOut =>
    match s.holder, s.pc i with
    | none, .woken => some { s.set i (if timedOut then .retest else .test) with holder := some i }
    | _, _ => none
  | .ret i =>
    match s.pc i with
    | .unlock _ => some { s.set i .outside with holder := none }
    | _ => none

def start : State ι α := ⟨none, [], fun _ => .outside⟩

inductive Move (s : State ι α) : Event ι α → State ι α → Prop
  | call (i : ι) (op : Op α) (hp : s.pc i = .outside) : Move s (.call i op) (s.set i (.lock op))
  | acquire (i : ι) (op : Op α) (hh : s.holder = none) (hp : s.pc i = .lock op) :
      Move s (.acquire i) { s.set i op.body with holder := some i }
  | push (i : ι) (item : α) (hp : s.pc i = .push item) :
      Move s (.advance i) { s.set i .notify with queue := s.queue ++ [item] }
  | sleep (i : ι) (hp : s.pc i = .test) (hq : s.queue = []) :
      Move s (.advance i) { s.set i .asleep with holder := none }
  | found (i : ι) (hp : s.pc i = .test ∨ s.pc i = .retest) (hq : s.queue ≠ []) :
      Move s (.advance i) (s.set i .take)
  | giveUp (i : ι) (hp : s.pc i = .retest) (hq : s.queue = []) :
      Move s (.advance i) (s.set i (.unlock (.popped none)))
  | take (i : ι) (item : α) (queue : List α) (hp : s.pc i = .take) (hq : s.queue = item :: queue) :
      Move s (.advance i) { s.set i (.unlock (.popped (some item))) with queue := queue }
  | size (i : ι) (hp : s.pc i = .size) : Move s (.advance i) (s.set i (.unlock (.size s.queue.length)))
  | notifyOne (i : ι) (sleeper : Option ι) (hp : s.pc i = .notify) (hw : s.mayWake sleeper) :
      Move s (.notifyOne i sleeper) ((s.wakeUp sleeper).set i (.unlock .pushed))
  | wake (i : ι) (hp : s.pc i = .asleep) : Move s (.wake i) (s.set i .woken)
  | resume (i : ι) (timedOut : Bool) (hh : s.holder = none) (hp : s.pc i = .woken) :
      Move s (.resume i timedOut) { s.set i (if timedOut then .retest else .test) with holder := some i }
  | ret (i : ι) (answer : Answer α) (hp : s.pc i = .unlock answer) :
      Move s (.ret i) { s.set i .outside with holder := none }

theorem move_of_advance [Fintype ι] {s t : State ι α} {i : ι} (h : step s (.advance i) = some t) :
    Move s (.advance i) t := by
  cases hp : s.pc i with
  | push item =>
    simp only [step, hp, Option.some.injEq] at h
    exact h ▸ .push i item hp
  | size =>
    simp only [step, hp, Option.some.injEq] at h
    exact h ▸ .size i hp
  | test =>
    cases hq : s.queue with
    | nil =>
      simp only [step, hp, hq, Option.some.injEq] at h
      exact h ▸ .sleep i hp hq
    | cons item queue =>
      simp only [step, hp, hq, Option.some.injEq] at h
      exact h ▸ .found i (Or.inl hp) (by simp [hq])
  | retest =>
    cases hq : s.queue with
    | nil =>
      simp only [step, hp, hq, Option.some.injEq] at h
      exact h ▸ .giveUp i hp hq
    | cons item queue =>
      simp only [step, hp, hq, Option.some.injEq] at h
      exact h ▸ .found i (Or.inr hp) (by simp [hq])
  | take =>
    cases hq : s.queue with
    | nil => simp [step, hp, hq] at h
    | cons item queue =>
      simp only [step, hp, hq, Option.some.injEq] at h
      exact h ▸ .take i item queue hp hq
  | outside | lock op | notify | asleep | woken | unlock answer => simp [step, hp] at h

theorem move_of_step [Fintype ι] {s t : State ι α} {e : Event ι α} (h : step s e = some t) : Move s e t := by
  cases e with
  | call i op =>
    cases hp : s.pc i <;> simp only [step, hp, Option.some.injEq, reduceCtorEq] at h
    exact h ▸ .call i op hp
  | acquire i =>
    cases hh : s.holder <;> cases hp : s.pc i <;> simp only [step, hh, hp, Option.some.injEq, reduceCtorEq] at h
    exact h ▸ .acquire i _ hh hp
  | advance i => exact move_of_advance h
  | notifyOne i sleeper =>
    cases hp : s.pc i <;> simp only [step, hp, reduceCtorEq] at h
    by_cases hw : s.mayWake sleeper
    · rw [if_pos hw, Option.some.injEq] at h
      exact h ▸ .notifyOne i sleeper hp hw
    · rw [if_neg hw] at h
      cases h
  | wake i =>
    cases hp : s.pc i <;> simp only [step, hp, Option.some.injEq, reduceCtorEq] at h
    exact h ▸ .wake i hp
  | resume i timedOut =>
    cases hh : s.holder <;> cases hp : s.pc i <;> simp only [step, hh, hp, Option.some.injEq, reduceCtorEq] at h
    exact h ▸ .resume i timedOut hh hp
  | ret i =>
    cases hp : s.pc i <;> simp only [step, hp, Option.some.injEq, reduceCtorEq] at h
    exact h ▸ .ret i _ hp

end DcBench.BoundedQueue

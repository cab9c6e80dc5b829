import DcBench.BoundedQueue
import DcBench.Lib.Numerals

namespace DcBench.QueueAtomicity

open DcBench.Lib DcBench.BoundedQueue

variable {ι α : Type} [DecidableEq ι]

/-- What the operations mean, one at a time. -/
def apply : List α → Op α → List α × Answer α
  | queue, .push item => (queue ++ [item], .pushed)
  | item :: queue, .pop => (queue, .popped (some item))
  | [], .pop => ([], .popped none)
  | queue, .size => (queue, .size queue.length)

def status : Pc α → AtomicObject.Status (Op α) (Answer α)
  | .outside => .idle
  | .lock op => .called op
  | .push item => .called (.push item)
  | .notify => .answered .pushed
  | .test | .asleep | .woken | .retest | .take => .called .pop
  | .size => .called .size
  | .unlock answer => .answered answer

def view (s : State ι α) : AtomicObject.State ι (List α) (Op α) (Answer α) :=
  ⟨s.queue, fun i => status (s.pc i)⟩

/-- The instants of the calls. A `push` takes effect when its item is in `q_`, a
`pop` when it has taken one or has found `q_` empty after its time. -/
def obs (s : State ι α) : Event ι α → Option (AtomicObject.Event ι (Op α))
  | .call i op => some (.call i op)
  | .advance i =>
    match s.pc i, s.queue with
    | .push _, _ => some (.act i)
    | .retest, [] => some (.act i)
    | .take, _ :: _ => some (.act i)
    | .size, _ => some (.act i)
    | _, _ => none
  | .ret i => some (.ret i)
  | _ => none

def visible (s : State ι α) : Event ι α → Option (AtomicObject.Visible ι (Op α) (Answer α))
  | .call i op => some (.call i op)
  | .ret i =>
    match s.pc i with
    | .unlock answer => some (.answer i answer)
    | _ => none
  | _ => none

theorem view_mk (s : State ι α) (i : ι) (pc : Pc α) (queue : List α) (holder : Option ι) :
    view ⟨holder, queue, (s.set i pc).pc⟩ = ⟨queue, Function.update (view s).status i (status pc)⟩ := by
  rw [view, AtomicObject.State.mk.injEq]
  refine ⟨rfl, ?_⟩
  funext j
  exact Function.apply_update (fun _ => status) s.pc i pc j

theorem view_within (s : State ι α) (i : ι) (pc : Pc α) (holder : Option ι) (h : status pc = status (s.pc i)) :
    view ⟨holder, s.queue, (s.set i pc).pc⟩ = view s := by
  rw [view_mk, h]
  change AtomicObject.State.mk s.queue (Function.update (view s).status i ((view s).status i)) = view s
  rw [Function.update_eq_self]
  rfl

theorem view_set (s : State ι α) (i : ι) (pc : Pc α) (h : status pc = status (s.pc i)) :
    view (s.set i pc) = view s := view_within s i pc s.holder h

theorem status_body (op : Op α) : status op.body = .called op := by
  cases op <;> rfl

theorem view_wakeUp (s : State ι α) (sleeper : Option ι) (h : s.mayWake sleeper) :
    view (s.wakeUp sleeper) = view s := by
  cases sleeper with
  | none => rfl
  | some j =>
    apply view_set
    cases hp : s.pc j <;> simp [State.mayWake, hp, Pc.isAsleep] at h
    rfl

theorem pc_wakeUp {s : State ι α} {i : ι} {sleeper : Option ι} (h : s.mayWake sleeper)
    (hi : (s.pc i).isAsleep = false) : (s.wakeUp sleeper).pc i = s.pc i := by
  cases sleeper with
  | none => rfl
  | some j =>
    have hne : i ≠ j := by
      rintro rfl
      rw [State.mayWake, hi] at h
      cases h
    exact State.pc_set_of_ne s _ hne

/-- The step of the atomic queue that a step of a thread amounts to. -/
theorem follows [Fintype ι] :
    Simulation.Follows (step (ι := ι) (α := α)) (AtomicObject.step apply) obs view (fun _ => True) := by
  intro s e t _ h
  cases move_of_step h with
  | call i op hp =>
    exact (AtomicObject.run_call op (congrArg status hp)).trans
      (congrArg some (view_mk s i (.lock op) s.queue s.holder).symm)
  | acquire i op hh hp =>
    exact congrArg some (view_within s i op.body _ (by rw [hp, status_body]; rfl)).symm
  | push i item hp =>
    have hobs : obs s (.advance i) = some (.act i) := by simp only [obs, hp]
    have happly : apply (view s).value (.push item) = (s.queue ++ [item], .pushed) := rfl
    rw [hobs]
    exact (AtomicObject.run_act (congrArg status hp) happly).trans
      (congrArg some (view_mk s i .notify (s.queue ++ [item]) s.holder).symm)
  | sleep i hp hq =>
    have hobs : obs s (.advance i) = none := by simp only [obs, hp]
    rw [hobs]
    exact congrArg some (view_within s i .asleep _ (by rw [hp]; rfl)).symm
  | found i hp hq =>
    obtain ⟨item, queue, hq⟩ := List.exists_cons_of_ne_nil hq
    have hobs : obs s (.advance i) = none := by
      rcases hp with hp | hp <;> simp only [obs, hp, hq]
    rw [hobs]
    exact congrArg some (view_set s i .take (by rcases hp with hp | hp <;> rw [hp] <;> rfl)).symm
  | giveUp i hp hq =>
    have hobs : obs s (.advance i) = some (.act i) := by simp only [obs, hp, hq]
    have happly : apply (view s).value .pop = (s.queue, .popped none) := by
      simp only [view, hq, apply]
    rw [hobs]
    exact (AtomicObject.run_act (congrArg status hp) happly).trans
      (congrArg some (view_mk s i (.unlock (.popped none)) s.queue s.holder).symm)
  | take i item queue hp hq =>
    have hobs : obs s (.advance i) = some (.act i) := by simp only [obs, hp, hq]
    have happly : apply (view s).value .pop = (queue, .popped (some item)) := by
      simp only [view, hq, apply]
    rw [hobs]
    exact (AtomicObject.run_act (congrArg status hp) happly).trans
      (congrArg some (view_mk s i (.unlock (.popped (some item))) queue s.holder).symm)
  | size i hp =>
    have hobs : obs s (.advance i) = some (.act i) := by simp only [obs, hp]
    have happly : apply (view s).value .size = (s.queue, .size s.queue.length) := by
      simp only [view, apply]
    rw [hobs]
    exact (AtomicObject.run_act (congrArg status hp) happly).trans
      (congrArg some (view_mk s i (.unlock (.size s.queue.length)) s.queue s.holder).symm)
  | notifyOne i sleeper hp hw =>
    have hp' : (s.wakeUp sleeper).pc i = .notify := by rw [pc_wakeUp hw (by rw [hp]; rfl), hp]
    rw [view_set _ i _ (by rw [hp']; rfl), view_wakeUp s sleeper hw]
    rfl
  | wake i hp => exact congrArg some (view_set s i .woken (by rw [hp]; rfl)).symm
  | resume i timedOut hh hp =>
    exact congrArg some (view_within s i _ _ (by rw [hp]; cases timedOut <;> rfl)).symm
  | ret i answer hp =>
    exact (AtomicObject.run_ret (congrArg status hp)).trans (congrArg some (view_mk s i .outside s.queue none).symm)

theorem visible_obs [Fintype ι] {s t : State ι α} {e : Event ι α} (h : step s e = some t) :
    (obs s e).bind (AtomicObject.visible (view s)) = visible s e := by
  cases move_of_step h with
  | call i op hp => rfl
  | ret i answer hp =>
    have hst : (view s).status i = .answered answer := congrArg status hp
    simp only [obs, visible, Option.bind_some, AtomicObject.visible, hst, hp]
  | acquire | notifyOne | wake | resume => rfl
  | push | sleep | found | giveUp | take | size =>
    simp only [obs, visible]
    split <;> rfl

def holds : Pc α → Bool
  | .outside | .lock _ | .asleep | .woken => false
  | .push _ | .notify | .test | .retest | .take | .size | .unlock _ => true

/-- `mu_` excludes: only the thread that has it is at a statement that reads or
writes `q_`, and `front` is called on a queue that is not empty. -/
structure Inv (s : State ι α) : Prop where
  holder : ∀ i, holds (s.pc i) = true ↔ s.holder = some i
  take : ∀ i, s.pc i = .take → s.queue ≠ []

omit [DecidableEq ι] in
theorem inv_start : Inv (start : State ι α) := by
  constructor
  · intro i
    simp [start, holds]
  · intro i hi
    cases hi

theorem Inv.set {s : State ι α} (h : Inv s) {i : ι} {pc : Pc α} {holder : Option ι} {queue : List α}
    (hi : holds pc = true ↔ holder = some i) (hne : ∀ j, j ≠ i → (holder = some j ↔ s.holder = some j))
    (hpc : pc = .take → queue ≠ []) (hq : s.queue ≠ [] → queue = [] → s.holder = some i) :
    Inv ⟨holder, queue, (s.set i pc).pc⟩ := by
  refine ⟨fun j => ?_, fun j htake hnil => ?_⟩
  all_goals dsimp only at *
  · by_cases hj : j = i
    · rw [hj, State.pc_set_self]
      exact hi
    · rw [State.pc_set_of_ne s pc hj]
      exact (h.holder j).trans (hne j hj).symm
  · by_cases hj : j = i
    · rw [hj, State.pc_set_self] at htake
      exact hpc htake hnil
    · rw [State.pc_set_of_ne s pc hj] at htake
      have hother := (h.holder j).mp (by rw [htake]; rfl)
      have hself := hq (h.take j htake) hnil
      rw [hself, Option.some.injEq] at hother
      exact hj hother.symm

theorem Inv.within {s : State ι α} (h : Inv s) {i : ι} {pc : Pc α} (hi : holds pc = holds (s.pc i))
    (hpc : pc = .take → s.queue ≠ []) : Inv (s.set i pc) :=
  h.set (by rw [hi]; exact h.holder i) (fun _ _ => Iff.rfl) hpc (fun hne hnil => absurd hnil hne)

theorem Inv.acquire {s : State ι α} (h : Inv s) {i : ι} {pc : Pc α} (hh : s.holder = none) (hi : holds pc = true)
    (hpc : pc ≠ .take) : Inv { s.set i pc with holder := some i } := by
  refine h.set (by simp [hi]) (fun j hj => ?_) (fun he => absurd he hpc) (fun hne hnil => absurd hnil hne)
  rw [hh]
  simp [Ne.symm hj]

theorem Inv.release {s : State ι α} (h : Inv s) {i : ι} {pc : Pc α} (hh : holds (s.pc i) = true)
    (hi : holds pc = false) : Inv { s.set i pc with holder := none } := by
  refine h.set (by simp [hi]) (fun j hj => ?_) (fun he => ?_) (fun hne hnil => absurd hnil hne)
  · rw [(h.holder i).mp hh]
    simp [Ne.symm hj]
  · rw [he] at hi
    cases hi

theorem Inv.wakeUp {s : State ι α} (h : Inv s) {sleeper : Option ι} (hw : s.mayWake sleeper) :
    Inv (s.wakeUp sleeper) := by
  cases sleeper with
  | none => exact h
  | some j =>
    refine h.within ?_ (fun he => by cases he)
    cases hp : s.pc j <;> simp [State.mayWake, hp, Pc.isAsleep] at hw
    rfl

theorem inv_step [Fintype ι] (s : State ι α) (e : Event ι α) (t : State ι α) (hI : Inv s) (h : step s e = some t) :
    Inv t := by
  cases move_of_step h with
  | call i op hp => exact hI.within (by rw [hp]; rfl) (fun he => by cases he)
  | acquire i op hh hp => exact hI.acquire hh (by cases op <;> rfl) (by cases op <;> simp [Op.body])
  | push i item hp =>
    have hself : holds (s.pc i) = true := by rw [hp]; rfl
    exact hI.set (iff_of_true rfl ((hI.holder i).mp hself)) (fun _ _ => Iff.rfl) (fun he => by cases he)
      (fun _ hnil => by simp at hnil)
  | sleep i hp hq => exact hI.release (by rw [hp]; rfl) rfl
  | found i hp hq => exact hI.within (by rcases hp with hp | hp <;> rw [hp] <;> rfl) (fun _ => hq)
  | giveUp i hp hq => exact hI.within (by rw [hp]; rfl) (fun he => by cases he)
  | take i item queue hp hq =>
    have hself := (hI.holder i).mp (by rw [hp]; rfl)
    exact hI.set (iff_of_true rfl hself) (fun _ _ => Iff.rfl) (fun he => by cases he) (fun _ _ => hself)
  | size i hp => exact hI.within (by rw [hp]; rfl) (fun he => by cases he)
  | notifyOne i sleeper hp hw =>
    have hp' : (s.wakeUp sleeper).pc i = .notify := by rw [pc_wakeUp hw (by rw [hp]; rfl), hp]
    exact (hI.wakeUp hw).within (by rw [hp']; rfl) (fun he => by cases he)
  | wake i hp => exact hI.within (by rw [hp]; rfl) (fun he => by cases he)
  | resume i timedOut hh hp => exact hI.acquire hh (by cases timedOut <;> rfl) (by cases timedOut <;> simp)
  | ret i answer hp => exact hI.release (by rw [hp]; rfl) rfl

def pushedItem : Op α × Answer α → Option α
  | (.push item, _) => some item
  | _ => none

def poppedItem : Op α × Answer α → Option α
  | (_, .popped item) => item
  | _ => none

/-- What has been taken and what is still there is what has been put in. -/
theorem fifo_of_effects {s : AtomicObject.State ι (List α) (Op α) (Answer α)}
    {es : List (AtomicObject.Event ι (Op α))}
    (hr : Transition.run (AtomicObject.step apply) (AtomicObject.start []) es = some s) :
    (Simulation.trace (AtomicObject.step apply) (AtomicObject.effect apply) (AtomicObject.start []) es).filterMap
      pushedItem =
    (Simulation.trace (AtomicObject.step apply) (AtomicObject.effect apply) (AtomicObject.start []) es).filterMap
      poppedItem ++ s.value := by
  refine AtomicObject.value_of_effects apply
    (R := fun done queue => done.filterMap pushedItem = done.filterMap poppedItem ++ queue) rfl ?_ hr
  intro done queue op ih
  rw [List.filterMap_append, List.filterMap_append, ih]
  cases op with
  | push item => simp [apply, pushedItem, poppedItem]
  | pop => cases queue <;> simp [apply, pushedItem, poppedItem, List.filterMap_cons]
  | size => simp [apply, pushedItem, poppedItem, List.filterMap_cons]

/-- Whatever the threads do and however they are scheduled, `BoundedQueue` is to
them the queue whose operations happen at one instant each, between call and
return: they see the same calls and answers, `pop` gives `false` only when the
queue is empty, and the items come out once each and in the order of the
pushes. -/
theorem queue_is_atomic [Fintype ι] {es : List (Event ι α)} {s : State ι α}
    (hr : Transition.run step start es = some s) :
    Inv s ∧ ∃ instants : List (AtomicObject.Event ι (Op α)),
      Transition.run (AtomicObject.step apply) (AtomicObject.start []) instants = some (view s) ∧
      Simulation.trace (AtomicObject.step apply) AtomicObject.visible (AtomicObject.start []) instants =
        Simulation.trace step visible start es ∧
      (Simulation.trace (AtomicObject.step apply) (AtomicObject.effect apply) (AtomicObject.start [])
        instants).filterMap pushedItem =
      (Simulation.trace (AtomicObject.step apply) (AtomicObject.effect apply) (AtomicObject.start [])
        instants).filterMap poppedItem ++ s.queue := by
  refine ⟨Transition.invariant inv_step inv_start hr, Simulation.trace step obs start es, ?_⟩
  have hrun : Transition.run (AtomicObject.step apply) (AtomicObject.start []) (Simulation.trace step obs start es) =
      some (view s) := Simulation.run_trace (fun _ _ _ h _ => h) follows trivial hr
  exact ⟨hrun, Simulation.trace_trace (fun _ _ _ h _ => h) follows (fun _ _ _ _ h => visible_obs h) trivial hr,
    fifo_of_effects hrun⟩

/-- A worker falls asleep on the empty queue, the producer pushes and wakes it. -/
def handOver : List (Event (Fin 2) Nat) :=
  [.call 1 .pop, .acquire 1, .advance 1, .call 0 (.push 7), .acquire 0, .advance 0, .notifyOne 0 (some 1), .ret 0,
    .resume 1 false, .advance 1, .advance 1, .ret 1]

theorem handOver_is_atomic : ∃ s : State (Fin 2) Nat, Transition.run step start handOver = some s ∧ Inv s ∧
    Simulation.trace step visible start handOver = [.call 1 .pop, .call 0 (.push 7), .answer 0 .pushed,
      .answer 1 (.popped (some 7))] := by
  have hsome : (Transition.run step start handOver).isSome = true := by decide
  obtain ⟨s, hs⟩ := Option.isSome_iff_exists.mp hsome
  exact ⟨s, hs, (queue_is_atomic hs).1, rfl⟩

end DcBench.QueueAtomicity

import DcBench.QueueAtomicity
import DcBench.Lib.Partition

namespace DcBench.QueueWakeups

open DcBench.Lib DcBench.BoundedQueue DcBench.QueueAtomicity

variable {ι α : Type} [DecidableEq ι] [Fintype ι]

/-- The thread is awake in `pop` and will look at the queue, or it has pushed
and is about to wake a sleeper. -/
def attends : Pc α → Nat
  | .lock .pop | .notify | .test | .woken | .retest | .take => 1
  | .outside | .lock _ | .push _ | .asleep | .size | .unlock _ => 0

/-- While somebody sleeps, somebody else attends to each item of the queue. -/
def Attended (s : State ι α) : Prop := ∀ i, s.pc i = .asleep → s.queue.length ≤ ∑ j, attends (s.pc j)

/-- The event is the next statement of some thread, and does not depend on the
clock or on a new call. -/
def isStatement : Event ι α → Bool
  | .acquire _ | .advance _ | .notifyOne _ _ | .resume _ _ | .ret _ => true
  | .call _ _ | .wake _ => false

theorem attends_set (s : State ι α) (i : ι) (pc : Pc α) :
    ∑ j, attends ((s.set i pc).pc j) + attends (s.pc i) = ∑ j, attends (s.pc j) + attends pc :=
  Partition.sum_update_add (fun _ => attends) s.pc pc (Finset.mem_univ i)

theorem Attended.set {s : State ι α} (h : Attended s) {i : ι} {pc : Pc α} {holder : Option ι} {queue : List α}
    (hpc : pc ≠ .asleep) (hlen : queue.length + attends (s.pc i) ≤ s.queue.length + attends pc) :
    Attended ⟨holder, queue, (s.set i pc).pc⟩ := by
  intro k hk
  dsimp only at hk ⊢
  have hki : k ≠ i := by
    rintro rfl
    rw [State.pc_set_self] at hk
    exact hpc hk
  rw [State.pc_set_of_ne s pc hki] at hk
  have hs := h k hk
  have hsum := attends_set s i pc
  omega

omit [DecidableEq ι] in
theorem attended_of_nil {s : State ι α} (h : s.queue = []) : Attended s := by
  intro k hk
  rw [h]
  exact Nat.zero_le _

theorem attended_notifyOne {s : State ι α} (h : Attended s) {i : ι} {sleeper : Option ι} (hp : s.pc i = .notify)
    (hw : s.mayWake sleeper) : Attended ((s.wakeUp sleeper).set i (.unlock .pushed)) := by
  have hp' : (s.wakeUp sleeper).pc i = .notify := by rw [pc_wakeUp hw (by rw [hp]; rfl), hp]
  intro k hk
  have hki : k ≠ i := by
    rintro rfl
    rw [State.pc_set_self] at hk
    cases hk
  rw [State.pc_set_of_ne _ _ hki] at hk
  cases sleeper with
  | none =>
    have hno := hw k
    change s.pc k = .asleep at hk
    rw [hk] at hno
    cases hno
  | some j =>
    have hj : s.pc j = .asleep := by
      cases hpj : s.pc j <;> simp [State.mayWake, hpj, Pc.isAsleep] at hw
      rfl
    -- the sleeper that wakes makes up for the waker that leaves
    have hs := h j hj
    have hsum := attends_set s j .woken
    have hsum' := attends_set (s.set j .woken) i (.unlock .pushed)
    rw [hj] at hsum
    change (s.set j .woken).pc i = .notify at hp'
    rw [hp'] at hsum'
    change _ + 0 = _ + 1 at hsum
    change _ + 1 = _ + 0 at hsum'
    change s.queue.length ≤ ∑ k, attends (((s.set j .woken).set i (.unlock .pushed)).pc k)
    omega

theorem attended_step (s : State ι α) (e : Event ι α) (t : State ι α) (hA : Attended s) (h : step s e = some t) :
    Attended t := by
  cases move_of_step h with
  | call i op hp => exact hA.set (by simp) (by simp [hp, attends])
  | acquire i op hh hp => exact hA.set (by cases op <;> simp [Op.body]) (by cases op <;> simp [hp, Op.body, attends])
  | push i item hp => exact hA.set (by simp) (by simp [hp, attends])
  | sleep i hp hq => exact attended_of_nil hq
  | found i hp hq => exact hA.set (by simp) (by rcases hp with hp | hp <;> simp [hp, attends])
  | giveUp i hp hq => exact attended_of_nil hq
  | take i item queue hp hq => exact hA.set (by simp) (by simp [hp, hq, attends])
  | size i hp => exact hA.set (by simp) (by simp [hp, attends])
  | notifyOne i sleeper hp hw => exact attended_notifyOne hA hp hw
  | wake i hp => exact hA.set (by simp) (by simp [hp, attends])
  | resume i timedOut hh hp => exact hA.set (by cases timedOut <;> simp) (by cases timedOut <;> simp [hp, attends])
  | ret i answer hp => exact hA.set (by simp) (by simp [hp, attends])

theorem holder_goes_on {s : State ι α} (hI : Inv s) {i : ι} (hi : s.holder = some i) :
    ∃ e, isStatement e = true ∧ (step s e).isSome = true := by
  have hholds := (hI.holder i).mpr hi
  cases hp : s.pc i with
  | outside | lock op | asleep | woken =>
    rw [hp] at hholds
    cases hholds
  | push item => exact ⟨.advance i, rfl, by simp [step, hp]⟩
  | size => exact ⟨.advance i, rfl, by simp [step, hp]⟩
  | test => exact ⟨.advance i, rfl, by cases hq : s.queue <;> simp [step, hp, hq]⟩
  | retest => exact ⟨.advance i, rfl, by cases hq : s.queue <;> simp [step, hp, hq]⟩
  | take =>
    obtain ⟨item, queue, hq⟩ := List.exists_cons_of_ne_nil (hI.take i hp)
    exact ⟨.advance i, rfl, by simp [step, hp, hq]⟩
  | unlock answer => exact ⟨.ret i, rfl, by simp [step, hp]⟩
  | notify =>
    by_cases hsleep : ∃ j, (s.pc j).isAsleep = true
    · obtain ⟨j, hj⟩ := hsleep
      have hw : s.mayWake (some j) := hj
      exact ⟨.notifyOne i (some j), rfl, by simp [step, hp, hw]⟩
    · have hw : s.mayWake none := fun j => Bool.eq_false_iff.mpr (fun hj => hsleep ⟨j, hj⟩)
      exact ⟨.notifyOne i none, rfl, by simp [step, hp, hw]⟩

theorem goes_on {s : State ι α} (hI : Inv s) {i : ι} (hout : s.pc i ≠ .outside) (hawake : s.pc i ≠ .asleep) :
    ∃ e, isStatement e = true ∧ (step s e).isSome = true := by
  cases hh : s.holder with
  | some j => exact holder_goes_on hI hh
  | none =>
    have hnot : holds (s.pc i) ≠ true := by
      rw [Ne, hI.holder i, hh]
      simp
    cases hp : s.pc i with
    | outside => exact absurd hp hout
    | asleep => exact absurd hp hawake
    | lock op => exact ⟨.acquire i, rfl, by simp [step, hh, hp]⟩
    | woken => exact ⟨.resume i false, rfl, by simp [step, hh, hp]⟩
    | push item | notify | test | retest | take | size | unlock answer =>
      rw [hp] at hnot
      exact absurd rfl hnot

/-- `notify_one` for each push is enough. Whatever the schedule, a thread sleeps
in `pop` only while there are no more items than threads that attend to them, so
that no item waits for a time-out; and no call gets stuck. -/
theorem no_lost_wakeup {es : List (Event ι α)} {s : State ι α} (hr : Transition.run step start es = some s) :
    (∀ i, s.pc i = .asleep → s.queue.length ≤ ∑ j, attends (s.pc j)) ∧
    ((∃ i, s.pc i = .asleep) → s.queue ≠ [] → ∃ e, isStatement e = true ∧ (step s e).isSome = true) ∧
    ∀ i, s.pc i ≠ .outside → s.pc i ≠ .asleep → ∃ e, isStatement e = true ∧ (step s e).isSome = true := by
  have hI := Transition.invariant inv_step inv_start hr
  have hA := Transition.invariant attended_step (attended_of_nil rfl) hr
  refine ⟨hA, ?_, fun i hout hawake => goes_on hI hout hawake⟩
  rintro ⟨i, hi⟩ hq
  have hpos : 0 < ∑ j, attends (s.pc j) := (List.length_pos_iff.mpr hq).trans_le (hA i hi)
  obtain ⟨j, -, hj⟩ := Finset.exists_ne_zero_of_sum_ne_zero hpos.ne'
  refine goes_on (i := j) hI ?_ ?_
  · intro hp
    rw [hp] at hj
    exact hj rfl
  · intro hp
    rw [hp] at hj
    exact hj rfl

/-- A worker sleeps, the producer has pushed and has not notified yet. -/
def pushedNotNotified : List (Event (Fin 2) Nat) :=
  [.call 1 .pop, .acquire 1, .advance 1, .call 0 (.push 7), .acquire 0, .advance 0]

theorem pushedNotNotified_goes_on : ∃ s : State (Fin 2) Nat, Transition.run step start pushedNotNotified = some s ∧
    s.pc 1 = .asleep ∧ s.queue = [7] ∧ s.queue.length ≤ ∑ j, attends (s.pc j) ∧
    ∃ e, isStatement e = true ∧ (step s e).isSome = true := by
  obtain ⟨s, hs, hp, hq⟩ : ∃ s : State (Fin 2) Nat, Transition.run step start pushedNotNotified = some s ∧
      s.pc 1 = .asleep ∧ s.queue = [7] := ⟨_, rfl, rfl, rfl⟩
  obtain ⟨hlen, hon, -⟩ := no_lost_wakeup hs
  exact ⟨s, hs, hp, hq, hlen 1 hp, hon ⟨1, hp⟩ (by rw [hq]; simp)⟩

end DcBench.QueueWakeups

import DcBench.OpenLoopThreads
import DcBench.OpenLoopResult

namespace DcBench.OpenLoopRefinement

open DcBench.Lib DcBench.Message DcBench.Workload DcBench.OpenLoop DcBench.OpenLoopThreads DcBench.QueueAtomicity

abbrev Status := AtomicObject.Status (BoundedQueue.Op PendingRequest) (BoundedQueue.Answer PendingRequest)

abbrev QueueView := AtomicObject.State Party (List PendingRequest) (BoundedQueue.Op PendingRequest)
  (BoundedQueue.Answer PendingRequest)

/-- A worker whose call has taken effect has in truth gone on with the answer. -/
def phaseAfter (p : Phase) : Status → Phase
  | .answered a => (continuation p a).getD p
  | _ => p

def workerOf (t : Thread) (q : QueueView) : Worker :=
  { t.withQueue q.value with phase := phaseAfter t.phase (q.status .worker) }

/-- A worker is in its queue only for the operation of its phase. -/
def WorkerCalls (p : Phase) : Status → Prop
  | .idle => True
  | .called op => queueOp p = some op
  | .answered a => (continuation p a).isSome = true

structure WorkerOk (w : Worker) (t : Thread) (q : QueueView) : Prop where
  eq : w = workerOf t q
  calls : WorkerCalls t.phase (q.status .worker)

variable {P : Nat}

/-- The producer between two requests, in a `push` that has not taken effect,
and in one that has. -/
inductive Producing (cfg : WorkloadConfig) (gen : Nat → Turn) (s : OpenLoopThreads.State P) (a : OpenLoop.State P) : Prop
  | between (hp : s.pushing = none) (hidle : ∀ j, (view (s.queues j)).status .producer = .idle) (hi : a.i = s.i)
      (ht : a.nextTime = s.nextTime) (hs : a.scheduler = s.scheduler)
  | called (j : Fin P) (hp : s.pushing = some j)
      (hidle : ∀ k, k ≠ j → (view (s.queues k)).status .producer = .idle)
      (hst : (view (s.queues j)).status .producer = .called (.push (pending cfg s.i (gen s.i.toNat).size)))
      (hrun : s.running = true) (hlt : s.i < cfg.total) (hi : a.i = s.i)
      (ht : s.nextTime = a.nextTime + 1000 * truncate (gen s.i.toNat).waitUs) (hclock : s.nextTime ≤ s.clock.toNat)
      (hs : ∃ connIdx, a.scheduler.select (gen s.i.toNat).size (gen s.i.toNat).draw = some (connIdx, s.scheduler) ∧
        connIdx.toNat = j)
  | done (j : Fin P) (hp : s.pushing = some j)
      (hidle : ∀ k, k ≠ j → (view (s.queues k)).status .producer = .idle)
      (hst : (view (s.queues j)).status .producer = .answered .pushed) (hi : a.i = s.i + 1)
      (ht : a.nextTime = s.nextTime) (hs : a.scheduler = s.scheduler)

structure Refines (cfg : WorkloadConfig) (gen : Nat → Turn) (s : OpenLoopThreads.State P) (a : OpenLoop.State P) :
    Prop where
  clock : a.clock = s.clock
  running : a.running = s.running
  totalBytes : a.totalBytes = s.totalBytes
  workers : ∀ j, WorkerOk (a.workers j) (s.workers j) (view (s.queues j))
  producer : Producing cfg gen s a

variable {cfg : WorkloadConfig} {gen : Nat → Turn} {s s' : OpenLoopThreads.State P} {a : OpenLoop.State P}

theorem view_call {q q' : Queue} {p : Party} {op : BoundedQueue.Op PendingRequest}
    (h : BoundedQueue.step q (.call p op) = some q') : (view q).status p = .idle ∧
      view q' = ⟨(view q).value, Function.update (view q).status p (.called op)⟩ := by
  obtain ⟨v, hv, hrun⟩ := Transition.run_cons_some.mp (follows q _ q' trivial h)
  cases hrun
  exact AtomicObject.step_call_some.mp hv

theorem view_ret {q q' : Queue} {p : Party} (h : BoundedQueue.step q (.ret p) = some q') :
    ∃ answer, (view q).status p = .answered answer ∧
      view q' = ⟨(view q).value, Function.update (view q).status p .idle⟩ := by
  obtain ⟨v, hv, hrun⟩ := Transition.run_cons_some.mp (follows q _ q' trivial h)
  cases hrun
  exact AtomicObject.step_ret_some.mp hv

theorem obs_inside {q : Queue} {ev : BoundedQueue.Event Party PendingRequest}
    {d : AtomicObject.Event Party (BoundedQueue.Op PendingRequest)} (hev : isCall ev = false)
    (h : obs q ev = some d) : ∃ p, d = .act p := by
  cases ev with
  | call p op | ret p => cases hev
  | acquire p | notifyOne p sleeper | wake p | resume p timedOut => cases h
  | advance p =>
    refine ⟨p, ?_⟩
    simp only [obs] at h
    split at h <;> cases h <;> rfl

/-- Inside a call, either nothing happens or the call takes effect. -/
theorem view_inside {q q' : Queue} {ev : BoundedQueue.Event Party PendingRequest} (hev : isCall ev = false)
    (h : BoundedQueue.step q ev = some q') : view q' = view q ∨ ∃ p op, (view q).status p = .called op ∧
      view q' = ⟨(apply (view q).value op).1,
        Function.update (view q).status p (.answered (apply (view q).value op).2)⟩ := by
  have hrun := follows q ev q' trivial h
  cases hobs : obs q ev with
  | none =>
    rw [hobs] at hrun
    exact Or.inl (Option.some.inj hrun).symm
  | some d =>
    rw [hobs] at hrun
    obtain ⟨v, hv, hrun⟩ := Transition.run_cons_some.mp hrun
    cases hrun
    obtain ⟨p, rfl⟩ := obs_inside hev hobs
    obtain ⟨op, hop⟩ := AtomicObject.step_act_some.mp hv
    exact Or.inr ⟨p, op, hop⟩

theorem WorkerOk.congr {w : Worker} {t : Thread} {q q' : QueueView} (h : WorkerOk w t q) (hv : q'.value = q.value)
    (hs : q'.status .worker = q.status .worker) : WorkerOk w t q' := by
  refine ⟨?_, ?_⟩
  · rw [h.eq, workerOf, workerOf, hv, hs]
  · rw [hs]
    exact h.calls

theorem workers_update {w : Fin P → Worker} {t : Fin P → Thread} {qs : Fin P → Queue} {j : Fin P} {q : Queue}
    (h : ∀ k, WorkerOk (w k) (t k) (view (qs k))) (hj : WorkerOk (w j) (t j) (view q)) (k : Fin P) :
    WorkerOk (w k) (t k) (view (Function.update qs j q k)) :=
  (Function.forall_update_iff qs (p := fun k q => WorkerOk (w k) (t k) (view q))).mpr ⟨hj, fun k _ => h k⟩ k

theorem refines_tick {t : UInt64} (h : Refines cfg gen s a) (hs : step cfg gen s (.tick t) = some s') :
    ∃ ds b, Transition.run (OpenLoop.step cfg gen) a ds = some b ∧ Refines cfg gen s' b := by
  simp only [OpenLoopThreads.step, Option.ite_none_right_eq_some, Option.some.injEq] at hs
  obtain ⟨hle, rfl⟩ := hs
  refine ⟨[.tick t], { a with clock := t }, ?_, ?_⟩
  · simp [Transition.run, OpenLoop.step, h.clock, hle]
  · refine ⟨rfl, h.running, h.totalBytes, h.workers, ?_⟩
    cases h.producer with
    | between hp hidle hi ht hs => exact .between hp hidle hi ht hs
    | called j hp hidle hst hrun hlt hi ht hclock hs =>
      have hmono : s.clock.toNat ≤ t.toNat := UInt64.le_iff_toNat_le.mp hle
      exact .called j hp hidle hst hrun hlt hi ht (hclock.trans (by exact_mod_cast hmono)) hs
    | done j hp hidle hst hi ht hs => exact .done j hp hidle hst hi ht hs

theorem refines_push (h : Refines cfg gen s a) (hs : step cfg gen s .push = some s') : Refines cfg gen s' a := by
  simp only [OpenLoopThreads.step, Option.ite_none_right_eq_some] at hs
  obtain ⟨⟨hnone, hrun, hlt, htime⟩, hs⟩ := hs
  cases hsel : s.scheduler.select (gen s.i.toNat).size (gen s.i.toNat).draw with
  | none => simp [hsel] at hs
  | some r =>
    obtain ⟨connIdx, scheduler⟩ := r
    by_cases hj : connIdx.toNat < P
    · simp only [hsel, dif_pos hj] at hs
      obtain ⟨q, hq, rfl⟩ := Option.map_eq_some_iff.mp hs
      obtain ⟨-, hview⟩ := view_call hq
      cases h.producer with
      | called j hp | done j hp =>
        rw [hnone] at hp
        cases hp
      | between hp hidle hi ht hs =>
        refine ⟨h.clock, h.running, h.totalBytes, workers_update h.workers ?_, ?_⟩
        · exact (h.workers _).congr (by rw [hview]) (by rw [hview]; rfl)
        · refine .called ⟨connIdx.toNat, hj⟩ rfl ?_ ?_ hrun hlt hi ?_ htime ⟨connIdx, ?_, rfl⟩
          · intro k hk
            dsimp only
            rw [Function.update_of_ne hk]
            exact hidle k
          · simp only [hview, Function.update_self]
          · rw [ht]
          · rw [hs]
            exact hsel
    · simp [hsel, hj] at hs

theorem refines_pushed (h : Refines cfg gen s a) (hs : step cfg gen s .pushed = some s') : Refines cfg gen s' a := by
  cases hpush : s.pushing with
  | none => simp [OpenLoopThreads.step, hpush] at hs
  | some j =>
    simp only [OpenLoopThreads.step, hpush] at hs
    obtain ⟨q, hq, rfl⟩ := Option.map_eq_some_iff.mp hs
    obtain ⟨answer, hans, hview⟩ := view_ret hq
    refine ⟨h.clock, h.running, h.totalBytes, workers_update h.workers ?_, ?_⟩
    · exact (h.workers j).congr (by rw [hview]) (by rw [hview]; rfl)
    · cases h.producer with
      | between hp =>
        rw [hpush] at hp
        cases hp
      | called k hp hidle hst =>
        rw [hpush, Option.some.injEq] at hp
        rw [← hp, hans] at hst
        cases hst
      | done k hp hidle hst hi ht hs =>
        rw [hpush, Option.some.injEq] at hp
        subst hp
        refine .between rfl ?_ hi ht hs
        refine (Function.forall_update_iff s.queues (p := fun _ q => (view q).status .producer = .idle)).mpr
          ⟨?_, hidle⟩
        simp only [hview, Function.update_self]

theorem refines_stop (h : Refines cfg gen s a) (hs : step cfg gen s .stop = some s') :
    ∃ ds b, Transition.run (OpenLoop.step cfg gen) a ds = some b ∧ Refines cfg gen s' b := by
  simp only [OpenLoopThreads.step, Option.ite_none_right_eq_some, Option.some.injEq] at hs
  obtain ⟨⟨hnone, hrun, hlt⟩, rfl⟩ := hs
  cases h.producer with
  | called j hp | done j hp =>
    rw [hnone] at hp
    cases hp
  | between hp hidle hi ht hs =>
    refine ⟨[.stop], { a with running := false }, ?_, ?_⟩
    · simp [Transition.run, OpenLoop.step, h.running, hrun, hi, hlt]
    · exact ⟨h.clock, rfl, h.totalBytes, h.workers, .between hp hidle hi ht hs⟩

theorem Producing.congr (h : Producing cfg gen s a) {a' : OpenLoop.State P}
    (hs : (s'.clock, s'.i, s'.nextTime, s'.scheduler, s'.pushing, s'.running) =
      (s.clock, s.i, s.nextTime, s.scheduler, s.pushing, s.running))
    (ha : (a'.i, a'.nextTime, a'.scheduler) = (a.i, a.nextTime, a.scheduler))
    (hq : ∀ k, (view (s'.queues k)).status .producer = (view (s.queues k)).status .producer) :
    Producing cfg gen s' a' := by
  obtain ⟨clock, i, nextTime, scheduler, pushing, running, bytes, workers, queues⟩ := s'
  simp only [Prod.mk.injEq] at hs ha
  obtain ⟨rfl, rfl, rfl, rfl, rfl, rfl⟩ := hs
  obtain ⟨hai, hat, has⟩ := ha
  cases h with
  | between hp hidle hi ht hs =>
    exact .between hp (fun k => (hq k).trans (hidle k)) (hai.trans hi) (hat.trans ht) (has.trans hs)
  | called k hp hidle hst hrun hlt hi ht hclock hs =>
    exact .called k hp (fun l hl => (hq l).trans (hidle l hl)) ((hq k).trans hst) hrun hlt (hai.trans hi)
      (by rw [hat]; exact ht) hclock (by rw [has]; exact hs)
  | done k hp hidle hst hi ht hs =>
    exact .done k hp (fun l hl => (hq l).trans (hidle l hl)) ((hq k).trans hst) (hai.trans hi) (hat.trans ht)
      (has.trans hs)

theorem producer_update {qs : Fin P → Queue} {j : Fin P} {q : Queue}
    (h : (view q).status .producer = (view (qs j)).status .producer) (k : Fin P) :
    (view (Function.update qs j q k)).status .producer = (view (qs k)).status .producer := by
  by_cases hk : k = j
  · rw [hk, Function.update_self, h]
  · rw [Function.update_of_ne hk]

theorem refines_enter {j : Fin P} (h : Refines cfg gen s a) (hs : step cfg gen s (.enter j) = some s') :
    Refines cfg gen s' a := by
  cases hop : queueOp (s.workers j).phase with
  | none => simp [OpenLoopThreads.step, hop] at hs
  | some op =>
    simp only [OpenLoopThreads.step, hop] at hs
    obtain ⟨q, hq, rfl⟩ := Option.map_eq_some_iff.mp hs
    obtain ⟨hidle, hview⟩ := view_call hq
    refine ⟨h.clock, h.running, h.totalBytes, workers_update h.workers ⟨?_, ?_⟩, ?_⟩
    · rw [(h.workers j).eq, workerOf, workerOf, hidle, hview]
      rfl
    · simp only [hview, Function.update_self, WorkerCalls, hop]
    · exact h.producer.congr rfl rfl (producer_update (by rw [hview]; rfl))

theorem refines_leave {j : Fin P} (h : Refines cfg gen s a) (hs : step cfg gen s (.leave j) = some s') :
    Refines cfg gen s' a := by
  simp only [OpenLoopThreads.step] at hs
  split at hs
  · rename_i answer hpc
    cases hcont : continuation (s.workers j).phase answer with
    | none => simp [hcont] at hs
    | some phase =>
      simp only [hcont] at hs
      obtain ⟨q, hq, rfl⟩ := Option.map_eq_some_iff.mp hs
      obtain ⟨-, -, hview⟩ := view_ret hq
      have hans : (view (s.queues j)).status .worker = .answered answer := congrArg status hpc
      have hself : WorkerOk (a.workers j) { s.workers j with phase := phase } (view q) := by
        refine ⟨?_, ?_⟩
        · rw [(h.workers j).eq, workerOf, workerOf, hans, hview]
          simp only [phaseAfter, hcont, Option.getD_some, Function.update_self, Thread.withQueue]
        · simp only [hview, Function.update_self, WorkerCalls]
      refine ⟨h.clock, h.running, h.totalBytes, ?_, h.producer.congr rfl rfl (producer_update (by rw [hview]; rfl))⟩
      intro k
      by_cases hk : k = j
      · subst hk
        simpa only [Function.update_self] using hself
      · simpa only [Function.update_of_ne hk] using h.workers k
  · cases hs

theorem idle_of_queueOp {p : Phase} {st : Status} (h : WorkerCalls p st) (hop : queueOp p = none) : st = .idle := by
  cases st with
  | idle => rfl
  | called op =>
    rw [WorkerCalls, hop] at h
    cases h
  | answered answer =>
    cases p <;> simp [queueOp] at hop <;> simp [WorkerCalls, continuation] at h

/-- Outside of its queue a worker does not look at it. -/
theorem step_withQueue {t : Thread} (h : queueOp t.phase = none) (queue : List PendingRequest) (running : Bool)
    (clock : UInt64) (ev : WorkerEvent) : (t.withQueue queue).step running clock ev =
      ((t.withQueue []).step running clock ev).map (fun w => { w with queue := queue }) := by
  obtain ⟨phase, client, samples, returns⟩ := t
  have hadvance (req : PendingRequest) (dev : DoRequest.Event) :
      Worker.advance ⟨phase, queue, client, samples, returns⟩ req clock dev =
        (Worker.advance ⟨phase, [], client, samples, returns⟩ req clock dev).map
          (fun w => { w with queue := queue }) := by
    simp only [Worker.advance, Option.map_map]
    congr 1
    funext c
    dsimp only [Function.comp]
    split <;> rfl
  cases phase <;> cases ev <;> simp [queueOp] at h <;>
    simp only [Thread.withQueue, Worker.step, Option.map_none, Option.map_some, Option.map_map] <;>
    first
      | rfl
      | exact hadvance _ _

theorem refines_worker {j : Fin P} {ev : WorkerEvent} (h : Refines cfg gen s a)
    (hs : step cfg gen s (.worker j ev) = some s') :
    ∃ ds b, Transition.run (OpenLoop.step cfg gen) a ds = some b ∧ Refines cfg gen s' b := by
  cases hop : queueOp (s.workers j).phase with
  | some op => simp [OpenLoopThreads.step, hop] at hs
  | none =>
    simp only [OpenLoopThreads.step, hop] at hs
    obtain ⟨w, hw, rfl⟩ := Option.map_eq_some_iff.mp hs
    have hidle := idle_of_queueOp (h.workers j).calls hop
    have hself : a.workers j = (s.workers j).withQueue (view (s.queues j)).value := by
      rw [(h.workers j).eq, workerOf, hidle]
      rfl
    have hstep : (a.workers j).step a.running a.clock ev =
        some { w with queue := (view (s.queues j)).value } := by
      rw [hself, h.running, h.clock, step_withQueue hop, hw]
      rfl
    have hadded : (a.workers j).added = ((s.workers j).withQueue []).added := by
      rw [hself]
      rfl
    refine ⟨[.worker j ev], { a with
      workers := Function.update a.workers j { w with queue := (view (s.queues j)).value }
      totalBytes := a.totalBytes + (a.workers j).added }, ?_, ?_⟩
    · simp [Transition.run, OpenLoop.step, hstep]
    · refine ⟨h.clock, h.running, by rw [h.totalBytes, hadded], ?_, ?_⟩
      · intro k
        by_cases hk : k = j
        · subst hk
          simp only [Function.update_self]
          refine ⟨?_, by rw [hidle]; trivial⟩
          rw [workerOf, hidle]
          rfl
        · simpa only [Function.update_of_ne hk] using h.workers k
      · exact h.producer.congr rfl rfl (fun _ => rfl)

/-- The event of `OpenLoop` at which a call of a worker takes effect. -/
def effectOf (op : BoundedQueue.Op PendingRequest) (queue : List PendingRequest) : WorkerEvent :=
  match op, queue with
  | .size, _ => .test
  | .pop, [] => .timeout
  | _, _ => .pop

theorem step_effect {t : Thread} {op : BoundedQueue.Op PendingRequest} (hop : queueOp t.phase = some op)
    (queue : List PendingRequest) (running : Bool) (clock : UInt64) :
    ∃ phase, continuation t.phase (apply queue op).2 = some phase ∧
      (t.withQueue queue).step running clock (effectOf op queue) =
        some { t.withQueue (apply queue op).1 with phase := phase } := by
  obtain ⟨phase, client, samples, returns⟩ := t
  cases phase <;> simp only [queueOp, Option.some.injEq, reduceCtorEq] at hop
  · subst hop
    exact ⟨_, rfl, rfl⟩
  · subst hop
    cases queue with
    | nil => exact ⟨_, rfl, rfl⟩
    | cons req queue => exact ⟨_, rfl, rfl⟩

theorem added_of_queueOp {t : Thread} {op : BoundedQueue.Op PendingRequest} (hop : queueOp t.phase = some op)
    (queue : List PendingRequest) : (t.withQueue queue).added = 0 := by
  obtain ⟨phase, client, samples, returns⟩ := t
  cases phase <;> simp [queueOp] at hop <;> rfl

theorem refines_worker_effect {j : Fin P} {q : Queue} {op : BoundedQueue.Op PendingRequest} (h : Refines cfg gen s a)
    (hst : (view (s.queues j)).status .worker = .called op)
    (hview : view q = ⟨(apply (view (s.queues j)).value op).1,
      Function.update (view (s.queues j)).status .worker (.answered (apply (view (s.queues j)).value op).2)⟩) :
    ∃ ds b, Transition.run (OpenLoop.step cfg gen) a ds = some b ∧
      Refines cfg gen { s with queues := Function.update s.queues j q } b := by
  have hop : queueOp (s.workers j).phase = some op := by
    have hcalls := (h.workers j).calls
    rw [hst] at hcalls
    exact hcalls
  have hself : a.workers j = (s.workers j).withQueue (view (s.queues j)).value := by
    rw [(h.workers j).eq, workerOf, hst]
    rfl
  obtain ⟨phase, hcont, hstep⟩ := step_effect hop (view (s.queues j)).value a.running a.clock
  rw [← hself] at hstep
  have hadded : (a.workers j).added = 0 := by rw [hself, added_of_queueOp hop]
  refine ⟨[.worker j (effectOf op (view (s.queues j)).value)], { a with
    workers := Function.update a.workers j
      { (s.workers j).withQueue (apply (view (s.queues j)).value op).1 with phase := phase } }, ?_, ?_⟩
  · simp [Transition.run, OpenLoop.step, hstep, hadded]
  · refine ⟨h.clock, h.running, h.totalBytes, ?_, h.producer.congr rfl rfl (producer_update (by rw [hview]; rfl))⟩
    intro k
    by_cases hk : k = j
    · subst hk
      simp only [Function.update_self]
      refine ⟨?_, ?_⟩
      · rw [workerOf, hview]
        simp only [Function.update_self, phaseAfter, hcont, Option.getD_some]
      · simp only [hview, Function.update_self, WorkerCalls, hcont, Option.isSome_some]
    · simpa only [Function.update_of_ne hk] using h.workers k

theorem refines_producer_effect {j : Fin P} {q : Queue} {op : BoundedQueue.Op PendingRequest} (h : Refines cfg gen s a)
    (hst : (view (s.queues j)).status .producer = .called op)
    (hview : view q = ⟨(apply (view (s.queues j)).value op).1,
      Function.update (view (s.queues j)).status .producer (.answered (apply (view (s.queues j)).value op).2)⟩) :
    ∃ ds b, Transition.run (OpenLoop.step cfg gen) a ds = some b ∧
      Refines cfg gen { s with queues := Function.update s.queues j q } b := by
  cases h.producer with
  | between hp hidle =>
    rw [hidle j] at hst
    cases hst
  | done k hp hidle hst' =>
    by_cases hk : j = k
    · rw [hk, hst'] at hst
      cases hst
    · rw [hidle j hk] at hst
      cases hst
  | called k hp hidle hst' hrun hlt hi ht hclock hs =>
    by_cases hk : j = k
    · subst hk
      obtain ⟨connIdx, hsel, hconn⟩ := hs
      rw [hst', AtomicObject.Status.called.injEq] at hst
      subst hst
      refine ⟨[.push], { a with
        i := a.i + 1
        nextTime := s.nextTime
        scheduler := s.scheduler
        workers := Function.update a.workers j
          { a.workers j with queue := (a.workers j).queue ++ [pending cfg s.i (gen s.i.toNat).size] }
        issued := a.issued ++ [⟨j, pending cfg s.i (gen s.i.toNat).size, s.nextTime, a.clock⟩] }, ?_, ?_⟩
      · rw [← hi] at hlt hsel ht ⊢
        have hguard : a.running = true ∧ a.i < cfg.total ∧
            a.nextTime + 1000 * truncate (gen a.i.toNat).waitUs ≤ a.clock.toNat := by
          rw [h.running, h.clock, ← ht]
          exact ⟨hrun, hlt, hclock⟩
        simp only [Transition.run, OpenLoop.step, if_pos hguard, hsel, hconn, dif_pos j.isLt, Fin.eta, Option.bind_some,
          ht]
      · refine ⟨h.clock, h.running, h.totalBytes, ?_, ?_⟩
        · intro k
          by_cases hk : k = j
          · subst hk
            simp only [Function.update_self]
            refine ⟨?_, ?_⟩
            · rw [(h.workers k).eq, workerOf, workerOf, hview]
              rfl
            · rw [hview]
              exact (h.workers k).calls
          · simpa only [Function.update_of_ne hk] using h.workers k
        · refine .done j hp ?_ ?_ (by rw [hi]) rfl rfl
          · intro k hk
            simp only [Function.update_of_ne hk]
            exact hidle k hk
          · simp only [Function.update_self, hview]
            rfl
    · rw [hidle j hk] at hst
      cases hst

theorem refines_inside {j : Fin P} {ev : BoundedQueue.Event Party PendingRequest} (h : Refines cfg gen s a)
    (hs : step cfg gen s (.inside j ev) = some s') :
    ∃ ds b, Transition.run (OpenLoop.step cfg gen) a ds = some b ∧ Refines cfg gen s' b := by
  cases hev : isCall ev with
  | true => simp [OpenLoopThreads.step, hev] at hs
  | false =>
    simp only [OpenLoopThreads.step, hev, Bool.false_eq_true, if_false] at hs
    obtain ⟨q, hq, rfl⟩ := Option.map_eq_some_iff.mp hs
    obtain hview | ⟨p, op, hst, hview⟩ := view_inside hev hq
    · refine ⟨[], a, rfl, h.clock, h.running, h.totalBytes, workers_update h.workers ?_, ?_⟩
      · rw [hview]
        exact h.workers j
      · exact h.producer.congr rfl rfl (producer_update (by rw [hview]))
    · cases p with
      | worker => exact refines_worker_effect h hst hview
      | producer => exact refines_producer_effect h hst hview

theorem refines_step {e : OpenLoopThreads.Event P} (h : Refines cfg gen s a) (hs : step cfg gen s e = some s') :
    ∃ ds b, Transition.run (OpenLoop.step cfg gen) a ds = some b ∧ Refines cfg gen s' b := by
  cases e with
  | tick t => exact refines_tick h hs
  | push => exact ⟨[], a, rfl, refines_push h hs⟩
  | pushed => exact ⟨[], a, rfl, refines_pushed h hs⟩
  | stop => exact refines_stop h hs
  | enter j => exact ⟨[], a, rfl, refines_enter h hs⟩
  | inside j ev => exact refines_inside h hs
  | leave j => exact ⟨[], a, rfl, refines_leave h hs⟩
  | worker j ev => exact refines_worker h hs

theorem refines_start (cfg : WorkloadConfig) (gen : Nat → Turn) (clock : UInt64)
    (policy : PriorityScheduler.SchedulingPolicy) (poolSize : UInt32)
    (stack stack' : Fin poolSize.toNat → Fin headerSize → UInt8) (sendBuf recvBuf : Fin poolSize.toNat → List UInt8) :
    Refines cfg gen (OpenLoopThreads.start clock policy poolSize stack stack' sendBuf recvBuf)
      (OpenLoop.start clock policy poolSize stack stack' sendBuf recvBuf) where
  clock := rfl
  running := rfl
  totalBytes := rfl
  workers := fun _ => ⟨rfl, trivial⟩
  producer := .between rfl (fun _ => rfl) rfl rfl rfl

theorem worker_of_exited (h : Refines cfg gen s a) {j : Fin P} (hj : (s.workers j).phase = .exited) :
    a.workers j = (s.workers j).withQueue (s.queues j).queue := by
  have hidle := idle_of_queueOp (h.workers j).calls (by rw [hj]; rfl)
  rw [(h.workers j).eq, workerOf, hidle]
  rfl

/-- The mutexes and condition variables of the queues change nothing. Every run
of the threads, in which queues are locked, waited for and woken in any order, is
a run of `OpenLoop` in which each operation of a queue is one step; when the
threads have ended they leave the same samples, exchanges and bytes, and so every
request has been served exactly once. -/
theorem threads_refine_open_loop (cfg : WorkloadConfig) (gen : Nat → Turn) (clock : UInt64)
    (policy : PriorityScheduler.SchedulingPolicy) (poolSize : UInt32)
    (stack stack' : Fin poolSize.toNat → Fin headerSize → UInt8) (sendBuf recvBuf : Fin poolSize.toNat → List UInt8)
    {es : List (OpenLoopThreads.Event poolSize.toNat)} {s : OpenLoopThreads.State poolSize.toNat}
    (hr : Transition.run (OpenLoopThreads.step cfg gen)
      (OpenLoopThreads.start clock policy poolSize stack stack' sendBuf recvBuf) es = some s) :
    ∃ ds a, Transition.run (OpenLoop.step cfg gen)
      (OpenLoop.start clock policy poolSize stack stack' sendBuf recvBuf) ds = some a ∧ Refines cfg gen s a ∧
      (OpenLoopThreads.Finished s → OpenLoop.Finished a ∧ OpenLoopResult.Complete cfg gen cfg.total.toNat a ∧
        a.totalBytes = s.totalBytes ∧ ∀ j, a.workers j = (s.workers j).withQueue []) := by
  obtain ⟨ds, a, hrun, hR⟩ := Simulation.exists_run (fun _ _ _ _ h hs => refines_step h hs)
    (refines_start cfg gen clock policy poolSize stack stack' sendBuf recvBuf) hr
  refine ⟨ds, a, hrun, hR, ?_⟩
  rintro ⟨hstop, hexit⟩
  have hinv := OpenLoopDelivery.inv_run
    (OpenLoopDelivery.inv_start cfg gen clock policy poolSize stack stack' sendBuf recvBuf) hrun
  have hphase (j : Fin poolSize.toNat) : (a.workers j).phase = .exited := by
    rw [worker_of_exited hR (hexit j)]
    exact hexit j
  have hfin : OpenLoop.Finished a := ⟨hR.running.trans hstop, hphase⟩
  refine ⟨hfin, OpenLoopResult.complete_of_inv hinv hfin, hR.totalBytes, ?_⟩
  intro j
  have hempty := (hinv.workers j).phase
  simp only [OpenLoopDelivery.PhaseOk, hphase j] at hempty
  rw [worker_of_exited hR (hexit j)] at hempty ⊢
  exact congrArg (Thread.withQueue (s.workers j)) hempty.2.2

/-- One request, whose worker is asleep when it is pushed. The connection fails. -/
def wokenWorker : List (OpenLoopThreads.Event 1) :=
  [.worker 0 .test, .enter 0, .inside 0 (.acquire .worker), .inside 0 (.advance .worker), .push,
    .inside 0 (.acquire .producer), .inside 0 (.advance .producer), .inside 0 (.notifyOne .producer (some .worker)),
    .pushed, .stop, .inside 0 (.resume .worker true), .inside 0 (.advance .worker), .inside 0 (.advance .worker),
    .leave 0, .worker 0 .call, .worker 0 (.send .error), .worker 0 .account, .worker 0 .test, .enter 0,
    .inside 0 (.acquire .worker), .inside 0 (.advance .worker), .leave 0]

theorem wokenWorker_refines : ∃ s, Transition.run (OpenLoopThreads.step ⟨0, 1⟩ (fun _ => ⟨0, 0, fun lo _ => lo⟩))
    (OpenLoopThreads.start 2 .roundRobin 1 (fun _ _ => 0) (fun _ _ => 0) (fun _ => []) (fun _ => [])) wokenWorker =
      some s ∧ ∃ a, OpenLoop.Finished a ∧ OpenLoopResult.Complete ⟨0, 1⟩ (fun _ => ⟨0, 0, fun lo _ => lo⟩) 1 a ∧
        ∀ j, a.workers j = (s.workers j).withQueue [] := by
  have hrun : (Transition.run (OpenLoopThreads.step ⟨0, 1⟩ (fun _ => ⟨0, 0, fun lo _ => lo⟩))
      (OpenLoopThreads.start 2 .roundRobin 1 (fun _ _ => 0) (fun _ _ => 0) (fun _ => []) (fun _ => [])) wokenWorker).map
      (fun s => decide (OpenLoopThreads.Finished s)) = some true := by decide +kernel
  obtain ⟨s, hs, hfin⟩ := Option.map_eq_some_iff.mp hrun
  obtain ⟨-, a, -, -, hend⟩ := threads_refine_open_loop _ _ _ _ _ _ _ _ _ hs
  obtain ⟨hfin', hcomplete, -, hworkers⟩ := hend (of_decide_eq_true hfin)
  exact ⟨s, hs, a, hfin', hcomplete, hworkers⟩

end DcBench.OpenLoopRefinement

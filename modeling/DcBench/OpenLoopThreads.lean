import DcBench.OpenLoop
import DcBench.QueueAtomicity

namespace DcBench.OpenLoopThreads

open DcBench.Lib DcBench.Message DcBench.Workload DcBench.PriorityScheduler DcBench.OpenLoop

/-- The two threads that use the queue of a connection. -/
inductive Party
  | producer
  | worker
deriving DecidableEq

instance fintypeParty : Fintype Party where
  elems := {Party.producer, Party.worker}
  complete := fun p => by cases p <;> decide

/-- A worker thread without the queue, which it shares with the producer. -/
structure Thread where
  phase : Phase
  client : DoRequest.Client
  samples : List UInt64
  returns : List UInt64

def Thread.withQueue (t : Thread) (queue : List PendingRequest) : Worker :=
  ⟨t.phase, queue, t.client, t.samples, t.returns⟩

def ofWorker (w : Worker) : Thread := ⟨w.phase, w.client, w.samples, w.returns⟩

abbrev Queue := BoundedQueue.State Party PendingRequest

/-- `run_open_loop` with the queues as they are, each with its mutex and its
condition variable. `pushing` is the queue whose `push` the producer is in. -/
structure State (P : Nat) where
  clock : UInt64
  i : UInt32
  nextTime : Int
  scheduler : Scheduler
  pushing : Option (Fin P)
  running : Bool
  totalBytes : UInt64
  workers : Fin P → Thread
  queues : Fin P → Queue

/-- `push` and `enter` are the calls of the queues' operations, `pushed` and
`leave` the returns from them, and `inside` is all that happens in between. -/
inductive Event (P : Nat)
  | tick (reading : UInt64)
  | push
  | pushed
  | stop
  | enter (j : Fin P)
  | inside (j : Fin P) (ev : BoundedQueue.Event Party PendingRequest)
  | leave (j : Fin P)
  | worker (j : Fin P) (ev : WorkerEvent)

/-- The operation of the queue that a worker calls in this phase. -/
def queueOp : Phase → Option (BoundedQueue.Op PendingRequest)
  | .testSize => some .size
  | .pop => some .pop
  | _ => none

/-- Where the worker goes on with the answer. -/
def continuation : Phase → BoundedQueue.Answer PendingRequest → Option Phase
  | .testSize, .size n => some (if 0 < n then .pop else .exited)
  | .pop, .popped (some req) => some (.popped req)
  | .pop, .popped none => some .testRunning
  | _, _ => none

def isCall : BoundedQueue.Event Party PendingRequest → Bool
  | .call _ _ | .ret _ => true
  | _ => false

/-- One step of one of the threads. What a worker does outside of its queue is
the same as in `OpenLoop`. -/
def step {P : Nat} (cfg : WorkloadConfig) (gen : Nat → Turn) (s : State P) : Event P → Option (State P)
  | .tick t => if s.clock ≤ t then some { s with clock := t } else none
  | .push =>
    let turn := gen s.i.toNat
    let nextTime := s.nextTime + 1000 * truncate turn.waitUs
    if s.pushing = none ∧ s.running ∧ s.i < cfg.total ∧ nextTime ≤ s.clock.toNat then
      match s.scheduler.select turn.size turn.draw with
      | some (connIdx, scheduler) =>
        if h : connIdx.toNat < P then
          let req := pending cfg s.i turn.size
          (BoundedQueue.step (s.queues ⟨connIdx.toNat, h⟩) (.call .producer (.push req))).map (fun q =>
            { s with
              nextTime := nextTime
              scheduler := scheduler
              pushing := some ⟨connIdx.toNat, h⟩
              queues := Function.update s.queues ⟨connIdx.toNat, h⟩ q })
        else none
      | none => none
    else none
  | .pushed =>
    match s.pushing with
    | some j => (BoundedQueue.step (s.queues j) (.ret .producer)).map (fun q =>
        { s with i := s.i + 1, pushing := none, queues := Function.update s.queues j q })
    | none => none
  | .stop => if s.pushing = none ∧ s.running ∧ ¬ s.i < cfg.total then some { s with running := false } else none
  | .enter j =>
    match queueOp (s.workers j).phase with
    | some op => (BoundedQueue.step (s.queues j) (.call .worker op)).map (fun q =>
        { s with queues := Function.update s.queues j q })
    | none => none
  | .inside j ev =>
    if isCall ev then none
    else (BoundedQueue.step (s.queues j) ev).map (fun q => { s with queues := Function.update s.queues j q })
  | .leave j =>
    match (s.queues j).pc .worker with
    | .unlock answer =>
      match continuation (s.workers j).phase answer with
      | some phase => (BoundedQueue.step (s.queues j) (.ret .worker)).map (fun q =>
          { s with
            workers := Function.update s.workers j { s.workers j with phase := phase }
            queues := Function.update s.queues j q })
      | none => none
    | _ => none
  | .worker j ev =>
    match queueOp (s.workers j).phase with
    | some _ => none
    | none => (((s.workers j).withQueue []).step s.running s.clock ev).map (fun w =>
        { s with
          workers := Function.update s.workers j (ofWorker w)
          totalBytes := s.totalBytes + ((s.workers j).withQueue []).added })

def start (clock : UInt64) (policy : SchedulingPolicy) (poolSize : UInt32)
    (stack stack' : Fin poolSize.toNat → Fin headerSize → UInt8)
    (sendBuf recvBuf : Fin poolSize.toNat → List UInt8) : State poolSize.toNat where
  clock := clock
  i := 0
  nextTime := clock.toNat
  scheduler := fresh policy poolSize
  pushing := none
  running := true
  totalBytes := 0
  workers := fun j => ⟨.testRunning, DoRequest.start (stack j) (stack' j) (sendBuf j) (recvBuf j), [], []⟩
  queues := fun _ => BoundedQueue.start

def Finished {P : Nat} (s : State P) : Prop := s.running = false ∧ ∀ j, (s.workers j).phase = .exited

instance decidableFinished {P : Nat} (s : State P) : Decidable (Finished s) :=
  inferInstanceAs (Decidable (s.running = false ∧ ∀ j, (s.workers j).phase = .exited))

end DcBench.OpenLoopThreads

import DcBench.DoRequest
import DcBench.Workload
import DcBench.PriorityScheduler
import Mathlib.Algebra.BigOperators.Fin

namespace DcBench.OpenLoop

open DcBench.Lib DcBench.Message DcBench.ExactTransfer DcBench.Workload DcBench.PriorityScheduler

structure PendingRequest where
  id : UInt64
  size : UInt32
  priority : UInt8
  warmup : Bool
deriving DecidableEq

def PendingRequest.call (req : PendingRequest) : DoRequest.Call := ⟨req.id, req.size, req.priority⟩

/-- The next action of `open_loop_worker`. `popped` and `inRequest` hold the
request taken from the queue, `returned` also the value of `do_request`. -/
inductive Phase
  | testRunning
  | testSize
  | pop
  | popped (req : PendingRequest)
  | inRequest (req : PendingRequest)
  | returned (req : PendingRequest) (rtt : UInt64)
  | exited
deriving DecidableEq

/-- One pooled connection: its queue, the worker thread that serves it with the
state of its `do_request`, and its sample vector. `returns` is history, the
clock reading at the end of each call. -/
structure Worker where
  phase : Phase
  queue : List PendingRequest
  client : DoRequest.Client
  samples : List UInt64
  returns : List UInt64
deriving DecidableEq

/-- A request of the producer: the connection chosen for it, its scheduled
arrival and the time of its push. -/
structure Issued where
  conn : Nat
  req : PendingRequest
  arrival : Int
  release : UInt64
deriving DecidableEq

/-- `run_open_loop` with `P` connections. `i`, `nextTime`, `scheduler` belong to
the producer, `issued` is its history. Time is in nanoseconds. -/
structure State (P : Nat) where
  clock : UInt64
  i : UInt32
  nextTime : Int
  scheduler : Scheduler
  running : Bool
  totalBytes : UInt64
  workers : Fin P → Worker
  issued : List Issued

inductive WorkerEvent
  | test
  | pop
  | timeout
  | call
  | send (result : SendResult)
  | recv (result : RecvResult)
  | now
  | account
deriving DecidableEq

inductive Event (P : Nat)
  | tick (reading : UInt64)
  | push
  | stop
  | worker (j : Fin P) (ev : WorkerEvent)
deriving DecidableEq

/-- One more step inside `do_request`. When it returns, its value is the round
trip of the exchange it has just recorded. -/
def Worker.advance (w : Worker) (req : PendingRequest) (clock : UInt64) (ev : DoRequest.Event) : Option Worker :=
  (DoRequest.step w.client ev).map (fun c =>
    if c.phase = .idle then
      { w with
        client := c
        phase := .returned req ((c.exchanges.getLast?.map DoRequest.Exchange.rtt).getD 0)
        returns := w.returns ++ [clock] }
    else { w with client := c })

/-- One step of `open_loop_worker`. `pop` waits for a condition and fails only
when its time is up and the queue is empty. -/
def Worker.step (w : Worker) (running : Bool) (clock : UInt64) : WorkerEvent → Option Worker
  | .test =>
    match w.phase with
    | .testRunning => some { w with phase := if running then .pop else .testSize }
    | .testSize => some { w with phase := if 0 < w.queue.length then .pop else .exited }
    | _ => none
  | .pop =>
    match w.phase, w.queue with
    | .pop, req :: queue => some { w with phase := .popped req, queue := queue }
    | _, _ => none
  | .timeout =>
    match w.phase, w.queue with
    | .pop, [] => some { w with phase := .testRunning }
    | _, _ => none
  | .call =>
    match w.phase with
    | .popped req => (DoRequest.step w.client (.call req.call clock)).map (fun c =>
        { w with client := c, phase := .inRequest req })
    | _ => none
  | .send r =>
    match w.phase with
    | .inRequest req => w.advance req clock (.send r)
    | _ => none
  | .recv r =>
    match w.phase with
    | .inRequest req => w.advance req clock (.recv r)
    | _ => none
  | .now =>
    match w.phase with
    | .inRequest req => w.advance req clock (.now clock)
    | _ => none
  | .account =>
    match w.phase with
    | .returned req rtt =>
      some { w with
        phase := .testRunning
        samples := if 0 < rtt ∧ req.warmup = false then w.samples ++ [rtt] else w.samples }
    | _ => none

def Worker.added (w : Worker) : UInt64 :=
  match w.phase with
  | .returned req _ => 22 + req.size.toUInt64
  | _ => 0

def pending (cfg : WorkloadConfig) (i : UInt32) (size : UInt32) : PendingRequest where
  id := i.toUInt64
  size := size
  priority := priorityForSize size
  warmup := i < cfg.warmupRequests

/-- One step of the program. The producer pushes a request at or after its
scheduled arrival; an index outside of `queues` has no defined behaviour. -/
def step {P : Nat} (cfg : WorkloadConfig) (gen : Nat → Turn) (s : State P) : Event P → Option (State P)
  | .tick t => if s.clock ≤ t then some { s with clock := t } else none
  | .push =>
    let turn := gen s.i.toNat
    let nextTime := s.nextTime + 1000 * truncate turn.waitUs
    if s.running ∧ s.i < cfg.total ∧ nextTime ≤ s.clock.toNat then
      match s.scheduler.select turn.size turn.draw with
      | some (connIdx, scheduler) =>
        if h : connIdx.toNat < P then
          let req := pending cfg s.i turn.size
          let w := s.workers ⟨connIdx.toNat, h⟩
          some { s with
            i := s.i + 1
            nextTime := nextTime
            scheduler := scheduler
            workers := Function.update s.workers ⟨connIdx.toNat, h⟩ { w with queue := w.queue ++ [req] }
            issued := s.issued ++ [⟨connIdx.toNat, req, nextTime, s.clock⟩] }
        else none
      | none => none
    else none
  | .stop => if s.running ∧ ¬ s.i < cfg.total then some { s with running := false } else none
  | .worker j ev =>
    ((s.workers j).step s.running s.clock ev).map (fun w =>
      { s with
        workers := Function.update s.workers j w
        totalBytes := s.totalBytes + (s.workers j).added })

/-- The state in which the producer enters its loop. The workers' buffers hold
whatever their threads have left in them. -/
def start (clock : UInt64) (policy : SchedulingPolicy) (poolSize : UInt32)
    (stack stack' : Fin poolSize.toNat → Fin headerSize → UInt8)
    (sendBuf recvBuf : Fin poolSize.toNat → List UInt8) : State poolSize.toNat where
  clock := clock
  i := 0
  nextTime := clock.toNat
  scheduler := fresh policy poolSize
  running := true
  totalBytes := 0
  workers := fun j => ⟨.testRunning, [], DoRequest.start (stack j) (stack' j) (sendBuf j) (recvBuf j), [], []⟩
  issued := []

def Finished {P : Nat} (s : State P) : Prop := s.running = false ∧ ∀ j, (s.workers j).phase = .exited

instance {P : Nat} (s : State P) : Decidable (Finished s) :=
  inferInstanceAs (Decidable (s.running = false ∧ ∀ j, (s.workers j).phase = .exited))

/-- `result.total_requests`, the number of samples over all workers. -/
def State.totalRequests {P : Nat} (s : State P) : Nat := ∑ j, (s.workers j).samples.length

end DcBench.OpenLoop

import DcBench.DoRequest
import DcBench.Workload
import Mathlib.Algebra.BigOperators.Fin

namespace DcBench.ClosedLoop

open DcBench.Lib DcBench.Message DcBench.ExactTransfer DcBench.Workload

/-- The next action of `closed_loop_worker`. -/
inductive Phase
  | test
  | inRequest (size : UInt32)
  | returned (size : UInt32) (rtt : UInt64)
  | exited
deriving DecidableEq

/-- A worker and its connection; `i` is its loop variable. -/
structure Worker where
  phase : Phase
  i : UInt32
  client : DoRequest.Client
  samples : List UInt64
deriving DecidableEq

structure State (P : Nat) where
  clock : UInt64
  totalBytes : UInt64
  workers : Fin P → Worker

inductive WorkerEvent
  | next
  | send (result : SendResult)
  | recv (result : RecvResult)
  | now
  | account
deriving DecidableEq

inductive Event (P : Nat)
  | tick (reading : UInt64)
  | worker (j : Fin P) (ev : WorkerEvent)
deriving DecidableEq

def Worker.advance (w : Worker) (size : UInt32) (ev : DoRequest.Event) : Option Worker :=
  (DoRequest.step w.client ev).map (fun c =>
    if c.phase = .idle then
      { w with
        client := c
        phase := .returned size ((c.exchanges.getLast?.map DoRequest.Exchange.rtt).getD 0) }
    else { w with client := c })

/-- One step of `closed_loop_worker`. `sizes k` is what the worker's own
generator yields in its turn `k`; the scheduler of the client is not asked. -/
def Worker.step (w : Worker) (warmup count : UInt32) (sizes : Nat → UInt32) (clock : UInt64) :
    WorkerEvent → Option Worker
  | .next =>
    match w.phase with
    | .test =>
      if w.i < warmup + count then
        let size := sizes w.i.toNat
        (DoRequest.step w.client (.call ⟨w.i.toUInt64, size, priorityForSize size⟩ clock)).map (fun c =>
          { w with client := c, phase := .inRequest size })
      else some { w with phase := .exited }
    | _ => none
  | .send r =>
    match w.phase with
    | .inRequest size => w.advance size (.send r)
    | _ => none
  | .recv r =>
    match w.phase with
    | .inRequest size => w.advance size (.recv r)
    | _ => none
  | .now =>
    match w.phase with
    | .inRequest size => w.advance size (.now clock)
    | _ => none
  | .account =>
    match w.phase with
    | .returned _ rtt =>
      some { w with
        phase := .test
        i := w.i + 1
        samples := if 0 < rtt ∧ warmup ≤ w.i then w.samples ++ [rtt] else w.samples }
    | _ => none

def Worker.added (w : Worker) : UInt64 :=
  match w.phase with
  | .returned size _ => 22 + size.toUInt64
  | _ => 0

def step (cfg : WorkloadConfig) (poolSize : UInt32) (sizes : Fin poolSize.toNat → Nat → UInt32)
    (s : State poolSize.toNat) : Event poolSize.toNat → Option (State poolSize.toNat)
  | .tick t => if s.clock ≤ t then some { s with clock := t } else none
  | .worker j ev =>
    ((s.workers j).step (cfg.warmup poolSize) (cfg.count poolSize (UInt32.ofNat j)) (sizes j) s.clock ev).map
      (fun w =>
        { s with
          workers := Function.update s.workers j w
          totalBytes := s.totalBytes + (s.workers j).added })

def start (clock : UInt64) (poolSize : UInt32) (stack stack' : Fin poolSize.toNat → Fin headerSize → UInt8)
    (sendBuf recvBuf : Fin poolSize.toNat → List UInt8) : State poolSize.toNat where
  clock := clock
  totalBytes := 0
  workers := fun j => ⟨.test, 0, DoRequest.start (stack j) (stack' j) (sendBuf j) (recvBuf j), []⟩

inductive Moved (warmup count : UInt32) (sizes : Nat → UInt32) (clock : UInt64) (w : Worker) : Worker → Prop
  | call (hp : w.phase = .test) (hlt : w.i < warmup + count) (hc : w.client.phase = .idle) :
      Moved warmup count sizes clock w
        { w with
          client := w.client.call ⟨w.i.toUInt64, sizes w.i.toNat, priorityForSize (sizes w.i.toNat)⟩ clock
          phase := .inRequest (sizes w.i.toNat) }
  | exit (hp : w.phase = .test) (hlt : ¬ w.i < warmup + count) :
      Moved warmup count sizes clock w { w with phase := .exited }
  | goesOn (size : UInt32) (dev : DoRequest.Event) (c : DoRequest.Client) (hp : w.phase = .inRequest size)
      (hs : DoRequest.step w.client dev = some c) (hc : c.phase ≠ .idle) :
      Moved warmup count sizes clock w { w with client := c }
  | returns (size : UInt32) (dev : DoRequest.Event) (c : DoRequest.Client) (hp : w.phase = .inRequest size)
      (hs : DoRequest.step w.client dev = some c) (ht : ∀ t, dev = .now t → t = clock) (hc : c.phase = .idle) :
      Moved warmup count sizes clock w
        { w with
          client := c
          phase := .returned size ((c.exchanges.getLast?.map DoRequest.Exchange.rtt).getD 0) }
  | account (size : UInt32) (rtt : UInt64) (hp : w.phase = .returned size rtt) :
      Moved warmup count sizes clock w
        { w with
          phase := .test
          i := w.i + 1
          samples := if 0 < rtt ∧ warmup ≤ w.i then w.samples ++ [rtt] else w.samples }

variable {warmup count : UInt32} {sizes : Nat → UInt32} {clock : UInt64} {w w' : Worker}

theorem moved_of_advance {size : UInt32} {dev : DoRequest.Event} (hp : w.phase = .inRequest size)
    (ht : ∀ t, dev = .now t → t = clock) (h : w.advance size dev = some w') :
    Moved warmup count sizes clock w w' := by
  obtain ⟨c, hc, rfl⟩ := Option.map_eq_some_iff.mp h
  by_cases hidle : c.phase = .idle
  · rw [if_pos hidle]
    exact .returns size dev c hp hc ht hidle
  · rw [if_neg hidle]
    exact .goesOn size dev c hp hc hidle

theorem moved_of_step {ev : WorkerEvent} (h : w.step warmup count sizes clock ev = some w') :
    Moved warmup count sizes clock w w' := by
  cases ev with
  | next =>
    cases hp : w.phase with
    | test =>
      simp only [Worker.step, hp] at h
      by_cases hlt : w.i < warmup + count
      · rw [if_pos hlt] at h
        obtain ⟨c, hc, rfl⟩ := Option.map_eq_some_iff.mp h
        cases hidle : w.client.phase <;> simp [DoRequest.step, hidle] at hc
        subst hc
        exact .call hp hlt hidle
      · rw [if_neg hlt, Option.some.injEq] at h
        subst h
        exact .exit hp hlt
    | inRequest size | returned size rtt | exited => simp [Worker.step, hp] at h
  | send r =>
    cases hp : w.phase with
    | inRequest size =>
      simp only [Worker.step, hp] at h
      exact moved_of_advance hp (by simp) h
    | test | returned size rtt | exited => simp [Worker.step, hp] at h
  | recv r =>
    cases hp : w.phase with
    | inRequest size =>
      simp only [Worker.step, hp] at h
      exact moved_of_advance hp (by simp) h
    | test | returned size rtt | exited => simp [Worker.step, hp] at h
  | now =>
    cases hp : w.phase with
    | inRequest size =>
      simp only [Worker.step, hp] at h
      exact moved_of_advance hp (fun t ht => by cases ht; rfl) h
    | test | returned size rtt | exited => simp [Worker.step, hp] at h
  | account =>
    cases hp : w.phase with
    | returned size rtt =>
      simp only [Worker.step, hp, Option.some.injEq] at h
      subst h
      exact .account size rtt hp
    | test | inRequest size | exited => simp [Worker.step, hp] at h

variable {cfg : WorkloadConfig} {poolSize : UInt32} {gens : Fin poolSize.toNat → Nat → UInt32}
  {s s' : State poolSize.toNat} {e : Event poolSize.toNat}

theorem forall_workers_of_step (hs : step cfg poolSize gens s e = some s') {p : Fin poolSize.toNat → Worker → Prop}
    (h : ∀ j, p j (s.workers j))
    (hmove : ∀ (j : Fin poolSize.toNat) w,
      Moved (cfg.warmup poolSize) (cfg.count poolSize (UInt32.ofNat j)) (gens j) s.clock (s.workers j) w → p j w) :
    ∀ j, p j (s'.workers j) := by
  cases e with
  | tick t =>
    obtain ⟨-, heq⟩ := Option.ite_none_right_eq_some.mp hs
    cases heq
    exact h
  | worker j ev =>
    obtain ⟨w, hw, rfl⟩ := Option.map_eq_some_iff.mp hs
    exact (Function.forall_update_iff s.workers p).mpr ⟨hmove j w (moved_of_step hw), fun k _ => h k⟩

end DcBench.ClosedLoop

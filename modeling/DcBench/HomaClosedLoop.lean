import DcBench.HomaOpenLoop
import DcBench.ClosedLoopBooks

namespace DcBench.HomaClosedLoop

open DcBench.Lib DcBench.Message DcBench.Workload DcBench.Accounts
open DcBench.ClosedLoopBooks (call callOf id_of_callOf)

/-- The next action of `HomaClient::closed_loop_worker`. The last two hold the
value of `recv`, `stamped` also the time read after it. -/
inductive Phase
  | socket
  | test
  | send (hdr : MessageHeader)
  | recv (hdr : MessageHeader)
  | received (hdr : MessageHeader) (received : Int)
  | stamped (hdr : MessageHeader) (received : Int) (recvTs : UInt64)
  | exited
deriving DecidableEq

inductive Outcome
  | sendFails
  | recvFails
  | success (rtt : UInt64)
deriving DecidableEq

structure Exchange where
  request : MessageHeader
  outcome : Outcome
deriving DecidableEq

/-- A worker; `i` is its loop variable, `exchanges` is history. -/
structure Worker where
  phase : Phase
  i : UInt32
  samples : List UInt64
  exchanges : List Exchange
deriving DecidableEq

structure State (P : Nat) where
  clock : UInt64
  totalBytes : UInt64
  workers : Fin P → Worker

inductive WorkerEvent
  | socket (valid : Bool)
  | next
  | send (sent : Int)
  | recv (received : Int)
  | now
  | account
deriving DecidableEq

inductive Event (P : Nat)
  | tick (reading : UInt64)
  | worker (j : Fin P) (ev : WorkerEvent)
deriving DecidableEq

/-- One step of `closed_loop_worker`. A failed send goes to the next request at
once; a failed receive is counted like an answer, but gives no sample. -/
def Worker.step (w : Worker) (warmup count : UInt32) (sizes : Nat → UInt32) (clock : UInt64) :
    WorkerEvent → Option Worker
  | .socket valid =>
    match w.phase with
    | .socket => some { w with phase := if valid then .test else .exited }
    | _ => none
  | .next =>
    match w.phase with
    | .test =>
      some { w with phase :=
        if w.i < warmup + count then .send (HomaOpenLoop.header w.i (sizes w.i.toNat) clock) else .exited }
    | _ => none
  | .send sent =>
    match w.phase with
    | .send hdr =>
      some (if sent < 0 then
        { w with phase := .test, i := w.i + 1, exchanges := w.exchanges ++ [⟨hdr, .sendFails⟩] }
      else { w with phase := .recv hdr })
    | _ => none
  | .recv received =>
    match w.phase with
    | .recv hdr => some { w with phase := .received hdr received }
    | _ => none
  | .now =>
    match w.phase with
    | .received hdr received => some { w with phase := .stamped hdr received clock }
    | _ => none
  | .account =>
    match w.phase with
    | .stamped hdr received recvTs =>
      let rtt := recvTs - hdr.sendTimestampNs
      some { w with
        phase := .test
        i := w.i + 1
        samples := if 0 < received ∧ warmup ≤ w.i then w.samples ++ [rtt] else w.samples
        exchanges := w.exchanges ++ [⟨hdr, if 0 < received then .success rtt else .recvFails⟩] }
    | _ => none

def Worker.added (w : Worker) : UInt64 :=
  match w.phase with
  | .stamped hdr _ _ => 22 + hdr.payloadSize.toUInt64
  | _ => 0

def step (cfg : WorkloadConfig) (concurrency : UInt32) (sizes : Fin concurrency.toNat → Nat → UInt32)
    (s : State concurrency.toNat) : Event concurrency.toNat → Option (State concurrency.toNat)
  | .tick t => if s.clock ≤ t then some { s with clock := t } else none
  | .worker j ev =>
    ((s.workers j).step (cfg.warmup concurrency) (cfg.count concurrency (UInt32.ofNat j)) (sizes j) s.clock ev).map
      (fun w =>
        { s with
          workers := Function.update s.workers j w
          totalBytes := s.totalBytes + (s.workers j).added })

def start (clock : UInt64) (concurrency : UInt32) : State concurrency.toNat where
  clock := clock
  totalBytes := 0
  workers := fun _ => ⟨.socket, 0, [], []⟩

inductive Moved (warmup count : UInt32) (sizes : Nat → UInt32) (clock : UInt64) (w : Worker) : Worker → Prop
  | opened (hp : w.phase = .socket) : Moved warmup count sizes clock w { w with phase := .test }
  | invalid (hp : w.phase = .socket) : Moved warmup count sizes clock w { w with phase := .exited }
  | stamp (hp : w.phase = .test) (hlt : w.i < warmup + count) :
      Moved warmup count sizes clock w
        { w with phase := .send (HomaOpenLoop.header w.i (sizes w.i.toNat) clock) }
  | exit (hp : w.phase = .test) (hlt : ¬ w.i < warmup + count) :
      Moved warmup count sizes clock w { w with phase := .exited }
  | sendFails (hdr : MessageHeader) (hp : w.phase = .send hdr) :
      Moved warmup count sizes clock w
        { w with phase := .test, i := w.i + 1, exchanges := w.exchanges ++ [⟨hdr, .sendFails⟩] }
  | send (hdr : MessageHeader) (hp : w.phase = .send hdr) :
      Moved warmup count sizes clock w { w with phase := .recv hdr }
  | recv (hdr : MessageHeader) (received : Int) (hp : w.phase = .recv hdr) :
      Moved warmup count sizes clock w { w with phase := .received hdr received }
  | now (hdr : MessageHeader) (received : Int) (hp : w.phase = .received hdr received) :
      Moved warmup count sizes clock w { w with phase := .stamped hdr received clock }
  | account (hdr : MessageHeader) (received : Int) (recvTs : UInt64) (hp : w.phase = .stamped hdr received recvTs) :
      Moved warmup count sizes clock w
        { w with
          phase := .test
          i := w.i + 1
          samples := if 0 < received ∧ warmup ≤ w.i then w.samples ++ [recvTs - hdr.sendTimestampNs] else w.samples
          exchanges := w.exchanges ++
            [⟨hdr, if 0 < received then .success (recvTs - hdr.sendTimestampNs) else .recvFails⟩] }

variable {warmup count : UInt32} {sizes : Nat → UInt32} {clock : UInt64} {w w' : Worker}

theorem moved_of_step {ev : WorkerEvent} (h : w.step warmup count sizes clock ev = some w') :
    Moved warmup count sizes clock w w' := by
  revert h
  fun_cases Worker.step w warmup count sizes clock ev
  all_goals intro h
  all_goals cases h
  case case1 valid hp =>
    cases valid
    · exact .invalid hp
    · exact .opened hp
  case case3 hp =>
    by_cases hlt : w.i < warmup + count
    · rw [if_pos hlt]
      exact .stamp hp hlt
    · rw [if_neg hlt]
      exact .exit hp hlt
  case case5 sent hdr hp =>
    by_cases hneg : sent < 0
    · rw [if_pos hneg]
      exact .sendFails hdr hp
    · rw [if_neg hneg]
      exact .send hdr hp
  case case7 received hdr hp => exact .recv hdr received hp
  case case9 hdr received hp => exact .now hdr received hp
  case case11 hdr received recvTs hp rtt => exact .account hdr received recvTs hp

def entry (warmup : UInt64) (x : Exchange) : Entry where
  size := x.request.payloadSize
  added := decide (x.outcome ≠ .sendFails)
  sample :=
    match x.outcome with
    | .success rtt => if warmup ≤ x.request.id then some rtt else none
    | _ => none

def Phase.header : Phase → Option MessageHeader
  | .send hdr | .recv hdr | .received hdr _ | .stamped hdr _ _ => some hdr
  | _ => none

/-- The worker issues the requests of its generator in order, and books each
when it is over. -/
structure WorkerInv (warmup count : UInt32) (sizes : Nat → UInt32) (w : Worker) : Prop where
  turn : w.i ≤ warmup + count
  calls : w.exchanges.map (fun x => callOf x.request) = (List.range w.i.toNat).map (call sizes)
  busy : ∀ hdr, w.phase.header = some hdr → w.i < warmup + count ∧ callOf hdr = call sizes w.i.toNat
  samples : w.samples = w.exchanges.filterMap (fun x => (entry warmup.toUInt64 x).sample)

theorem WorkerInv.setPhase (h : WorkerInv warmup count sizes w) {p : Phase}
    (hp : ∀ hdr, p.header = some hdr → w.phase.header = some hdr) :
    WorkerInv warmup count sizes { w with phase := p } :=
  ⟨h.turn, h.calls, fun hdr hh => h.busy hdr (hp hdr hh), h.samples⟩

theorem WorkerInv.over (h : WorkerInv warmup count sizes w) {hdr : MessageHeader} {outcome : Outcome}
    {samples : List UInt64} (hp : w.phase.header = some hdr)
    (hs : samples = w.samples ++ (entry warmup.toUInt64 ⟨hdr, outcome⟩).sample.toList) :
    WorkerInv warmup count sizes
      { w with phase := .test, i := w.i + 1, samples := samples, exchanges := w.exchanges ++ [⟨hdr, outcome⟩] } := by
  obtain ⟨hlt, hcall⟩ := h.busy hdr hp
  have hsucc := toNat_succ_of_lt hlt
  refine ⟨?_, ?_, nofun, ?_⟩
  · rw [UInt32.le_iff_toNat_le, hsucc]
    exact UInt32.lt_iff_toNat_lt.mp hlt
  · rw [hsucc, List.map_append, h.calls, List.range_succ, List.map_append, List.map_singleton, List.map_singleton,
      hcall]
  · rw [hs, h.samples, List.filterMap_append]
    cases hsample : (entry warmup.toUInt64 ⟨hdr, outcome⟩).sample <;> simp [hsample]

theorem callOf_header (sizes : Nat → UInt32) (i : UInt32) (clock : UInt64) :
    callOf (HomaOpenLoop.header i (sizes i.toNat) clock) = call sizes i.toNat := by
  rw [call, UInt64.ofNat_uInt32ToNat]
  rfl

theorem WorkerInv.moved (h : WorkerInv warmup count sizes w) (hm : Moved warmup count sizes clock w w') :
    WorkerInv warmup count sizes w' := by
  cases hm with
  | opened hp | invalid hp | exit hp hlt => exact h.setPhase nofun
  | stamp hp hlt =>
    refine ⟨h.turn, h.calls, ?_, h.samples⟩
    rintro _ ⟨⟩
    exact ⟨hlt, callOf_header sizes w.i clock⟩
  | sendFails hdr hp => exact h.over (by rw [hp]; rfl) (List.append_nil _).symm
  | send hdr hp => exact h.setPhase (fun _ hh => by rw [hp]; exact hh)
  | recv hdr received hp => exact h.setPhase (fun _ hh => by rw [hp]; exact hh)
  | now hdr received hp => exact h.setPhase (fun _ hh => by rw [hp]; exact hh)
  | account hdr received recvTs hp =>
    have hhdr : w.phase.header = some hdr := by
      rw [hp]
      rfl
    have hle : warmup.toUInt64 ≤ hdr.id ↔ warmup ≤ w.i := by
      rw [id_of_callOf (h.busy hdr hhdr).2, UInt32.toUInt64_le]
    apply h.over hhdr
    by_cases hrec : 0 < received
    · by_cases hmeas : warmup ≤ w.i <;> simp [entry, hrec, hle, hmeas]
    · simp [entry, hrec]

def bytes (warmup : UInt64) (w : Worker) : Nat :=
  (((w.exchanges.map (entry warmup)).filter Entry.added).map Entry.frame).sum

theorem bytes_moved (hm : Moved warmup count sizes clock w w') :
    bytes warmup.toUInt64 w' = bytes warmup.toUInt64 w + w.added.toNat := by
  cases hm with
  | opened hp | invalid hp | exit hp hlt | stamp hp hlt | send hdr hp | recv hdr received hp | now hdr received hp =>
    simp [bytes, Worker.added, hp]
  | sendFails hdr hp => simp [bytes, Worker.added, hp, entry]
  | account hdr received recvTs hp =>
    have hadd : w.added.toNat = headerSize + hdr.payloadSize.toNat := by
      rw [Worker.added, hp]
      exact toNat_frame hdr.payloadSize
    have hne : (if 0 < received then Outcome.success (recvTs - hdr.sendTimestampNs) else .recvFails) ≠ .sendFails := by
      split <;> exact nofun
    rw [hadd]
    simp only [bytes, List.map_append, List.map_singleton, List.filter_append, entry, hne, List.sum_append, ne_eq,
      not_false_eq_true, decide_true, List.filter_singleton, cond_true, Entry.frame, List.sum_singleton]

variable {cfg : WorkloadConfig} {concurrency : UInt32} {gens : Fin concurrency.toNat → Nat → UInt32}
  {s s' : State concurrency.toNat}

structure Inv (cfg : WorkloadConfig) (concurrency : UInt32) (gens : Fin concurrency.toNat → Nat → UInt32)
    (s : State concurrency.toNat) : Prop where
  workers : ∀ j : Fin concurrency.toNat, WorkerInv (cfg.warmup concurrency) (cfg.count concurrency (UInt32.ofNat j))
    (gens j) (s.workers j)
  totalBytes : s.totalBytes = UInt64.ofNat (∑ j, bytes (cfg.warmup concurrency).toUInt64 (s.workers j))

theorem inv_step {e : Event concurrency.toNat} (h : Inv cfg concurrency gens s)
    (hs : step cfg concurrency gens s e = some s') : Inv cfg concurrency gens s' := by
  cases e with
  | tick t =>
    obtain ⟨-, heq⟩ := Option.ite_none_right_eq_some.mp hs
    cases heq
    exact ⟨h.workers, h.totalBytes⟩
  | worker j ev =>
    obtain ⟨w, hw, rfl⟩ := Option.map_eq_some_iff.mp hs
    have hm := moved_of_step hw
    refine ⟨?_, ?_⟩
    · exact (Function.forall_update_iff s.workers _).mpr ⟨(h.workers j).moved hm, fun k _ => h.workers k⟩
    · have hsum := Partition.sum_update (bytes (cfg.warmup concurrency).toUInt64) s.workers j w _ (bytes_moved hm)
      simp only [hsum, h.totalBytes, UInt64.ofNat_add, UInt64.ofNat_toNat]

theorem inv_start (cfg : WorkloadConfig) (concurrency : UInt32) (gens : Fin concurrency.toNat → Nat → UInt32)
    (clock : UInt64) : Inv cfg concurrency gens (start clock concurrency) where
  workers := fun j => ⟨UInt32.le_iff_toNat_le.mpr (Nat.zero_le _), rfl, nofun, rfl⟩
  totalBytes := by simp [start, bytes]

theorem inv_run {clock : UInt64} {es : List (Event concurrency.toNat)}
    (hr : Transition.run (step cfg concurrency gens) (start clock concurrency) es = some s) :
    Inv cfg concurrency gens s :=
  Transition.invariant (fun _ _ _ h hs => inv_step h hs) (inv_start cfg concurrency gens clock) hr

def Finished (s : State concurrency.toNat) : Prop := ∀ j, (s.workers j).phase = .exited

instance (s : State concurrency.toNat) : Decidable (Finished s) :=
  inferInstanceAs (Decidable (∀ j, (s.workers j).phase = .exited))

def result (s : State concurrency.toNat) : BenchmarkResult :=
  ⟨∑ j, ((s.workers j).samples : Multiset UInt64), s.totalBytes⟩

def entries (cfg : WorkloadConfig) (s : State concurrency.toNat) : Multiset Entry :=
  ∑ j, ((s.workers j).exchanges.map (entry (cfg.warmup concurrency).toUInt64) : Multiset Entry)

theorem added_of_counted (warmup : UInt64) (x : Exchange) (h : (entry warmup x).counted) : (entry warmup x).added := by
  cases ho : x.outcome <;> simp_all [entry, Entry.counted]

theorem books (h : Inv cfg concurrency gens s) : Books (result s) (entries cfg s) := by
  apply books_of_workers
  · intro j e he hc
    obtain ⟨x, -, rfl⟩ := List.mem_map.mp he
    exact added_of_counted _ x hc
  · intro j
    rw [(h.workers j).samples, Multiset.filterMap_coe, List.filterMap_map]
    rfl
  · rw [h.totalBytes]
    congr 1
    refine Finset.sum_congr rfl ?_
    intro j _
    rw [bytes, Multiset.filter_coe, frames, Multiset.map_coe, Multiset.sum_coe]
    simp

end DcBench.HomaClosedLoop

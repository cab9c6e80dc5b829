import DcBench.OpenLoopResult
import DcBench.ClosedLoop

namespace DcBench.SizeIsolation

open DcBench.Lib DcBench.Message DcBench.ExactTransfer DcBench.Workload DcBench.PriorityScheduler

/-- No large and small request on the same connection. -/
def Isolated (c : DoRequest.Client) : Prop :=
  ∀ a ∈ c.calls, ∀ b ∈ c.calls, 4096 < a.payloadSize → 4096 < b.payloadSize

section OpenLoop

open DcBench.OpenLoop DcBench.OpenLoopMoves DcBench.OpenLoopDelivery DcBench.OpenLoopResult

variable {P : Nat} {cfg : WorkloadConfig} {gen : Nat → Turn} {s s' : State P}

/-- The scheduler has sent exactly the large requests to the last connections. -/
structure Classed (s : State P) : Prop where
  policy : s.scheduler.policy = .sizeAware
  pool : 2 ≤ s.scheduler.poolSize.toNat
  issued : ∀ x ∈ s.issued, 4096 < x.req.size ↔ s.scheduler.smallPool.toNat ≤ x.conn

theorem classed_push {j : Fin P} (h : Classed s) (hp : Pushed cfg gen s s' j) : Classed s' := by
  obtain ⟨connIdx, hsel, hj⟩ := hp.chosen
  obtain ⟨hpolicy, hpool⟩ := select_frame hsel
  have hsmall : s'.scheduler.smallPool = s.scheduler.smallPool := by
    simp only [Scheduler.smallPool, Scheduler.largePool, hpool]
  have hclass : 4096 < (gen s.i.toNat).size ↔ s.scheduler.smallPool.toNat ≤ j := by
    simp only [Scheduler.select, h.policy] at hsel
    rw [← hj]
    exact (sizeAware_class h.pool hsel).1
  refine ⟨hpolicy.trans h.policy, hpool ▸ h.pool, ?_⟩
  have hissued : s'.issued = s.issued ++
      [⟨j, pending cfg s.i (gen s.i.toNat).size, s'.nextTime, s.clock⟩] := congrArg State.issued hp.eq
  intro x hx
  rw [hissued] at hx
  rw [hsmall]
  obtain hx | hx := List.mem_append.mp hx
  · exact h.issued x hx
  · obtain rfl := List.mem_singleton.mp hx
    exact hclass

theorem classed_step {e : Event P} (h : Classed s) (hs : step cfg gen s e = some s') : Classed s' := by
  cases e with
  | tick t =>
    simp only [step, Option.ite_none_right_eq_some, Option.some.injEq] at hs
    obtain ⟨-, rfl⟩ := hs
    exact ⟨h.policy, h.pool, h.issued⟩
  | push =>
    obtain ⟨j, hp⟩ := pushed_of_step hs
    exact classed_push h hp
  | stop =>
    simp only [step, Option.ite_none_right_eq_some, Option.some.injEq] at hs
    obtain ⟨-, rfl⟩ := hs
    exact ⟨h.policy, h.pool, h.issued⟩
  | worker j ev =>
    obtain ⟨w, hm, rfl⟩ := worker_of_step hs
    exact ⟨h.policy, h.pool, h.issued⟩

theorem calls_given (h : Inv cfg gen s) {j : Fin P} {hdr : MessageHeader}
    (hh : hdr ∈ (s.workers j).client.calls) : ∃ req ∈ givenTo s j, hdr.payloadSize = req.size := by
  obtain ⟨served, hgiven, hall⟩ := (h.workers j).served
  obtain hx | hx := List.mem_append.mp hh
  · obtain ⟨x, hmem, rfl⟩ := List.mem_map.mp hx
    have hsize : x.request.payloadSize ∈ served.map PendingRequest.size := by
      rw [← map_eq_of_serves (g := fun x => x.request.payloadSize) ?_ hall]
      · exact List.mem_map_of_mem hmem
      · rintro req y ⟨now, hy⟩
        rw [hy]
        rfl
    obtain ⟨req, hreq, heq⟩ := List.mem_map.mp hsize
    exact ⟨req, hgiven ▸ List.mem_append_left _ hreq, heq.symm⟩
  · have hph := (h.workers j).phase
    have hidle (hc : (s.workers j).client.phase = .idle) : False := by
      simp [hc, DoRequest.Phase.header] at hx
    cases hp : (s.workers j).phase with
    | inRequest req =>
      obtain ⟨now, hnow⟩ := hph.inRequest hp
      obtain rfl : hdr = req.call.header now := by simpa [hnow] using hx
      exact ⟨req, by rw [hgiven]; simp [held, hp], rfl⟩
    | testRunning | pop | popped req =>
      simp only [PhaseOk, hp] at hph
      exact (hidle hph).elim
    | testSize | returned req rtt | exited =>
      simp only [PhaseOk, hp] at hph
      exact (hidle hph.1).elim

theorem isolated_of_classed (h : Inv cfg gen s) (hc : Classed s) (j : Fin P) :
    Isolated (s.workers j).client := by
  have hclass {hdr : MessageHeader} (hh : hdr ∈ (s.workers j).client.calls) :
      4096 < hdr.payloadSize ↔ s.scheduler.smallPool.toNat ≤ j := by
    obtain ⟨req, hreq, hsize⟩ := calls_given h hh
    obtain ⟨x, hx, rfl⟩ := List.mem_map.mp hreq
    obtain ⟨hmem, hconn⟩ := List.mem_filter.mp hx
    rw [hsize, hc.issued x hmem, of_decide_eq_true hconn]
  intro a ha b hb hlarge
  exact (hclass hb).mpr ((hclass ha).mp hlarge)

end OpenLoop

section ClosedLoop

open DcBench.ClosedLoop

variable {warmup count : UInt32} {sizes : Nat → UInt32} {clock : UInt64} {w w' : Worker}

/-- The requests of a closed-loop worker have the sizes of its own generator. -/
structure WorkerInv (limit : Nat) (sizes : Nat → UInt32) (w : Worker) : Prop where
  calls : ∀ hdr ∈ w.client.calls, ∃ k < limit, hdr.payloadSize = sizes k
  phase : (∃ size, w.phase = .inRequest size ∧ ∃ hdr, w.client.phase.header = some hdr) ∨
    (∀ size, w.phase ≠ .inRequest size) ∧ w.client.phase = .idle

theorem WorkerInv.moved (h : WorkerInv (warmup + count).toNat sizes w) (hm : Moved warmup count sizes clock w w') :
    WorkerInv (warmup + count).toNat sizes w' := by
  have hidle (hp : ∀ size, w.phase ≠ .inRequest size) : w.client.phase = .idle := by
    obtain ⟨size, hsize, -⟩ | ⟨-, hc⟩ := h.phase
    · exact absurd hsize (hp size)
    · exact hc
  have hheader {size : UInt32} (hp : w.phase = .inRequest size) : ∃ hdr, w.client.phase.header = some hdr := by
    obtain ⟨-, -, hhdr⟩ | ⟨hne, -⟩ := h.phase
    · exact hhdr
    · exact absurd hp (hne size)
  cases hm with
  | call hp hlt hc =>
    refine ⟨?_, .inl ⟨_, rfl, _, rfl⟩⟩
    intro hdr hh
    rw [DoRequest.calls_call hc] at hh
    obtain hh | hh := List.mem_append.mp hh
    · exact h.calls hdr hh
    · obtain rfl := List.mem_singleton.mp hh
      exact ⟨w.i.toNat, UInt32.lt_iff_toNat_lt.mp hlt, rfl⟩
  | exit hp hlt => exact ⟨h.calls, .inr ⟨by simp, hidle (by simp [hp])⟩⟩
  | goesOn size dev c hp hs hc =>
    obtain ⟨hdr, hhdr⟩ := hheader hp
    have hin := DoRequest.inside_of_step hhdr hs
    refine ⟨by rw [DoRequest.calls_inside hhdr hin]; exact h.calls, ?_⟩
    cases hin with
    | goesOn hhdr' => exact .inl ⟨size, hp, hdr, hhdr'⟩
    | fails hi | returns hi => exact absurd hi hc
  | returns size dev c hp hs ht hc =>
    obtain ⟨hdr, hhdr⟩ := hheader hp
    refine ⟨?_, .inr ⟨by simp, hc⟩⟩
    rw [DoRequest.calls_inside hhdr (DoRequest.inside_of_step hhdr hs)]
    exact h.calls
  | account size rtt hp => exact ⟨h.calls, .inr ⟨by simp, hidle (by simp [hp])⟩⟩

variable {cfg : WorkloadConfig} {poolSize : UInt32} {gens : Fin poolSize.toNat → Nat → UInt32}

def limit (cfg : WorkloadConfig) (poolSize : UInt32) (j : Fin poolSize.toNat) : Nat :=
  (cfg.warmup poolSize + cfg.count poolSize (UInt32.ofNat j)).toNat

theorem workers_step {s s' : State poolSize.toNat} {e : Event poolSize.toNat}
    (h : ∀ j, WorkerInv (limit cfg poolSize j) (gens j) (s.workers j))
    (hs : ClosedLoop.step cfg poolSize gens s e = some s') (j : Fin poolSize.toNat) :
    WorkerInv (limit cfg poolSize j) (gens j) (s'.workers j) := by
  apply forall_workers_of_step hs h
  intro k w hm
  exact (h k).moved hm

/-- The worker gets its present call over and is back at its loop test. -/
def GetsOver (step : Worker → WorkerEvent → Option Worker) (w : Worker) : Prop :=
  ∃ evs w', Transition.run step w evs = some w' ∧ w'.phase = .test ∧ w'.client.phase = .idle ∧
    w'.i = w.i + 1 ∧ w'.client.calls = w.client.calls

theorem GetsOver.of_advance (size : UInt32) (ev : WorkerEvent) (hdr : MessageHeader) {dev : DoRequest.Event}
    {c : DoRequest.Client} {step : Worker → WorkerEvent → Option Worker} (hhdr : w.client.phase.header = some hdr)
    (hstep : step w ev = w.advance size dev) (hc : DoRequest.step w.client dev = some c) (hne : c.phase ≠ .idle)
    (h : GetsOver step { w with client := c }) : GetsOver step w := by
  obtain ⟨evs, w', hrun, hp, hidle, hi, hcalls⟩ := h
  refine ⟨ev :: evs, w', Transition.run_cons_some.mpr ⟨_, ?_, hrun⟩, hp, hidle, hi, ?_⟩
  · rw [hstep, Worker.advance, hc, Option.map_some, if_neg hne]
  · exact hcalls.trans (DoRequest.calls_inside hhdr (DoRequest.inside_of_step hhdr hc))

theorem getsOver_recvHeader {size : UInt32} {hdr : MessageHeader} (hp : w.phase = .inRequest size)
    (hc : w.client.phase = .recvHeader hdr 0) :
    GetsOver (fun w ev => w.step warmup count sizes clock ev) w := by
  obtain ⟨c, hstep, hidle⟩ : ∃ c, DoRequest.step w.client (.recv .error) = some c ∧ c.phase = .idle :=
    ⟨_, by simp only [DoRequest.step, hc, RecvResult.fits, if_true]; rfl, rfl⟩
  have hhdr : w.client.phase.header = some hdr := by rw [hc]; rfl
  have hrecv : w.step warmup count sizes clock (.recv .error) = some { w with
      client := c
      phase := .returned size ((c.exchanges.getLast?.map DoRequest.Exchange.rtt).getD 0) } := by
    simp only [Worker.step, hp, Worker.advance, hstep, Option.map_some, if_pos hidle]
  refine ⟨[.recv .error, .account], _, Transition.run_cons_some.mpr ⟨_, hrecv,
    Transition.run_cons_some.mpr ⟨_, rfl, rfl⟩⟩, rfl, hidle, rfl, ?_⟩
  exact DoRequest.calls_inside hhdr (DoRequest.inside_of_step hhdr hstep)

theorem getsOver_sendPayload {size : UInt32} {hdr : MessageHeader} (hp : w.phase = .inRequest size)
    (hc : w.client.phase = .sendPayload hdr 0) (hpos : 0 < hdr.payloadSize.toNat) :
    GetsOver (fun w ev => w.step warmup count sizes clock ev) w := by
  obtain ⟨c, hstep, hph⟩ : ∃ c, DoRequest.step w.client (.send (.sent hdr.payloadSize.toNat)) = some c ∧
      c.phase = .recvHeader hdr 0 := by
    refine ⟨_, by simp only [DoRequest.step, hc, SendResult.fits, hpos, Nat.sub_zero, le_refl, decide_true,
      Bool.and_self, if_true]; rfl, ?_⟩
    simp [DoRequest.Client.sendPayload, sendExact]
  refine GetsOver.of_advance size (.send (.sent hdr.payloadSize.toNat)) hdr ?_ ?_ hstep ?_
    (getsOver_recvHeader hp hph)
  · rw [hc]
    rfl
  · simp only [Worker.step, hp]
  · simp [hph]

theorem getsOver_sendHeader {size : UInt32} {hdr : MessageHeader} (hp : w.phase = .inRequest size)
    (hc : w.client.phase = .sendHeader hdr 0) :
    GetsOver (fun w ev => w.step warmup count sizes clock ev) w := by
  obtain ⟨c, hstep, hph⟩ : ∃ c, DoRequest.step w.client (.send (.sent headerSize)) = some c ∧
      c.phase = if 0 < hdr.payloadSize.toNat then .sendPayload hdr 0 else .recvHeader hdr 0 := by
    refine ⟨_, by simp only [DoRequest.step, hc, SendResult.fits, headerSize, Nat.sub_zero, le_refl, decide_true,
      Nat.zero_lt_succ, Bool.and_self, if_true]; rfl, ?_⟩
    simp only [DoRequest.Client.sendHeader, sendExact, headerSize, Nat.zero_add, lt_irrefl, if_false]
    split <;> rfl
  have hover : GetsOver (fun w ev => w.step warmup count sizes clock ev) { w with client := c } := by
    by_cases hpos : 0 < hdr.payloadSize.toNat
    · rw [if_pos hpos] at hph
      exact getsOver_sendPayload hp hph hpos
    · rw [if_neg hpos] at hph
      exact getsOver_recvHeader hp hph
  refine GetsOver.of_advance size (.send (.sent headerSize)) hdr ?_ ?_ hstep ?_ hover
  · rw [hc]
    rfl
  · simp only [Worker.step, hp]
  · rw [hph]
    split <;> simp

/-- A worker can send all its requests: the first `n` calls have the sizes that
its generator yields in the first `n` turns. -/
theorem exists_calls (sizes : Nat → UInt32) (clock : UInt64) (hp : w.phase = .test) (hc : w.client.phase = .idle) (hi : w.i = 0)
    (hcalls : w.client.calls = []) (n : Nat) (hn : n ≤ (warmup + count).toNat) :
    ∃ evs w', Transition.run (fun w ev => w.step warmup count sizes clock ev) w evs = some w' ∧
      w'.phase = .test ∧ w'.client.phase = .idle ∧ w'.i.toNat = n ∧
      w'.client.calls.map MessageHeader.payloadSize = (List.range n).map sizes := by
  induction n with
  | zero => exact ⟨[], w, rfl, hp, hc, by simp [hi], by simp [hcalls]⟩
  | succ n ih =>
    obtain ⟨evs, w₁, hrun, hp₁, hc₁, hi₁, hcalls₁⟩ := ih (by omega)
    have hlt : w₁.i < warmup + count := UInt32.lt_iff_toNat_lt.mpr (by omega)
    have hover : GetsOver (fun w ev => w.step warmup count sizes clock ev) { w₁ with
        client := w₁.client.call ⟨w₁.i.toUInt64, sizes w₁.i.toNat, priorityForSize (sizes w₁.i.toNat)⟩ clock
        phase := .inRequest (sizes w₁.i.toNat) } := getsOver_sendHeader rfl rfl
    obtain ⟨evs', w₂, hrun', hp₂, hc₂, hi₂, hcalls₂⟩ := hover
    refine ⟨evs ++ .next :: evs', w₂, Transition.run_append_some.mpr ⟨w₁, hrun,
      Transition.run_cons_some.mpr ⟨_, ?_, hrun'⟩⟩, hp₂, hc₂, ?_, ?_⟩
    · simp only [Worker.step, hp₁, hlt, if_true, DoRequest.step, hc₁, Option.map_some]
    · rw [hi₂, ← hi₁]
      exact toNat_succ_of_lt hlt
    · rw [hcalls₂, DoRequest.calls_call hc₁, List.map_append, hcalls₁, hi₁, List.range_succ, List.map_append]
      rfl

theorem run_worker {j : Fin poolSize.toNat} {evs : List WorkerEvent} {s : State poolSize.toNat} {w : Worker}
    (h : Transition.run (fun w ev => w.step (cfg.warmup poolSize) (cfg.count poolSize (UInt32.ofNat j)) (gens j)
      s.clock ev) (s.workers j) evs = some w) :
    ∃ s', Transition.run (ClosedLoop.step cfg poolSize gens) s (evs.map (.worker j)) = some s' ∧
      s'.workers j = w := by
  induction evs generalizing s with
  | nil =>
    cases h
    exact ⟨s, rfl, rfl⟩
  | cons ev evs ih =>
    obtain ⟨w₁, hw₁, h⟩ := Transition.run_cons_some.mp h
    have hstep : ClosedLoop.step cfg poolSize gens s (.worker j ev) = some { s with
        workers := Function.update s.workers j w₁
        totalBytes := s.totalBytes + (s.workers j).added } := Option.map_eq_some_iff.mpr ⟨w₁, hw₁, rfl⟩
    obtain ⟨s', hs', hj⟩ := ih (s := { s with
        workers := Function.update s.workers j w₁
        totalBytes := s.totalBytes + (s.workers j).added }) (by simpa using h)
    exact ⟨s', Transition.run_cons_some.mpr ⟨_, hstep, hs'⟩, hj⟩

/-- All sizes of the first `n` turns are large, or all are small. -/
def OneClass (sizes : Nat → UInt32) (n : Nat) : Prop := ∀ a < n, ∀ b < n, 4096 < sizes a → 4096 < sizes b

theorem closed_isolated_iff (clock : UInt64) (stack stack' : Fin poolSize.toNat → Fin headerSize → UInt8)
    (sendBuf recvBuf : Fin poolSize.toNat → List UInt8) :
    (∀ es s, Transition.run (ClosedLoop.step cfg poolSize gens)
      (ClosedLoop.start clock poolSize stack stack' sendBuf recvBuf) es = some s →
        ∀ j, Isolated (s.workers j).client) ↔ ∀ j, OneClass (gens j) (limit cfg poolSize j) := by
  constructor
  · intro hall j a ha b hb hlarge
    obtain ⟨evs, w, hrun, -, -, -, hcalls⟩ := exists_calls (gens j) clock
      (w := (ClosedLoop.start clock poolSize stack stack' sendBuf recvBuf).workers j) rfl rfl rfl rfl
      (limit cfg poolSize j) le_rfl
    obtain ⟨s, hs, rfl⟩ := run_worker
      (s := ClosedLoop.start clock poolSize stack stack' sendBuf recvBuf) hrun
    have hmem {k : Nat} (hk : k < limit cfg poolSize j) :
        ∃ hdr ∈ (s.workers j).client.calls, hdr.payloadSize = gens j k := by
      apply List.mem_map.mp
      rw [hcalls]
      exact List.mem_map_of_mem (List.mem_range.mpr hk)
    obtain ⟨hdr, hhdr, hsize⟩ := hmem ha
    obtain ⟨hdr', hhdr', hsize'⟩ := hmem hb
    rw [← hsize']
    exact hall _ s hs j hdr hhdr hdr' hhdr' (hsize ▸ hlarge)
  · intro hone es s hr j a ha b hb hlarge
    have hinv := Transition.invariant
      (P := fun s => ∀ j, WorkerInv (limit cfg poolSize j) (gens j) (s.workers j))
      (fun _ _ _ h hs => workers_step h hs) (fun j => ⟨by simp [ClosedLoop.start, DoRequest.start,
        DoRequest.Client.calls, DoRequest.Phase.header], .inr ⟨by simp [ClosedLoop.start], rfl⟩⟩) hr
    obtain ⟨k, hk, hsize⟩ := (hinv j).calls a ha
    obtain ⟨k', hk', hsize'⟩ := (hinv j).calls b hb
    rw [hsize']
    exact hone j k hk k' hk' (hsize ▸ hlarge)

end ClosedLoop

theorem open_isolated {cfg : WorkloadConfig} {gen : Nat → Turn} {clock : UInt64} {poolSize : UInt32}
    (hpool : 2 ≤ poolSize.toNat) {stack stack' : Fin poolSize.toNat → Fin headerSize → UInt8}
    {sendBuf recvBuf : Fin poolSize.toNat → List UInt8} {es : List (OpenLoop.Event poolSize.toNat)}
    {s : OpenLoop.State poolSize.toNat}
    (hr : Transition.run (OpenLoop.step cfg gen)
      (OpenLoop.start clock .sizeAware poolSize stack stack' sendBuf recvBuf) es = some s)
    (j : Fin poolSize.toNat) : Isolated (s.workers j).client := by
  have hinv := OpenLoopDelivery.inv_run
    (OpenLoopDelivery.inv_start cfg gen clock .sizeAware poolSize stack stack' sendBuf recvBuf) hr
  have hclassed := Transition.invariant (P := Classed) (fun _ _ _ h hs => classed_step h hs)
    ⟨rfl, hpool, by simp [OpenLoop.start]⟩ hr
  exact isolated_of_classed hinv hclassed j

/-- Size-aware scheduling isolates large from small requests in every run of the
open loop. The workers of the closed loop do not ask the scheduler: there it
holds exactly when no worker's own generator mixes the two classes. -/
theorem isolated_iff_no_worker_mixes (poolSize : UInt32) (hpool : 2 ≤ poolSize.toNat) (cfg : WorkloadConfig)
    (clock : UInt64) (stack stack' : Fin poolSize.toNat → Fin headerSize → UInt8)
    (sendBuf recvBuf : Fin poolSize.toNat → List UInt8) :
    (∀ gen es s, Transition.run (OpenLoop.step cfg gen)
      (OpenLoop.start clock .sizeAware poolSize stack stack' sendBuf recvBuf) es = some s →
        ∀ j, Isolated (s.workers j).client) ∧
    (∀ gens, (∀ es s, Transition.run (ClosedLoop.step cfg poolSize gens)
      (ClosedLoop.start clock poolSize stack stack' sendBuf recvBuf) es = some s →
        ∀ j, Isolated (s.workers j).client) ↔ ∀ j, OneClass (gens j) (limit cfg poolSize j)) :=
  ⟨fun _ _ _ hr j => open_isolated hpool hr j, fun _ => closed_isolated_iff clock stack stack' sendBuf recvBuf⟩

instance (c : DoRequest.Client) : Decidable (Isolated c) :=
  inferInstanceAs (Decidable (∀ a ∈ c.calls, ∀ b ∈ c.calls, 4096 < a.payloadSize → 4096 < b.payloadSize))

def twoClasses : List (OpenLoop.Event 2) :=
  [.push, .push, .worker 0 .test, .worker 0 .pop, .worker 0 .call, .worker 1 .test, .worker 1 .pop, .worker 1 .call]

theorem twoClasses_isolated : ∃ s, Transition.run
    (OpenLoop.step ⟨0, 2⟩ (fun k => ⟨0, if k = 0 then 100 else 5000, fun lo _ => lo⟩))
    (OpenLoop.start 0 .sizeAware 2 (fun _ _ => 0) (fun _ _ => 0) (fun _ => []) (fun _ => [])) twoClasses = some s ∧
    (∀ j, (s.workers j).client.calls.length = 1) ∧ ∀ j, Isolated (s.workers j).client := by
  have hrun : (Transition.run (OpenLoop.step ⟨0, 2⟩ (fun k => ⟨0, if k = 0 then 100 else 5000, fun lo _ => lo⟩))
      (OpenLoop.start 0 .sizeAware 2 (fun _ _ => 0) (fun _ _ => 0) (fun _ => []) (fun _ => [])) twoClasses).map
      (fun s => decide (∀ j, (s.workers j).client.calls.length = 1)) = some true := by decide +kernel
  obtain ⟨s, hs, hlen⟩ := Option.map_eq_some_iff.mp hrun
  exact ⟨s, hs, of_decide_eq_true hlen,
    (isolated_iff_no_worker_mixes 2 (by decide) ⟨0, 2⟩ 0 _ _ _ _).1 _ _ s hs⟩

/-- A closed loop with two connections; each worker sends 100 bytes, then 5000. -/
def mixing : List (ClosedLoop.Event 2) :=
  [.worker 0 .next, .worker 0 (.send (.sent 22)), .worker 0 (.send (.sent 100)), .worker 0 (.recv .error),
    .worker 0 .account, .worker 0 .next, .worker 0 (.send (.sent 22))]

theorem mixing_not_isolated : ∃ s, Transition.run
    (ClosedLoop.step ⟨0, 4⟩ 2 (fun _ k => if k = 0 then 100 else 5000))
    (ClosedLoop.start 0 2 (fun _ _ => 0) (fun _ _ => 0) (fun _ => []) (fun _ => [])) mixing = some s ∧
    ¬ ∀ j, Isolated (s.workers j).client := by
  have hrun : (Transition.run (ClosedLoop.step ⟨0, 4⟩ 2 (fun _ k => if k = 0 then 100 else 5000))
      (ClosedLoop.start 0 2 (fun _ _ => 0) (fun _ _ => 0) (fun _ => []) (fun _ => [])) mixing).map
      (fun s => decide (∀ j, Isolated (s.workers j).client)) = some false := by decide +kernel
  obtain ⟨s, hs, hnot⟩ := Option.map_eq_some_iff.mp hrun
  exact ⟨s, hs, of_decide_eq_false hnot⟩

end DcBench.SizeIsolation

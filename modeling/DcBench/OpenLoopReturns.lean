import DcBench.OpenLoopResult
import DcBench.Lib.Ranking

namespace DcBench.OpenLoopReturns

open DcBench.Lib DcBench.Message DcBench.ExactTransfer DcBench.Workload DcBench.OpenLoop DcBench.OpenLoopMoves
  DcBench.OpenLoopDelivery DcBench.OpenLoopResult

/-- The largest payload that a response header can announce. The client has no
limit of its own. -/
def maxAnnounced : Nat := 2 ^ 32

/-- How many more system calls and clock readings `do_request` can make. -/
def budget : DoRequest.Phase → Nat
  | .idle => 0
  | .stamp _ _ => 1
  | .recvPayload _ resp n => resp.payloadSize.toNat - n + 1
  | .recvHeader _ n => headerSize - n + maxAnnounced + 1
  | .sendPayload hdr n => hdr.payloadSize.toNat - n + headerSize + maxAnnounced + 1
  | .sendHeader hdr n => headerSize - n + hdr.payloadSize.toNat + headerSize + maxAnnounced + 1

theorem budget_pos {p : DoRequest.Phase} (hp : p.header.isSome = true) : 0 < budget p := by
  cases p with
  | idle => simp [DoRequest.Phase.header] at hp
  | stamp hdr resp | recvPayload hdr resp n | recvHeader hdr n | sendPayload hdr n | sendHeader hdr n =>
    exact Nat.succ_pos _

theorem budget_onResponse (c : DoRequest.Client) (hdr : MessageHeader) :
    budget (c.onResponse hdr).phase ≤ maxAnnounced := by
  have hlt := (deserializeHeader c.respHdrBuf).payloadSize.toNat_lt
  rw [DoRequest.Client.onResponse]
  split
  · exact hlt
  · exact Nat.one_le_two_pow

theorem budget_send {c : DoRequest.Client} {r : SendResult} {c' : DoRequest.Client}
    (hs : DoRequest.step c (.send r) = some c') : budget c'.phase < budget c.phase := by
  cases hp : c.phase with
  | sendHeader hdr n =>
    simp only [DoRequest.step, hp, Option.ite_none_right_eq_some, Option.some.injEq] at hs
    obtain ⟨hfits, rfl⟩ := hs
    cases r with
    | error => exact budget_pos rfl
    | sent k =>
      simp only [SendResult.fits, Bool.and_eq_true, decide_eq_true_eq] at hfits
      by_cases hlt : n + k < headerSize
      · simp only [DoRequest.Client.sendHeader, sendExact, hlt, if_true, budget]
        omega
      · simp only [DoRequest.Client.sendHeader, sendExact, hlt, if_false]
        split
        · simp only [budget]
          omega
        · simp only [budget]
          omega
  | sendPayload hdr n =>
    simp only [DoRequest.step, hp, Option.ite_none_right_eq_some, Option.some.injEq] at hs
    obtain ⟨hfits, rfl⟩ := hs
    cases r with
    | error => exact budget_pos rfl
    | sent k =>
      simp only [SendResult.fits, Bool.and_eq_true, decide_eq_true_eq] at hfits
      by_cases hlt : n + k < hdr.payloadSize.toNat
      · simp only [DoRequest.Client.sendPayload, sendExact, hlt, if_true, budget]
        omega
      · simp only [DoRequest.Client.sendPayload, sendExact, hlt, if_false, budget]
        omega
  | idle | recvHeader hdr n | recvPayload hdr resp n | stamp hdr resp => simp [DoRequest.step, hp] at hs

theorem budget_recv {c : DoRequest.Client} {r : RecvResult} {c' : DoRequest.Client}
    (hs : DoRequest.step c (.recv r) = some c') : budget c'.phase < budget c.phase := by
  cases hp : c.phase with
  | recvHeader hdr n =>
    simp only [DoRequest.step, hp, Option.ite_none_right_eq_some, Option.some.injEq] at hs
    obtain ⟨hfits, rfl⟩ := hs
    cases r with
    | eof | error => exact budget_pos rfl
    | data bs =>
      simp only [RecvResult.fits, Bool.and_eq_true, decide_eq_true_eq] at hfits
      by_cases hlt : n + bs.length < headerSize
      · simp only [DoRequest.Client.recvHeader, recvExact, hlt, if_true, budget]
        omega
      · simp only [DoRequest.Client.recvHeader, recvExact, hlt, if_false]
        refine (budget_onResponse _ hdr).trans_lt ?_
        simp only [budget]
        omega
  | recvPayload hdr resp n =>
    simp only [DoRequest.step, hp, Option.ite_none_right_eq_some, Option.some.injEq] at hs
    obtain ⟨hfits, rfl⟩ := hs
    cases r with
    | eof | error => exact budget_pos rfl
    | data bs =>
      simp only [RecvResult.fits, Bool.and_eq_true, decide_eq_true_eq] at hfits
      by_cases hlt : n + bs.length < resp.payloadSize.toNat
      · simp only [DoRequest.Client.recvPayload, recvExact, hlt, if_true, budget]
        omega
      · simp only [DoRequest.Client.recvPayload, recvExact, hlt, if_false, budget]
        omega
  | idle | sendHeader hdr n | sendPayload hdr n | stamp hdr resp => simp [DoRequest.step, hp] at hs

theorem budget_step {c c' : DoRequest.Client} {ev : DoRequest.Event} (hc : c.phase ≠ .idle)
    (hs : DoRequest.step c ev = some c') : budget c'.phase < budget c.phase := by
  cases ev with
  | call args now => cases hp : c.phase <;> simp_all [DoRequest.step]
  | send r => exact budget_send hs
  | recv r => exact budget_recv hs
  | now t =>
    cases hp : c.phase with
    | stamp hdr resp =>
      simp only [DoRequest.step, hp, Option.some.injEq] at hs
      subst hs
      exact Nat.zero_lt_one
    | idle | sendHeader hdr n | sendPayload hdr n | recvHeader hdr n | recvPayload hdr resp n =>
      simp [DoRequest.step, hp] at hs

/-- `do_request` waits for its peer in `::send` or `::recv`. The client's sockets
have no timeouts, so that it may wait for ever. -/
def waiting : DoRequest.Phase → Bool
  | .sendHeader _ _ | .sendPayload _ _ | .recvHeader _ _ | .recvPayload _ _ _ => true
  | .idle | .stamp _ _ => false

/-- The call that is waited for may return anything, an error for example. -/
theorem step_of_waiting {c : DoRequest.Client} (hw : waiting c.phase = true) :
    (DoRequest.step c (.send .error)).isSome = true ∨ (DoRequest.step c (.recv .error)).isSome = true := by
  cases hp : c.phase with
  | idle | stamp hdr resp => simp [hp, waiting] at hw
  | sendHeader hdr n | sendPayload hdr n => exact .inl (by simp [DoRequest.step, hp, SendResult.fits])
  | recvHeader hdr n | recvPayload hdr resp n => exact .inr (by simp [DoRequest.step, hp, RecvResult.fits])

theorem step_of_not_waiting {c : DoRequest.Client} (hc : c.phase.header.isSome = true) (hw : waiting c.phase = false)
    (clock : UInt64) : (DoRequest.step c (.now clock)).isSome = true := by
  cases hp : c.phase with
  | idle => simp [hp, DoRequest.Phase.header] at hc
  | stamp hdr resp => simp [DoRequest.step, hp]
  | sendHeader hdr n | sendPayload hdr n | recvHeader hdr n | recvPayload hdr resp n => simp [hp, waiting] at hw

/-- What a queued request may still cost: the turn of the worker's loop that
takes it and all that `do_request` does for it. -/
def cost (req : PendingRequest) : Nat := budget (.sendHeader (req.call.header 0) 0) + 5

/-- What the worker may still do before it looks at its queue again. -/
def phaseRank (w : Worker) : Nat :=
  match w.phase with
  | .exited => 0
  | .testSize => 1
  | .testRunning => 2
  | .pop => if w.queue = [] then 3 else 0
  | .returned _ _ => 3
  | .inRequest _ => budget w.client.phase + 3
  | .popped req => budget (.sendHeader (req.call.header 0) 0) + 4

def rankOf (w : Worker) : Nat := (w.queue.map cost).sum + phaseRank w

/-- A bound for what the workers may still do once the producer has stopped. -/
def rank {P : Nat} (s : State P) : Nat := ∑ j, rankOf (s.workers j)

variable {w w' : Worker} {clock : UInt64} {ev : WorkerEvent} {given : List PendingRequest}

theorem rankOf_pop {req : PendingRequest} {queue : List PendingRequest} (hp : w.phase = .pop)
    (hq : w.queue = req :: queue) : rankOf { w with phase := .popped req, queue := queue } < rankOf w := by
  have hw : rankOf w = cost req + (queue.map cost).sum + 0 := by
    rw [rankOf, phaseRank, hp, hq, List.map_cons, List.sum_cons]
    simp
  rw [hw]
  change (queue.map cost).sum + (budget (.sendHeader (req.call.header 0) 0) + 4) < _
  rw [cost]
  omega

theorem rankOf_lt (hq : w'.queue = w.queue) (hlt : phaseRank w' < phaseRank w) : rankOf w' < rankOf w := by
  rw [rankOf, rankOf, hq]
  exact Nat.add_lt_add_left hlt _

theorem rankOf_moved (h : PhaseOk false given w) (hm : Moved false clock ev w w') : rankOf w' < rankOf w := by
  cases hm with
  | enter hev hp hr => cases hr
  | leave hev hp hr =>
    refine rankOf_lt rfl ?_
    simp [phaseRank, hp]
  | again hev hp hq =>
    refine rankOf_lt rfl ?_
    simp [phaseRank, hp, hq]
  | exit hev hp hq =>
    refine rankOf_lt rfl ?_
    simp [phaseRank, hp]
  | pop hev req queue hp hq => exact rankOf_pop hp hq
  | timeout hev hp hq =>
    refine rankOf_lt rfl ?_
    simp [phaseRank, hp, hq]
  | call hev req hp hc =>
    refine rankOf_lt rfl ?_
    rw [phaseRank, phaseRank, hp]
    exact Nat.lt_succ_self _
  | goesOn hev req dev c hp hs hc =>
    obtain ⟨now, hhdr⟩ := h.inRequest hp
    have hbusy : w.client.phase ≠ .idle := by
      intro hidle
      simp [hidle, DoRequest.Phase.header] at hhdr
    refine rankOf_lt rfl ?_
    simp only [phaseRank, hp]
    exact Nat.add_lt_add_right (budget_step hbusy hs) _
  | returns hev req dev c hp hs ht hc =>
    obtain ⟨now, hhdr⟩ := h.inRequest hp
    have hbusy : 0 < budget w.client.phase := budget_pos (by rw [hhdr]; rfl)
    refine rankOf_lt rfl ?_
    simp only [phaseRank, hp]
    omega
  | account hev req rtt hp =>
    refine rankOf_lt rfl ?_
    simp [phaseRank, hp]

/-- The worker waits in a call on its socket. -/
def waits (w : Worker) : Bool :=
  match w.phase with
  | .inRequest _ => waiting w.client.phase
  | _ => false

/-- The return of `::send` or `::recv`. -/
def fromNetwork : WorkerEvent → Bool
  | .send _ | .recv _ => true
  | _ => false

/-- A worker that has not left its loop and does not wait in a call can go on by
itself: it never waits for another thread, as its queue gives up after a while. -/
theorem worker_goes_on {running : Bool} (h : PhaseOk running given w) (hp : w.phase ≠ .exited)
    (hw : waits w = false) : ∃ ev, fromNetwork ev = false ∧ (w.step running clock ev).isSome = true := by
  cases hphase : w.phase with
  | testRunning | testSize => exact ⟨.test, rfl, by simp [Worker.step, hphase]⟩
  | pop =>
    cases hq : w.queue with
    | nil => exact ⟨.timeout, rfl, by simp [Worker.step, hphase, hq]⟩
    | cons req queue => exact ⟨.pop, rfl, by simp [Worker.step, hphase, hq]⟩
  | popped req =>
    have hidle : w.client.phase = .idle := by simpa [PhaseOk, hphase] using h
    exact ⟨.call, rfl, by simp [Worker.step, hphase, DoRequest.step, hidle]⟩
  | inRequest req =>
    obtain ⟨now, hhdr⟩ := h.inRequest hphase
    have hclient : waiting w.client.phase = false := by simpa [waits, hphase] using hw
    have hsome := step_of_not_waiting (by rw [hhdr]; rfl) hclient clock
    exact ⟨.now, rfl, by simpa [Worker.step, hphase, Worker.advance] using hsome⟩
  | returned req rtt => exact ⟨.account, rfl, by simp [Worker.step, hphase]⟩
  | exited => exact absurd hphase hp

/-- A worker that waits in a call goes on when the call returns. -/
theorem waiting_goes_on {running : Bool} (hw : waits w = true) :
    ∃ ev, fromNetwork ev = true ∧ (w.step running clock ev).isSome = true := by
  cases hphase : w.phase with
  | inRequest req =>
    have hclient : waiting w.client.phase = true := by simpa [waits, hphase] using hw
    obtain hsome | hsome := step_of_waiting hclient
    · exact ⟨.send .error, rfl, by simpa [Worker.step, hphase, Worker.advance] using hsome⟩
    · exact ⟨.recv .error, rfl, by simpa [Worker.step, hphase, Worker.advance] using hsome⟩
  | testRunning | testSize | pop | popped req | returned req rtt | exited => simp [waits, hphase] at hw

variable {P : Nat} {cfg : WorkloadConfig} {gen : Nat → Turn} {s t : State P} {e : Event P}

def isWorker : Event P → Bool
  | .worker _ _ => true
  | .tick _ | .push | .stop => false

/-- After the stop, only the workers act. -/
structure Stopped (cfg : WorkloadConfig) (gen : Nat → Turn) (s : State P) : Prop where
  inv : Inv cfg gen s
  stopped : s.running = false

theorem stopped_step (h : Stopped cfg gen s) (hs : step cfg gen s e = some t) : Stopped cfg gen t := by
  refine ⟨inv_step h.inv hs, ?_⟩
  cases e with
  | tick reading =>
    simp only [step, Option.ite_none_right_eq_some, Option.some.injEq] at hs
    rw [← hs.2]
    exact h.stopped
  | push =>
    obtain ⟨j, hp⟩ := pushed_of_step hs
    exact absurd hp.running (by simp [h.stopped])
  | stop => simp [step, h.stopped] at hs
  | worker j ev =>
    obtain ⟨w, -, rfl⟩ := worker_of_step hs
    exact h.stopped

theorem rank_step (h : Stopped cfg gen s) (hs : step cfg gen s e = some t) :
    rank t + (if isWorker e then 1 else 0) ≤ rank s := by
  cases e with
  | tick reading =>
    simp only [step, Option.ite_none_right_eq_some, Option.some.injEq] at hs
    rw [← hs.2]
    exact le_rfl
  | push =>
    obtain ⟨j, hp⟩ := pushed_of_step hs
    exact absurd hp.running (by simp [h.stopped])
  | stop => simp [step, h.stopped] at hs
  | worker j ev =>
    obtain ⟨w, hm, rfl⟩ := worker_of_step hs
    rw [h.stopped] at hm
    have hphase := (h.inv.workers j).phase
    rw [h.stopped] at hphase
    have hlt := rankOf_moved hphase hm
    have hsum := Partition.sum_update_add (fun _ => rankOf) s.workers w (Finset.mem_univ j)
    simp only [rank, isWorker, if_true]
    omega

theorem goes_on (h : Inv cfg gen s) {j : Fin P} (hj : (s.workers j).phase ≠ .exited) :
    ∃ ev, fromNetwork ev = waits (s.workers j) ∧ (step cfg gen s (.worker j ev)).isSome = true := by
  obtain ⟨ev, hev, hsome⟩ : ∃ ev, fromNetwork ev = waits (s.workers j) ∧
      ((s.workers j).step s.running s.clock ev).isSome = true := by
    cases hw : waits (s.workers j) with
    | true => exact waiting_goes_on hw
    | false => exact worker_goes_on (h.workers j).phase hj hw
  exact ⟨ev, hev, by simpa [step] using hsome⟩

/-- `run_open_loop` returns when its calls on the sockets do. Once the producer
has stopped, all workers together make at most `rank` further steps, whatever the
network does. A worker that has not ended goes on by itself, or waits in `::send`
or `::recv` and goes on when the call returns. When no worker can go on by
itself, each has ended or waits in a call, and when none waits every request
has been served. -/
theorem open_loop_returns (cfg : WorkloadConfig) (gen : Nat → Turn) (clock : UInt64)
    (policy : PriorityScheduler.SchedulingPolicy) (poolSize : UInt32)
    (stack stack' : Fin poolSize.toNat → Fin headerSize → UInt8)
    (sendBuf recvBuf : Fin poolSize.toNat → List UInt8) {es fs : List (Event poolSize.toNat)}
    {s t : State poolSize.toNat}
    (hr : Transition.run (step cfg gen) (start clock policy poolSize stack stack' sendBuf recvBuf) es = some s)
    (hstop : s.running = false) (hf : Transition.run (step cfg gen) s fs = some t) :
    fs.countP isWorker + rank t ≤ rank s ∧
    (∀ j, (t.workers j).phase ≠ .exited →
      ∃ ev, fromNetwork ev = waits (t.workers j) ∧ (step cfg gen t (.worker j ev)).isSome = true) ∧
    ((∀ j ev, fromNetwork ev = false → step cfg gen t (.worker j ev) = none) →
      (∀ j, (t.workers j).phase = .exited ∨ waits (t.workers j) = true) ∧
      ((∀ j, waits (t.workers j) = false) → Finished t ∧ Complete cfg gen cfg.total.toNat t)) := by
  have hinv := inv_run (inv_start cfg gen clock policy poolSize stack stack' sendBuf recvBuf) hr
  have hs : Stopped cfg gen s := ⟨hinv, hstop⟩
  have ht : Stopped cfg gen t := Transition.invariant (fun s e t h hs => stopped_step h hs) hs hf
  refine ⟨?_, fun j hj => goes_on ht.inv hj, ?_⟩
  · exact Ranking.countP_add_rank_le isWorker (fun s e t h hs => stopped_step h hs)
      (fun s e t h hs => rank_step h hs) hs hf
  · intro hrest
    have hworker : ∀ j, (t.workers j).phase = .exited ∨ waits (t.workers j) = true := by
      intro j
      by_contra hj
      obtain ⟨hj, hw⟩ := not_or.mp hj
      obtain ⟨ev, hev, hsome⟩ := goes_on ht.inv hj
      rw [hrest j ev (hev.trans (Bool.eq_false_iff.mpr hw))] at hsome
      cases hsome
    refine ⟨hworker, ?_⟩
    intro hnone
    have hfin : Finished t := ⟨ht.stopped, fun j => (hworker j).resolve_right (by rw [hnone j]; simp)⟩
    exact ⟨hfin, complete_of_inv ht.inv hfin⟩

theorem step_exited {running : Bool} (hp : w.phase = .exited) (ev : WorkerEvent) : w.step running clock ev = none := by
  cases ev <;> simp [Worker.step, hp]

def queued : List (Event 2) := [.push, .tick 3, .push, .stop]

/-- Both workers take their requests and wait for the answers. -/
def asked : List (Event 2) :=
  [.test, .test, .pop, .call, .send (.sent headerSize)].flatMap (fun ev => [.worker 0 ev, .worker 1 ev])

def answered : List (Event 2) :=
  [.recv (.data (List.replicate headerSize 0)), .now, .account, .test, .test].flatMap
    (fun ev => [.worker 1 ev, .worker 0 ev])

theorem queued_returns :
    let step := step ⟨1, 1⟩ (fun _ => ⟨0, 0, fun lo _ => lo⟩)
    ∃ s t u : State 2, Transition.run step
      (start 2 .roundRobin 2 (fun _ _ => 0) (fun _ _ => 0) (fun _ => []) (fun _ => [])) queued = some s ∧
    s.running = false ∧ Transition.run step s asked = some t ∧ Transition.run step t answered = some u ∧
    (∀ fs v, Transition.run step s fs = some v → fs.countP isWorker + rank v ≤ rank s) ∧
    (∀ j, waits (t.workers j) = true ∧ ∃ ev, fromNetwork ev = true ∧ (step t (.worker j ev)).isSome = true) ∧
    Finished u ∧ Complete ⟨1, 1⟩ (fun _ => ⟨0, 0, fun lo _ => lo⟩) 2 u := by
  intro step
  have hrun : (Transition.run step (start 2 .roundRobin 2 (fun _ _ => 0) (fun _ _ => 0) (fun _ => []) (fun _ => []))
      queued).map State.running = some false := by decide +kernel
  have hask : (Transition.run step (start 2 .roundRobin 2 (fun _ _ => 0) (fun _ _ => 0) (fun _ => []) (fun _ => []))
      (queued ++ asked)).map (fun t => decide (∀ j, waits (t.workers j) = true)) = some true := by decide +kernel
  have hanswer : (Transition.run step (start 2 .roundRobin 2 (fun _ _ => 0) (fun _ _ => 0) (fun _ => []) (fun _ => []))
      (queued ++ (asked ++ answered))).map (fun u => decide (∀ j, (u.workers j).phase = .exited)) = some true := by
    decide +kernel
  obtain ⟨s, hs, hstop⟩ := Option.map_eq_some_iff.mp hrun
  obtain ⟨t, ht, hwait⟩ := Option.map_eq_some_iff.mp hask
  obtain ⟨u, hu, hexit⟩ := Option.map_eq_some_iff.mp hanswer
  have hwait := of_decide_eq_true hwait
  have hexit := of_decide_eq_true hexit
  simp only [Transition.run_append, hs, Option.bind_some] at ht
  simp only [Transition.run_append, hs, ht, Option.bind_some] at hu
  have hsu := Transition.run_append_some.mpr ⟨t, ht, hu⟩
  refine ⟨s, t, u, hs, hstop, ht, hu, fun fs v hf => (open_loop_returns _ _ _ _ _ _ _ _ _ hs hstop hf).1, ?_, ?_⟩
  · intro j
    obtain ⟨ev, hev, hsome⟩ := (open_loop_returns _ _ _ _ _ _ _ _ _ hs hstop ht).2.1 j (by
      intro hp
      have hw := hwait j
      simp [waits, hp] at hw)
    exact ⟨hwait j, ev, hev.trans (hwait j), hsome⟩
  · apply ((open_loop_returns _ _ _ _ _ _ _ _ _ hs hstop hsu).2.2 ?_).2
    · intro j
      simp [waits, hexit j]
    · intro j ev _
      have hnone : (u.workers j).step u.running u.clock ev = none := step_exited (hexit j) ev
      simp [OpenLoop.step, hnone]

end DcBench.OpenLoopReturns

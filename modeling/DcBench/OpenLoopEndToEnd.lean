import DcBench.OpenLoopBenchmark
import DcBench.OpenLoopReturns
import DcBench.Lib.Simulation

namespace DcBench.OpenLoopEndToEnd

open DcBench.Lib DcBench.Message DcBench.ExactTransfer DcBench.Workload DcBench.PriorityScheduler
  DcBench.Connections DcBench.ConnectionEcho DcBench.OpenLoopBenchmark
open DcBench.OpenLoop (PendingRequest Issued pending Finished)
open DcBench.OpenLoopDelivery (givenTo)
open DcBench.OpenLoopReturns (Stopped)
open DcBench.EchoSession (Session)
open DcBench.SessionExchange (cost Echoed)

variable {cfg : WorkloadConfig} {gen : Nat → Turn} {policy : SchedulingPolicy} {poolSize : UInt32}
  {s s' : State poolSize.toNat}

def isTick {P : Nat} : Event P → Bool
  | .client (.tick _) => true
  | _ => false

/-- The steps of the producer, and those of a worker outside of `do_request`. -/
def isTurn {P : Nat} : Event P → Bool
  | .client .push | .client .stop => true
  | .client (.worker _ ev) =>
    match ev with
    | .test | .pop | .timeout | .account => true
    | .call | .send _ | .recv _ | .now => false
  | .client (.tick _) | .handler _ _ => false

def isExchange {P : Nat} (e : Event P) : Bool := !isTick e && !isTurn e

/-- How many more steps a worker makes outside of `do_request` once the producer
has stopped: four for each request in its queue, and those before it looks there
again. -/
def turns (w : OpenLoop.Worker) : Nat :=
  4 * w.queue.length +
    match w.phase with
    | .exited => 0
    | .testSize => 1
    | .testRunning => 2
    | .pop => if w.queue = [] then 3 else 0
    | .popped _ | .inRequest _ | .returned _ _ => 3

theorem turns_advance {w w' : OpenLoop.Worker} {req : PendingRequest} {clock : UInt64} {dev : DoRequest.Event}
    (hp : w.phase = .inRequest req) (h : w.advance req clock dev = some w') : turns w' = turns w := by
  obtain ⟨c, -, rfl⟩ := Option.map_eq_some_iff.mp h
  split
  · simp only [turns, hp]
  · simp only [turns, hp]

theorem turns_moved {w w' : OpenLoop.Worker} {clock : UInt64} {ev : OpenLoop.WorkerEvent} {P : Nat} (j : Fin P)
    (hw : w.step false clock ev = some w') :
    turns w' + (if isTurn (.client (.worker j ev)) then 1 else 0) ≤ turns w := by
  cases ev with
  | test =>
    cases hp : w.phase with
    | testRunning =>
      simp only [OpenLoop.Worker.step, hp, Option.some.injEq] at hw
      subst hw
      simp [turns, hp, isTurn]
    | testSize =>
      simp only [OpenLoop.Worker.step, hp, Option.some.injEq] at hw
      subst hw
      by_cases hq : w.queue = []
      · simp [turns, hp, isTurn, hq]
      · simp [turns, hp, isTurn, hq, List.length_pos_iff.mpr hq]
    | pop | popped req | inRequest req | returned req rtt | exited => simp [OpenLoop.Worker.step, hp] at hw
  | pop =>
    cases hp : w.phase with
    | pop =>
      cases hq : w.queue with
      | nil => simp [OpenLoop.Worker.step, hp, hq] at hw
      | cons req queue =>
        simp only [OpenLoop.Worker.step, hp, hq, Option.some.injEq] at hw
        subst hw
        simp only [turns, hp, hq, isTurn, if_true, List.length_cons, reduceCtorEq, if_false]
        omega
    | testRunning | testSize | popped req | inRequest req | returned req rtt | exited =>
      simp [OpenLoop.Worker.step, hp] at hw
  | timeout =>
    cases hp : w.phase with
    | pop =>
      cases hq : w.queue with
      | cons req queue => simp [OpenLoop.Worker.step, hp, hq] at hw
      | nil =>
        simp only [OpenLoop.Worker.step, hp, hq, Option.some.injEq] at hw
        subst hw
        simp [turns, hp, hq, isTurn]
    | testRunning | testSize | popped req | inRequest req | returned req rtt | exited =>
      simp [OpenLoop.Worker.step, hp] at hw
  | account =>
    cases hp : w.phase with
    | returned req rtt =>
      simp only [OpenLoop.Worker.step, hp, Option.some.injEq] at hw
      subst hw
      simp [turns, hp, isTurn]
    | testRunning | testSize | pop | popped req | inRequest req | exited => simp [OpenLoop.Worker.step, hp] at hw
  | call =>
    cases hp : w.phase with
    | popped req =>
      simp only [OpenLoop.Worker.step, hp] at hw
      obtain ⟨c, -, rfl⟩ := Option.map_eq_some_iff.mp hw
      simp [turns, hp, isTurn]
    | testRunning | testSize | pop | inRequest req | returned req rtt | exited =>
      simp [OpenLoop.Worker.step, hp] at hw
  | send r | recv r | now =>
    cases hp : w.phase with
    | inRequest req =>
      simp only [OpenLoop.Worker.step, hp] at hw
      exact (turns_advance hp hw).le
    | testRunning | testSize | pop | popped req | returned req rtt | exited =>
      simp [OpenLoop.Worker.step, hp] at hw

theorem stopped_step {e : Event poolSize.toNat} (h : Stopped cfg gen s.clients) (hs : step cfg gen s e = some s') :
    Stopped cfg gen s'.clients := by
  cases e with
  | handler j ev =>
    simp only [step, Option.ite_none_right_eq_some] at hs
    obtain ⟨hd, -, rfl⟩ := Option.map_eq_some_iff.mp hs.2
    exact h
  | client ev =>
    simp only [step, Option.ite_none_right_eq_some] at hs
    obtain ⟨c, hc, rfl⟩ := Option.map_eq_some_iff.mp hs.2
    exact OpenLoopReturns.stopped_step h hc

theorem turns_step {e : Event poolSize.toNat} (h : Stopped cfg gen s.clients) (hs : step cfg gen s e = some s') :
    ∑ j, turns (s'.clients.workers j) + (if isTurn e then 1 else 0) ≤ ∑ j, turns (s.clients.workers j) := by
  cases e with
  | handler j ev =>
    simp only [step, Option.ite_none_right_eq_some] at hs
    obtain ⟨hd, -, rfl⟩ := Option.map_eq_some_iff.mp hs.2
    exact Nat.le_refl _
  | client ev =>
    simp only [step, Option.ite_none_right_eq_some] at hs
    obtain ⟨c, hc, rfl⟩ := Option.map_eq_some_iff.mp hs.2
    cases ev with
    | tick now =>
      obtain ⟨-, heq⟩ := Option.ite_none_right_eq_some.mp hc
      cases heq
      exact Nat.le_refl _
    | push =>
      obtain ⟨j, hp⟩ := OpenLoopMoves.pushed_of_step hc
      exact absurd hp.running (by simp [h.stopped])
    | stop => simp [OpenLoop.step, h.stopped] at hc
    | worker j ev =>
      obtain ⟨w, hw, rfl⟩ := Option.map_eq_some_iff.mp hc
      rw [h.stopped] at hw
      have hmoved := turns_moved j hw
      have hsum := Partition.sum_update_add (fun _ => turns) s.clients.workers w (Finset.mem_univ j)
      dsimp only at hsum ⊢
      omega

theorem mem_assigned {n i : Nat} {scheduler : Scheduler} {x : Nat × PendingRequest}
    (hx : x ∈ assigned cfg gen n scheduler i) : ∃ k < i + n, x.2 = pending cfg (UInt32.ofNat k) (gen k).size := by
  induction n generalizing scheduler i with
  | zero => cases hx
  | succ n ih =>
    rw [assigned] at hx
    cases hsel : scheduler.select (gen i).size (gen i).draw with
    | none => simp [hsel] at hx
    | some r =>
      rw [hsel] at hx
      obtain rfl | hx := List.mem_cons.mp hx
      · exact ⟨i, by omega, rfl⟩
      · obtain ⟨k, hk, heq⟩ := ih hx
        exact ⟨k, by omega, heq⟩

theorem size_le_of_mem_calls (hmax : ∀ k < cfg.total.toNat, (gen k).size.toNat ≤ maxPayloadSize)
    (j : Fin poolSize.toNat) : ∀ a ∈ calls cfg gen policy poolSize j, a.size.toNat ≤ maxPayloadSize := by
  intro a ha
  obtain ⟨x, hx, rfl⟩ := List.mem_map.mp ha
  obtain ⟨k, hk, heq⟩ := mem_assigned (List.mem_filter.mp hx).1
  rw [heq]
  exact hmax k (by omega)

theorem connections_of_run {clock : UInt64} {stack stack' : Fin poolSize.toNat → Fin headerSize → UInt8}
    {sendBuf recvBuf : Fin poolSize.toNat → List UInt8} {serverStack : Fin poolSize.toNat → Fin headerSize → UInt8}
    {rc bc : UInt64} {es : List (Event poolSize.toNat)}
    (hmax : ∀ k < cfg.total.toNat, (gen k).size.toNat ≤ maxPayloadSize)
    (hr : Transition.run (step cfg gen)
      (start clock policy poolSize stack stack' sendBuf recvBuf serverStack rc bc) es = some s) :
    Inv cfg gen policy poolSize s ∧
    ∃ left q, Split (calls cfg gen policy poolSize) rc bc (s.ends cfg gen policy poolSize) left q ∧
      (Simulation.trace (step cfg gen) labelOf
        (start clock policy poolSize stack stack' sendBuf recvBuf serverStack rc bc) es).length + left =
          ∑ j, (cost (calls cfg gen policy poolSize j) + 1) := by
  obtain ⟨t, ht, hI, htracks⟩ := Simulation.exists_run_trace
    (R := fun s t => Inv cfg gen policy poolSize s ∧ Tracks (s.ends cfg gen policy poolSize) t)
    (fun s e s' t h hs => by
      obtain ⟨u, hu, ht⟩ := tracks_step h.1 h.2 hs
      exact ⟨u, hu, inv_step h.1 hs, ht⟩)
    ⟨inv_start cfg gen clock policy poolSize stack stack' sendBuf recvBuf serverStack rc bc,
      tracks_start cfg gen clock policy poolSize stack stack' sendBuf recvBuf serverStack rc bc⟩ hr
  exact ⟨hI, split_of_run (size_le_of_mem_calls hmax) ht htracks⟩

variable {rc bc : UInt64} {left : Nat} {q : Fin poolSize.toNat → Session}

theorem enabled_of_goesOn {j : Fin poolSize.toNat} {req : PendingRequest}
    (hp : (s.clients.workers j).phase = .inRequest req)
    (h : GoesOn (s.ends cfg gen policy poolSize) j s.clients.clock) :
    ∃ e, isExchange e = true ∧ (step cfg gen s e).isSome = true := by
  -- a step inside `do_request`
  have hadvance {ev : OpenLoop.WorkerEvent} {dev : DoRequest.Event}
      (hev : (s.clients.workers j).step s.clients.running s.clients.clock ev =
        (s.clients.workers j).advance req s.clients.clock dev)
      (hmay : s.clientMay (.worker j ev) = true)
      (hs : (DoRequest.step (s.clients.workers j).client dev).isSome = true) :
      (step cfg gen s (.client (.worker j ev))).isSome = true := by
    rw [step, if_pos hmay, Option.isSome_map, OpenLoop.step, Option.isSome_map, hev, OpenLoop.Worker.advance,
      Option.isSome_map]
    exact hs
  cases h with
  | send r hr hs =>
    exact ⟨.client (.worker j (.send r)), rfl, hadvance (by simp only [OpenLoop.Worker.step, hp]) hr hs⟩
  | recv r hr hs =>
    exact ⟨.client (.worker j (.recv r)), rfl, hadvance (by simp only [OpenLoop.Worker.step, hp]) hr hs⟩
  | now hs => exact ⟨.client (.worker j .now), rfl, hadvance (by simp only [OpenLoop.Worker.step, hp]) rfl hs⟩
  | handler ev hev hs =>
    refine ⟨.handler j ev, rfl, ?_⟩
    have hmay : handlerMay (s.toServer j) ev = true := hev
    rw [step, if_pos hmay, Option.isSome_map]
    exact hs

theorem enabled_of_not_exited (hI : Inv cfg gen policy poolSize s)
    (h : Split (calls cfg gen policy poolSize) rc bc (s.ends cfg gen policy poolSize) left q) {j : Fin poolSize.toNat}
    (hj : (s.clients.workers j).phase ≠ .exited) :
    ∃ e, isTick e = false ∧ (step cfg gen s e).isSome = true := by
  have hphase := (hI.delivery.workers j).phase
  cases hp : (s.clients.workers j).phase with
  | inRequest req =>
    obtain ⟨now, hhdr⟩ := hphase.inRequest hp
    obtain ⟨e, he, hs⟩ := enabled_of_goesOn hp (h.goesOn (fun hidle => by
      change (s.clients.workers j).client.phase = .idle at hidle
      simp [hidle, DoRequest.Phase.header] at hhdr) s.clients.clock)
    simp only [isExchange, Bool.and_eq_true, Bool.not_eq_true'] at he
    exact ⟨e, he.1, hs⟩
  | testRunning | testSize =>
    exact ⟨.client (.worker j .test), rfl, by simp [step, State.clientMay, OpenLoop.step, OpenLoop.Worker.step, hp]⟩
  | pop =>
    cases hq : (s.clients.workers j).queue with
    | nil =>
      exact ⟨.client (.worker j .timeout), rfl,
        by simp [step, State.clientMay, OpenLoop.step, OpenLoop.Worker.step, hp, hq]⟩
    | cons req queue =>
      exact ⟨.client (.worker j .pop), rfl,
        by simp [step, State.clientMay, OpenLoop.step, OpenLoop.Worker.step, hp, hq]⟩
  | popped req =>
    have hidle : (s.clients.workers j).client.phase = .idle := by simpa [OpenLoopDelivery.PhaseOk, hp] using hphase
    exact ⟨.client (.worker j .call), rfl,
      by simp [step, State.clientMay, OpenLoop.step, OpenLoop.Worker.step, hp, DoRequest.step, hidle]⟩
  | returned req rtt =>
    exact ⟨.client (.worker j .account), rfl,
      by simp [step, State.clientMay, OpenLoop.step, OpenLoop.Worker.step, hp]⟩
  | exited => exact absurd hp hj

theorem allEchoed_of_finished (hI : Inv cfg gen policy poolSize s)
    (h : Split (calls cfg gen policy poolSize) rc bc (s.ends cfg gen policy poolSize) left q)
    (hfin : Finished s.clients) :
    AllEchoed (calls cfg gen policy poolSize) rc bc (s.ends cfg gen policy poolSize) := by
  obtain ⟨hstop, hexit⟩ := hfin
  have hidle (j : Fin poolSize.toNat) : (s.clients.workers j).client.phase = .idle := by
    have hphase := (hI.delivery.workers j).phase
    simp only [OpenLoopDelivery.PhaseOk, hexit j] at hphase
    exact hphase.1
  refine h.allEchoed hidle (fun j => ?_)
  have hserved := (OpenLoopResult.served_of_exited hI.delivery (hexit j)).1.length_eq
  change (calls cfg gen policy poolSize j).drop (s.clients.workers j).client.calls.length = []
  rw [calls_of_stopped hI.delivery hI.planned hstop j, List.drop_eq_nil_iff, List.length_map, hserved,
    DoRequest.Client.calls, hidle j]
  simp [DoRequest.Phase.header]

theorem counters_of_allEchoed (hI : Inv cfg gen policy poolSize s) (hfin : Finished s.clients)
    (h : AllEchoed (calls cfg gen policy poolSize) rc bc (s.ends cfg gen policy poolSize)) :
    s.requestCount = rc + cfg.total.toUInt64 ∧ s.byteCount = bc + s.clients.totalBytes := by
  obtain ⟨hstop, hexit⟩ := hfin
  have hcalls := calls_of_stopped hI.delivery hI.planned hstop
  constructor
  · have hlength : ∑ j, (calls cfg gen policy poolSize j).length = cfg.total.toNat := by
      have hparts := congrArg Multiset.card (Partition.sum_filter_eq Issued.conn s.clients.issued hI.delivery.conns)
      have hissued := congrArg List.length hI.delivery.issued
      rw [Multiset.card_sum] at hparts
      simp only [hcalls, givenTo, List.length_map]
      simp only [Multiset.coe_card] at hparts
      rw [hparts, ← List.length_map Issued.req, hissued, OpenLoopDelivery.requests, List.length_map,
        List.length_range, hI.delivery.stopped hstop]
    refine h.requestCount.trans ?_
    rw [hlength, UInt64.ofNat_uInt32ToNat]
  · rw [hI.delivery.totalBytes]
    refine h.byteCount.trans (congrArg (fun n => bc + UInt64.ofNat n) (Finset.sum_congr rfl (fun j _ => ?_)))
    obtain ⟨hserved, hacc⟩ := OpenLoopResult.served_of_exited hI.delivery (hexit j)
    rw [hacc, OpenLoopResult.map_eq_of_serves OpenLoopResult.serves_frameBytes hserved, hcalls j, List.map_map]
    rfl

theorem turn_or_label {e : Event poolSize.toNat} (hs : step cfg gen s e = some s') (he : isTick e = false) :
    isTurn e = true ∨ (labelOf s e).isSome = true := by
  cases e with
  | handler j ev =>
    simp only [step, Option.ite_none_right_eq_some] at hs
    exact .inr (by rw [labelOf, Option.isSome_map]; exact handlerLabel_isSome ev (s.toServer j) hs.1)
  | client ev =>
    simp only [step, Option.ite_none_right_eq_some] at hs
    obtain ⟨hmay, hs⟩ := hs
    cases ev with
    | tick now => cases he
    | push | stop => exact .inl rfl
    | worker j ev =>
      cases ev with
      | test | pop | timeout | account => exact .inl rfl
      | now => exact .inr rfl
      | recv r =>
        refine .inr ?_
        rw [labelOf, Option.isSome_map]
        exact clientLabel_isSome (.recv r) (s.toClient j) hmay
      | send r =>
        refine .inr ?_
        rw [labelOf, Option.isSome_map]
        exact clientLabel_isSome (.send r) (s.toClient j) hmay
      | call =>
        obtain ⟨c, hc, -⟩ := Option.map_eq_some_iff.mp hs
        obtain ⟨w, hw, -⟩ := Option.map_eq_some_iff.mp hc
        cases hp : (s.clients.workers j).phase <;> simp [OpenLoop.Worker.step, hp] at hw
        simp [labelOf, requestEvent, hp, clientLabel]

theorem call_goes_on (hI : Inv cfg gen policy poolSize s)
    (h : Split (calls cfg gen policy poolSize) rc bc (s.ends cfg gen policy poolSize) left q) {j : Fin poolSize.toNat}
    (hbusy : (s.clients.workers j).client.phase ≠ .idle) :
    ∃ e, isExchange e = true ∧ (step cfg gen s e).isSome = true := by
  have hphase := (hI.delivery.workers j).phase
  cases hp : (s.clients.workers j).phase with
  | inRequest req => exact enabled_of_goesOn hp (h.goesOn hbusy s.clients.clock)
  | testRunning | testSize | pop | popped req | returned req rtt | exited =>
    simp [OpenLoopDelivery.PhaseOk, hp, hbusy] at hphase

/-- The open loop against the server it is connected to, over a network that
fragments as it likes, as long as no call fails and no receive of the server
times out. Every call that has returned has read back its own header
and payload, and a call in progress can always go on. Once the producer has
stopped, the run is over after a bounded number of events and cannot stop before
all workers are joined; then every request has been answered on the connection
that the scheduler chose for it, nothing is in flight, and the counters of the
two sides agree. -/
theorem open_loop_end_to_end (cfg : WorkloadConfig) (gen : Nat → Turn)
    (hmax : ∀ k < cfg.total.toNat, (gen k).size.toNat ≤ maxPayloadSize) (clock : UInt64) (policy : SchedulingPolicy)
    (poolSize : UInt32) (stack stack' : Fin poolSize.toNat → Fin headerSize → UInt8)
    (sendBuf recvBuf : Fin poolSize.toNat → List UInt8) (serverStack : Fin poolSize.toNat → Fin headerSize → UInt8)
    (rc bc : UInt64) (es : List (Event poolSize.toNat)) (s : State poolSize.toNat)
    (hr : Transition.run (step cfg gen)
      (start clock policy poolSize stack stack' sendBuf recvBuf serverStack rc bc) es = some s) :
    (∀ j, (∃ done rest, calls cfg gen policy poolSize j = done ++ rest ∧
        List.Forall₂ Echoed done (s.clients.workers j).client.exchanges) ∧
      ((s.clients.workers j).client.phase ≠ .idle → ∃ e, isExchange e = true ∧ (step cfg gen s e).isSome = true)) ∧
    es.countP isExchange ≤ ∑ j, (cost (calls cfg gen policy poolSize j) + 1) ∧
    (s.clients.running = false →
      (∀ fs t, Transition.run (step cfg gen) s fs = some t → fs.countP (fun e => !isTick e) ≤
        ∑ j, (cost (calls cfg gen policy poolSize j) + 1) + ∑ j, turns (s.clients.workers j)) ∧
      ((∀ e, isTick e = false → step cfg gen s e = none) → Finished s.clients)) ∧
    (Finished s.clients →
      (∀ j, List.Forall₂ Echoed (calls cfg gen policy poolSize j) (s.clients.workers j).client.exchanges ∧
        s.toServer j = [] ∧ s.toClient j = []) ∧
      s.requestCount = rc + cfg.total.toUInt64 ∧ s.byteCount = bc + s.clients.totalBytes) := by
  obtain ⟨hI, left, q, h, hlen⟩ := connections_of_run hmax hr
  refine ⟨fun j => ⟨h.echoed j, call_goes_on hI h⟩, ?_, fun hstop => ⟨?_, ?_⟩, ?_⟩
  · have hshown : es.countP isExchange ≤ es.countP (fun _ => false) + (Simulation.trace (step cfg gen) labelOf
        (start clock policy poolSize stack stack' sendBuf recvBuf serverStack rc bc) es).length := by
      refine Simulation.countP_le_length_trace (fun s e t hs he => ?_) hr
      simp only [isExchange, Bool.and_eq_true, Bool.not_eq_true'] at he
      exact .inr ((turn_or_label hs he.1).resolve_left (by simp [he.2]))
    rw [List.countP_false, Function.const_apply] at hshown
    omega
  · intro fs t hf
    have hwhole := connections_of_run hmax (Transition.run_append_some.mpr ⟨s, hr, hf⟩)
    obtain ⟨-, left', q', -, hlen'⟩ := hwhole
    rw [Simulation.trace_append fs hr, List.length_append] at hlen'
    have hshown : fs.countP (fun e => !isTick e) ≤ fs.countP isTurn +
        (Simulation.trace (step cfg gen) labelOf s fs).length :=
      Simulation.countP_le_length_trace (fun s e t hs he => turn_or_label hs (by simpa using he)) hf
    have hturns : fs.countP isTurn + ∑ j, turns (t.clients.workers j) ≤ ∑ j, turns (s.clients.workers j) :=
      Ranking.countP_add_rank_le isTurn (fun s e t hI hs => stopped_step hI hs) (fun s e t hI hs => turns_step hI hs)
        ⟨hI.delivery, hstop⟩ hf
    omega
  · intro hnone
    refine ⟨hstop, fun j => ?_⟩
    by_contra hj
    obtain ⟨e, he, hsome⟩ := enabled_of_not_exited hI h hj
    rw [hnone e he] at hsome
    cases hsome
  · intro hfin
    have hall := allEchoed_of_finished hI h hfin
    exact ⟨fun j => ⟨hall.echoed j, hall.toServer j, hall.toClient j⟩, counters_of_allEchoed hI hfin hall⟩

/-- Two requests of one byte on two connections. The second is answered first,
and the producer stops before either is. -/
def twoPushes : List (Event 2) :=
  let hdr (id : UInt64) (type : UInt8) (now : UInt64) : List UInt8 := serializeHeader ⟨id, 1, 7, type, now⟩
  let worker (j : Fin 2) (ev : OpenLoop.WorkerEvent) : Event 2 := .client (.worker j ev)
  [.client .push, worker 0 .test, worker 0 .pop, worker 0 .call, worker 1 .test, worker 1 .timeout, .client (.tick 60),
    .client .push, worker 0 (.send (.sent 22)), .handler 0 (.running true),
    .handler 0 (.recv (.data ((hdr 0 request 50).take 9))), .client .stop, worker 1 .test, worker 1 .test, worker 1 .pop,
    worker 1 .call, worker 1 (.send (.sent 22)), worker 1 (.send (.sent 1)), .handler 1 (.running true),
    .handler 1 (.recv (.data (hdr 1 request 60))), .handler 1 (.recv (.data [9])), .handler 1 (.send (.sent 22)),
    .handler 1 (.send (.sent 1)), .client (.tick 85), worker 1 (.recv (.data (hdr 1 response 60))),
    worker 1 (.recv (.data [9])), worker 1 .now, .handler 0 (.recv (.data ((hdr 0 request 50).drop 9))),
    worker 0 (.send (.sent 1)), .handler 0 (.recv (.data [8])), .handler 0 (.send (.sent 22)),
    .handler 0 (.send (.sent 1)), worker 0 (.recv (.data (hdr 0 response 50))), worker 0 (.recv (.data [8])),
    worker 0 .now, worker 0 .account, worker 1 .account, worker 0 .test, worker 0 .test, worker 1 .test, worker 1 .test]

theorem twoPushes_end_to_end : ∃ s : State 2,
    Transition.run (step ⟨1, 1⟩ (fun _ => ⟨0, 1, fun lo _ => lo⟩))
      (start 50 .roundRobin 2 (fun _ _ => 0) (fun _ _ => 0) (fun j => [8 + UInt8.ofNat j.val]) (fun _ => [])
        (fun _ _ => 0) 5 70) twoPushes = some s ∧
    s.requestCount = 7 ∧ s.byteCount = 116 ∧
    (∀ j, List.Forall₂ Echoed [⟨UInt64.ofNat j.val, 1, 7⟩] (s.clients.workers j).client.exchanges) := by
  have hrun : (Transition.run (step ⟨1, 1⟩ (fun _ => ⟨0, 1, fun lo _ => lo⟩))
      (start 50 .roundRobin 2 (fun _ _ => 0) (fun _ _ => 0) (fun j => [8 + UInt8.ofNat j.val]) (fun _ => [])
        (fun _ _ => 0) 5 70) twoPushes).map (fun s : State 2 => (decide (@Finished 2 s.clients), s.clients.totalBytes)) =
        some (true, 46) := by decide +kernel
  obtain ⟨s, hs, heq⟩ := Option.map_eq_some_iff.mp hrun
  simp only [Prod.mk.injEq, decide_eq_true_eq] at heq
  obtain ⟨hfin, hbytes⟩ := heq
  obtain ⟨-, -, -, hend⟩ := open_loop_end_to_end ⟨1, 1⟩ (fun _ => ⟨0, 1, fun lo _ => lo⟩) (fun _ _ => by decide) 50
    .roundRobin 2 _ _ _ _ _ 5 70 twoPushes s hs
  obtain ⟨hgood, hreq, hb⟩ := hend hfin
  refine ⟨s, hs, hreq.trans (by decide), ?_, fun j => ?_⟩
  · rw [hb, hbytes]
    rfl
  · have hcalls : ∀ j : Fin 2, calls ⟨1, 1⟩ (fun _ => ⟨0, 1, fun lo _ => lo⟩) .roundRobin 2 j =
        [⟨UInt64.ofNat j.val, 1, 7⟩] := by decide
    rw [← hcalls j]
    exact (hgood j).1

end DcBench.OpenLoopEndToEnd

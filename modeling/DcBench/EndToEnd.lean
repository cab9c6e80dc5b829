import DcBench.ClosedLoopBenchmark
import DcBench.ServerTotals
import DcBench.Lib.Ranking
import DcBench.Lib.Numerals
import Mathlib.Algebra.Order.BigOperators.Group.Finset

namespace DcBench.EndToEnd

open DcBench.Lib DcBench.Message DcBench.ExactTransfer DcBench.Workload DcBench.Connections DcBench.ConnectionEcho
  DcBench.ClosedLoopBenchmark
open DcBench.DoRequest (Call)
open DcBench.EchoSession (Session)
open DcBench.SessionExchange (cost Echoed)

variable {cfg : WorkloadConfig} {poolSize : UInt32} {sizes : Fin poolSize.toNat → Nat → UInt32}
  {s s' : State poolSize.toNat}

def isTick {P : Nat} : Event P → Bool
  | .client (.tick _) => true
  | _ => false

/-- The steps of a worker outside of `do_request`. -/
def isTurn {P : Nat} : Event P → Bool
  | .client (.worker _ .next) | .client (.worker _ .account) => true
  | _ => false

def turns (limit : UInt32) (w : ClosedLoop.Worker) : Nat :=
  match w.phase with
  | .test => 2 * (limit.toNat - w.i.toNat) + 1
  | .inRequest _ | .returned _ _ => 2 * (limit.toNat - w.i.toNat)
  | .exited => 0

theorem turns_moved {warmup count : UInt32} {gen : Nat → UInt32} {clock : UInt64} {w w' : ClosedLoop.Worker}
    {ev : ClosedLoop.WorkerEvent} (hI : ClosedLoopBooks.WorkerInv warmup count gen w)
    (hs : w.step warmup count gen clock ev = some w') :
    turns (warmup + count) w' + (if ev = .next ∨ ev = .account then 1 else 0) ≤ turns (warmup + count) w := by
  have hadvance {size : UInt32} {dev : DoRequest.Event} (hp : w.phase = .inRequest size)
      (hw : w.advance size dev = some w') : turns (warmup + count) w' = turns (warmup + count) w := by
    obtain ⟨c, -, rfl⟩ := Option.map_eq_some_iff.mp hw
    by_cases hidle : c.phase = .idle
    · rw [if_pos hidle]
      simp only [turns, hp]
    · rw [if_neg hidle]
      simp only [turns, hp]
  cases ev with
  | next =>
    cases hp : w.phase with
    | test =>
      simp only [ClosedLoop.Worker.step, hp] at hs
      by_cases hlt : w.i < warmup + count
      · rw [if_pos hlt] at hs
        obtain ⟨c, -, rfl⟩ := Option.map_eq_some_iff.mp hs
        simp [turns, hp]
      · rw [if_neg hlt, Option.some.injEq] at hs
        subst hs
        simp [turns, hp]
    | inRequest size | returned size rtt | exited => simp [ClosedLoop.Worker.step, hp] at hs
  | account =>
    cases hp : w.phase with
    | returned size rtt =>
      simp only [ClosedLoop.Worker.step, hp, Option.some.injEq] at hs
      subst hs
      obtain ⟨-, hlt, -⟩ := hI.returned hp
      have hnat := UInt32.lt_iff_toNat_lt.mp hlt
      simp only [turns, hp, toNat_succ_of_lt hlt, or_true, if_true]
      omega
    | test | inRequest size | exited => simp [ClosedLoop.Worker.step, hp] at hs
  | send r | recv r | now =>
    cases hp : w.phase with
    | inRequest size =>
      simp only [ClosedLoop.Worker.step, hp] at hs
      simp [hadvance hp hs]
    | test | returned size rtt | exited => simp [ClosedLoop.Worker.step, hp] at hs

def limit (cfg : WorkloadConfig) (poolSize : UInt32) (j : Fin poolSize.toNat) : UInt32 :=
  cfg.warmup poolSize + cfg.count poolSize (UInt32.ofNat j)

theorem inv_step {e : Event poolSize.toNat} (hI : ClosedLoopBooks.Inv cfg poolSize sizes s.clients)
    (hs : step cfg poolSize sizes s e = some s') : ClosedLoopBooks.Inv cfg poolSize sizes s'.clients := by
  cases e with
  | handler j ev =>
    simp only [step, Option.ite_none_right_eq_some] at hs
    obtain ⟨hd, -, rfl⟩ := Option.map_eq_some_iff.mp hs.2
    exact hI
  | client ev =>
    simp only [step, Option.ite_none_right_eq_some] at hs
    obtain ⟨c, hc, rfl⟩ := Option.map_eq_some_iff.mp hs.2
    exact ClosedLoopBooks.inv_step hI hc

theorem turns_step {e : Event poolSize.toNat} (hI : ClosedLoopBooks.Inv cfg poolSize sizes s.clients)
    (hs : step cfg poolSize sizes s e = some s') :
    ∑ j, turns (limit cfg poolSize j) (s'.clients.workers j) + (if isTurn e then 1 else 0) ≤
      ∑ j, turns (limit cfg poolSize j) (s.clients.workers j) := by
  cases e with
  | handler j ev =>
    simp only [step, Option.ite_none_right_eq_some] at hs
    obtain ⟨hd, -, rfl⟩ := Option.map_eq_some_iff.mp hs.2
    exact Nat.le_refl _
  | client ev =>
    simp only [step, Option.ite_none_right_eq_some] at hs
    obtain ⟨c, hc, rfl⟩ := Option.map_eq_some_iff.mp hs.2
    cases ev with
    | tick now =>
      obtain ⟨-, heq⟩ := Option.ite_none_right_eq_some.mp hc
      cases heq
      exact Nat.le_refl _
    | worker j ev =>
      obtain ⟨w, hw, rfl⟩ := Option.map_eq_some_iff.mp hc
      have hmoved := turns_moved (hI.workers j) hw
      have hturn : (if isTurn (.client (.worker j ev)) then 1 else 0) = if ev = .next ∨ ev = .account then 1 else 0 := by
        cases ev <;> simp [isTurn]
      have hsum := Partition.sum_update_add (fun k => turns (limit cfg poolSize k)) s.clients.workers w
        (Finset.mem_univ j)
      change turns (limit cfg poolSize j) w + _ ≤ turns (limit cfg poolSize j) (s.clients.workers j) at hmoved
      rw [hturn]
      dsimp only
      omega

theorem size_le_of_mem_calls {j : Fin poolSize.toNat}
    (hmax : ∀ k < (limit cfg poolSize j).toNat, (sizes j k).toNat ≤ maxPayloadSize) :
    ∀ a ∈ calls cfg poolSize sizes j, a.size.toNat ≤ maxPayloadSize := by
  intro a ha
  obtain ⟨k, hk, rfl⟩ := List.mem_map.mp ha
  exact hmax k (List.mem_range.mp hk)

theorem connections_of_run {clock : UInt64} {stack stack' : Fin poolSize.toNat → Fin headerSize → UInt8}
    {sendBuf recvBuf : Fin poolSize.toNat → List UInt8} {serverStack : Fin poolSize.toNat → Fin headerSize → UInt8}
    {rc bc : UInt64} {es : List (Event poolSize.toNat)}
    (hmax : ∀ j, ∀ k < (limit cfg poolSize j).toNat, (sizes j k).toNat ≤ maxPayloadSize)
    (hr : Transition.run (step cfg poolSize sizes)
      (start clock poolSize stack stack' sendBuf recvBuf serverStack rc bc) es = some s) :
    ClosedLoopBooks.Inv cfg poolSize sizes s.clients ∧
    ∃ left q, Split (calls cfg poolSize sizes) rc bc (s.ends cfg poolSize sizes) left q ∧
      (Simulation.trace (step cfg poolSize sizes) (labelOf cfg poolSize sizes)
        (start clock poolSize stack stack' sendBuf recvBuf serverStack rc bc) es).length + left =
          ∑ j, (cost (calls cfg poolSize sizes j) + 1) := by
  obtain ⟨t, ht, hI, htracks⟩ := Simulation.exists_run_trace
    (R := fun s t => ClosedLoopBooks.Inv cfg poolSize sizes s.clients ∧ Tracks (s.ends cfg poolSize sizes) t)
    (fun s e s' t h hs => tracks_step h.1 h.2 hs)
    ⟨ClosedLoopBooks.inv_start cfg poolSize sizes clock stack stack' sendBuf recvBuf,
      tracks_start cfg poolSize sizes clock stack stack' sendBuf recvBuf serverStack rc bc⟩ hr
  exact ⟨hI, split_of_run (fun j => size_le_of_mem_calls (hmax j)) ht htracks⟩

variable {rc bc : UInt64} {left : Nat} {q : Fin poolSize.toNat → Session}

theorem enabled_of_goesOn {j : Fin poolSize.toNat} {size : UInt32} (hp : (s.clients.workers j).phase = .inRequest size)
    (h : GoesOn (s.ends cfg poolSize sizes) j s.clients.clock) :
    ∃ e, isTick e = false ∧ (step cfg poolSize sizes s e).isSome = true := by
  -- a step inside `do_request`
  have hadvance {ev : ClosedLoop.WorkerEvent} {dev : DoRequest.Event}
      (hev : (s.clients.workers j).step (cfg.warmup poolSize) (cfg.count poolSize (UInt32.ofNat j)) (sizes j)
        s.clients.clock ev = (s.clients.workers j).advance size dev)
      (hmay : s.clientMay (.worker j ev) = true)
      (hs : (DoRequest.step (s.clients.workers j).client dev).isSome = true) :
      (step cfg poolSize sizes s (.client (.worker j ev))).isSome = true := by
    rw [step, if_pos hmay, Option.isSome_map, ClosedLoop.step, Option.isSome_map, hev, ClosedLoop.Worker.advance,
      Option.isSome_map]
    exact hs
  cases h with
  | send r hr hs =>
    exact ⟨.client (.worker j (.send r)), rfl, hadvance (by simp only [ClosedLoop.Worker.step, hp]) hr hs⟩
  | recv r hr hs =>
    exact ⟨.client (.worker j (.recv r)), rfl, hadvance (by simp only [ClosedLoop.Worker.step, hp]) hr hs⟩
  | now hs => exact ⟨.client (.worker j .now), rfl, hadvance (by simp only [ClosedLoop.Worker.step, hp]) rfl hs⟩
  | handler ev hev hs =>
    refine ⟨.handler j ev, rfl, ?_⟩
    have hmay : handlerMay (s.toServer j) ev = true := hev
    rw [step, if_pos hmay, Option.isSome_map]
    exact hs

theorem enabled_of_not_exited (hI : ClosedLoopBooks.Inv cfg poolSize sizes s.clients)
    (h : Split (calls cfg poolSize sizes) rc bc (s.ends cfg poolSize sizes) left q) {j : Fin poolSize.toNat}
    (hj : (s.clients.workers j).phase ≠ .exited) :
    ∃ e, isTick e = false ∧ (step cfg poolSize sizes s e).isSome = true := by
  have hphase := (hI.workers j).phase
  cases hp : (s.clients.workers j).phase with
  | exited => exact absurd hp hj
  | returned size rtt =>
    exact ⟨.client (.worker j .account), rfl,
      by simp [step, State.clientMay, ClosedLoop.step, ClosedLoop.Worker.step, hp]⟩
  | test =>
    simp only [ClosedLoopBooks.PhaseOk, hp] at hphase
    refine ⟨.client (.worker j .next), rfl, ?_⟩
    by_cases hlt : (s.clients.workers j).i < cfg.warmup poolSize + cfg.count poolSize (UInt32.ofNat j)
    · simp [step, State.clientMay, ClosedLoop.step, ClosedLoop.Worker.step, hp, hlt, DoRequest.step, hphase]
    · simp [step, State.clientMay, ClosedLoop.step, ClosedLoop.Worker.step, hp, hlt]
  | inRequest size =>
    simp only [ClosedLoopBooks.PhaseOk, hp] at hphase
    obtain ⟨-, hdr, hhdr, -⟩ := hphase
    refine enabled_of_goesOn hp (h.goesOn (fun hidle => ?_) s.clients.clock)
    change (s.clients.workers j).client.phase = .idle at hidle
    simp [hidle, DoRequest.Phase.header] at hhdr

theorem allEchoed_of_finished (hI : ClosedLoopBooks.Inv cfg poolSize sizes s.clients)
    (h : Split (calls cfg poolSize sizes) rc bc (s.ends cfg poolSize sizes) left q)
    (hfin : ClosedLoopBooks.Finished s.clients) :
    AllEchoed (calls cfg poolSize sizes) rc bc (s.ends cfg poolSize sizes) := by
  have hphase (j : Fin poolSize.toNat) := (hI.workers j).phase
  simp only [ClosedLoopBooks.PhaseOk, hfin _] at hphase
  refine h.allEchoed (fun j => (hphase j).1) (fun j => ?_)
  have hissued : ClosedLoopBooks.issued (s.clients.workers j) = (limit cfg poolSize j).toNat := by
    rw [ClosedLoopBooks.issued, hfin j]
    dsimp only
    rw [(hphase j).2]
    rfl
  simp only [State.ends, hissued, limit, calls, List.drop_eq_nil_iff, List.length_map, List.length_range,
    Nat.le_refl]

theorem bytes_of_echoed {w : ClosedLoop.Worker} {cs : List Call} (hp : w.phase = .exited)
    (h : List.Forall₂ Echoed cs w.client.exchanges) :
    ClosedLoopBooks.bytes w = (cs.map (fun a => headerSize + a.size.toNat)).sum := by
  rw [ClosedLoopBooks.bytes, ClosedLoopBooks.accounted_of_exited hp]
  generalize w.client.exchanges = xs at h
  induction h with
  | nil => rfl
  | cons hx _ ih =>
    obtain ⟨now, hreq, -⟩ := hx
    rw [List.map_cons, List.map_cons, List.sum_cons, List.sum_cons, ih, hreq]
    rfl

theorem counters_of_allEchoed (hI : ClosedLoopBooks.Inv cfg poolSize sizes s.clients)
    (hfin : ClosedLoopBooks.Finished s.clients)
    (h : AllEchoed (calls cfg poolSize sizes) rc bc (s.ends cfg poolSize sizes)) :
    s.requestCount = rc + UInt64.ofNat (∑ j, (limit cfg poolSize j).toNat) ∧
      s.byteCount = bc + s.clients.totalBytes := by
  constructor
  · refine h.requestCount.trans (congrArg (fun n => rc + UInt64.ofNat n) (Finset.sum_congr rfl (fun j _ => ?_)))
    rw [calls, List.length_map, List.length_range, limit]
  · rw [hI.totalBytes]
    refine h.byteCount.trans (congrArg (fun n => bc + UInt64.ofNat n) (Finset.sum_congr rfl (fun j _ => ?_)))
    exact (bytes_of_echoed (hfin j) (h.echoed j)).symm

theorem turn_or_label {e : Event poolSize.toNat} (hs : step cfg poolSize sizes s e = some s') (he : isTick e = false) :
    isTurn e = true ∨ (labelOf cfg poolSize sizes s e).isSome = true := by
  cases e with
  | handler j ev =>
    simp only [step, Option.ite_none_right_eq_some] at hs
    exact .inr (by rw [labelOf, Option.isSome_map]; exact handlerLabel_isSome ev (s.toServer j) hs.1)
  | client ev =>
    simp only [step, Option.ite_none_right_eq_some] at hs
    obtain ⟨hmay, -⟩ := hs
    cases ev with
    | tick now => cases he
    | worker j ev =>
      cases ev with
      | next | account => exact .inl rfl
      | now => exact .inr rfl
      | recv r =>
        refine .inr ?_
        rw [labelOf, Option.isSome_map]
        exact clientLabel_isSome (.recv r) (s.toClient j) hmay
      | send r =>
        refine .inr ?_
        rw [labelOf, Option.isSome_map]
        exact clientLabel_isSome (.send r) (s.toClient j) hmay

/-- A closed loop of any number of workers against the server they are connected
to, over a network that fragments as it likes, as long as no call fails and no
receive of the server times out. Every call that has returned has
read back its own header and payload. The run is over after a bounded number of
events and cannot stop before all workers have left their loops; then nothing is
in flight, and the counters of the two sides agree. -/
theorem closed_loop_end_to_end (cfg : WorkloadConfig) (poolSize : UInt32) (sizes : Fin poolSize.toNat → Nat → UInt32)
    (hmax : ∀ j, ∀ k < (limit cfg poolSize j).toNat, (sizes j k).toNat ≤ maxPayloadSize) (clock : UInt64)
    (stack stack' : Fin poolSize.toNat → Fin headerSize → UInt8) (sendBuf recvBuf : Fin poolSize.toNat → List UInt8)
    (serverStack : Fin poolSize.toNat → Fin headerSize → UInt8) (rc bc : UInt64) (es : List (Event poolSize.toNat))
    (s : State poolSize.toNat) (hr : Transition.run (step cfg poolSize sizes)
      (start clock poolSize stack stack' sendBuf recvBuf serverStack rc bc) es = some s) :
    (∀ j, ∃ done rest, calls cfg poolSize sizes j = done ++ rest ∧
      List.Forall₂ Echoed done (s.clients.workers j).client.exchanges) ∧
    es.countP (fun e => !isTick e) ≤
      ∑ j, (cost (calls cfg poolSize sizes j) + 2 * (limit cfg poolSize j).toNat + 2) ∧
    ((∀ e, isTick e = false → step cfg poolSize sizes s e = none) → ClosedLoopBooks.Finished s.clients) ∧
    (ClosedLoopBooks.Finished s.clients →
      (∀ j, List.Forall₂ Echoed (calls cfg poolSize sizes j) (s.clients.workers j).client.exchanges ∧
        s.toServer j = [] ∧ s.toClient j = []) ∧
      s.requestCount = rc + UInt64.ofNat (∑ j, (limit cfg poolSize j).toNat) ∧
      s.byteCount = bc + s.clients.totalBytes) := by
  obtain ⟨hI, left, q, h, hlen⟩ := connections_of_run hmax hr
  refine ⟨h.echoed, ?_, ?_, ?_⟩
  · have hshown : es.countP (fun e => !isTick e) ≤ es.countP isTurn +
        (Simulation.trace (step cfg poolSize sizes) (labelOf cfg poolSize sizes)
          (start clock poolSize stack stack' sendBuf recvBuf serverStack rc bc) es).length :=
      Simulation.countP_le_length_trace (fun s e t hs he => turn_or_label hs (by simpa using he)) hr
    have hturns : es.countP isTurn + ∑ j, turns (limit cfg poolSize j) (s.clients.workers j) ≤
        ∑ j : Fin poolSize.toNat, (2 * (limit cfg poolSize j).toNat + 1) :=
      Ranking.countP_add_rank_le isTurn (fun s e t hI hs => inv_step hI hs) (fun s e t hI hs => turns_step hI hs)
        (ClosedLoopBooks.inv_start cfg poolSize sizes clock stack stack' sendBuf recvBuf) hr
    have hsum : ∑ j, (cost (calls cfg poolSize sizes j) + 2 * (limit cfg poolSize j).toNat + 2) =
        ∑ j, (cost (calls cfg poolSize sizes j) + 1) +
          ∑ j : Fin poolSize.toNat, (2 * (limit cfg poolSize j).toNat + 1) := by
      rw [← Finset.sum_add_distrib]
      exact Finset.sum_congr rfl (fun j _ => by omega)
    omega
  · intro hnone j
    by_contra hj
    obtain ⟨e, he, hsome⟩ := enabled_of_not_exited hI h hj
    rw [hnone e he] at hsome
    cases hsome
  · intro hfin
    have hall := allEchoed_of_finished hI h hfin
    exact ⟨fun j => ⟨hall.echoed j, hall.toServer j, hall.toClient j⟩, counters_of_allEchoed hI hfin hall⟩

/-- Two workers with one request of one byte each, answered in the other order. -/
def twoExchanges : List (Event 2) :=
  let ask (type : UInt8) : List UInt8 := serializeHeader ⟨0, 1, 7, type, 50⟩
  let worker (j : Fin 2) (ev : ClosedLoop.WorkerEvent) : Event 2 := .client (.worker j ev)
  [worker 0 .next, worker 0 (.send (.sent 22)), worker 1 .next, .handler 0 (.running true),
    .handler 0 (.recv (.data ((ask request).take 5))), worker 1 (.send (.sent 22)), worker 1 (.send (.sent 1)),
    .handler 1 (.running true), .handler 1 (.recv (.data (ask request))), .handler 1 (.recv (.data [9])),
    .handler 0 (.recv (.data ((ask request).drop 5))), .handler 1 (.send (.sent 22)), .handler 1 (.send (.sent 1)),
    .client (.tick 80), worker 1 (.recv (.data (ask response))), worker 1 (.recv (.data [9])), worker 1 .now,
    worker 0 (.send (.sent 1)), .handler 0 (.recv (.data [8])), .handler 0 (.send (.sent 22)),
    worker 0 (.recv (.data (ask response))), .handler 0 (.send (.sent 1)), worker 1 .account,
    worker 0 (.recv (.data [8])), worker 0 .now, worker 0 .account, worker 0 .next, worker 1 .next]

theorem twoExchanges_end_to_end : ∃ s : State 2,
    Transition.run (step ⟨0, 2⟩ 2 (fun _ _ => 1))
      (start 50 2 (fun _ _ => 0) (fun _ _ => 0) (fun j => [8 + UInt8.ofNat j.val]) (fun _ => []) (fun _ _ => 0) 5 70)
      twoExchanges = some s ∧
    s.requestCount = 7 ∧ s.byteCount = 116 ∧
    (∀ j, List.Forall₂ Echoed [⟨0, 1, 7⟩] (s.clients.workers j).client.exchanges) := by
  have hrun : (Transition.run (step ⟨0, 2⟩ 2 (fun _ _ => 1))
      (start 50 2 (fun _ _ => 0) (fun _ _ => 0) (fun j => [8 + UInt8.ofNat j.val]) (fun _ => []) (fun _ _ => 0) 5 70)
      twoExchanges).map (fun s : State 2 => (decide (@ClosedLoopBooks.Finished 2 s.clients), s.clients.totalBytes)) =
        some (true, 46) := by decide +kernel
  obtain ⟨s, hs, heq⟩ := Option.map_eq_some_iff.mp hrun
  simp only [Prod.mk.injEq, decide_eq_true_eq] at heq
  obtain ⟨hfin, hbytes⟩ := heq
  obtain ⟨-, -, -, hend⟩ := closed_loop_end_to_end ⟨0, 2⟩ 2 (fun _ _ => 1) (fun _ _ _ => by decide) 50 _ _ _ _ _ 5 70
    twoExchanges s hs
  obtain ⟨hgood, hreq, hb⟩ := hend hfin
  refine ⟨s, hs, hreq.trans (by decide), ?_, fun j => ?_⟩
  · rw [hb, hbytes]
    rfl
  · have hcalls : calls ⟨0, 2⟩ 2 (fun _ _ => 1) j = [⟨0, 1, 7⟩] := by
      have hall : ∀ j : Fin 2, calls ⟨0, 2⟩ 2 (fun _ _ => 1) j = [⟨0, 1, 7⟩] := by decide
      exact hall j
    rw [← hcalls]
    exact (hgood j).1

end DcBench.EndToEnd

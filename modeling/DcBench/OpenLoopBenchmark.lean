import DcBench.OpenLoopResult
import DcBench.ConnectionEcho

namespace DcBench.OpenLoopBenchmark

open DcBench.Lib DcBench.Message DcBench.ExactTransfer DcBench.Workload DcBench.PriorityScheduler DcBench.Connections
open DcBench.OpenLoop (PendingRequest Issued pending)
open DcBench.OpenLoopDelivery (givenTo WorkerInv)
open DcBench.DoRequest (Call)
open DcBench.EchoSession (Label)

/-- `run_open_loop` and the `TcpServer` it is connected to. Worker `j` and
handler `j` are the two ends of connection `j`. -/
structure State (P : Nat) where
  clients : OpenLoop.State P
  handlers : Fin P → TcpServer.Handler
  requestCount : UInt64
  byteCount : UInt64

inductive Event (P : Nat)
  | client (ev : OpenLoop.Event P)
  | handler (j : Fin P) (ev : TcpServer.Event)

section

variable {P : Nat} (s : State P)

def State.toServer (j : Fin P) : List UInt8 :=
  (s.clients.workers j).client.sent.drop (s.handlers j).traffic.received.length

def State.toClient (j : Fin P) : List UInt8 :=
  (s.handlers j).traffic.sent.drop (s.clients.workers j).client.received.length

def State.clientMay : OpenLoop.Event P → Bool
  | .worker j (.recv r) => delivers (s.toClient j) r
  | .worker _ (.send r) => transmits r
  | _ => true

end

def step {P : Nat} (cfg : WorkloadConfig) (gen : Nat → Turn) (s : State P) : Event P → Option (State P)
  | .client ev =>
    if s.clientMay ev then (OpenLoop.step cfg gen s.clients ev).map (fun c => { s with clients := c }) else none
  | .handler j ev =>
    if handlerMay (s.toServer j) ev then
      (TcpServer.step (ServerSystem.load s.requestCount s.byteCount (s.handlers j)) ev).map (fun h =>
        { s with
          handlers := Function.update s.handlers j h
          requestCount := h.traffic.requestCount
          byteCount := h.traffic.byteCount })
    else none

/-- The connections have been made. The server's counters may hold what earlier
clients have left in them. -/
def start (clock : UInt64) (policy : SchedulingPolicy) (poolSize : UInt32)
    (stack stack' : Fin poolSize.toNat → Fin headerSize → UInt8) (sendBuf recvBuf : Fin poolSize.toNat → List UInt8)
    (serverStack : Fin poolSize.toNat → Fin headerSize → UInt8) (requestCount byteCount : UInt64) :
    State poolSize.toNat where
  clients := OpenLoop.start clock policy poolSize stack stack' sendBuf recvBuf
  handlers j := TcpServer.start (serverStack j) [] 0 0
  requestCount := requestCount
  byteCount := byteCount

/-- The next `n` requests, from turn `i` on, with the connections chosen for
them. The choices depend on neither the time nor the workers. The list ends where
a choice is not defined. -/
def assigned (cfg : WorkloadConfig) (gen : Nat → Turn) : Nat → Scheduler → Nat → List (Nat × PendingRequest)
  | 0, _, _ => []
  | n + 1, scheduler, i =>
    match scheduler.select (gen i).size (gen i).draw with
    | some (connIdx, scheduler) =>
      (connIdx.toNat, pending cfg (UInt32.ofNat i) (gen i).size) :: assigned cfg gen n scheduler (i + 1)
    | none => []

def calls (cfg : WorkloadConfig) (gen : Nat → Turn) (policy : SchedulingPolicy) (poolSize : UInt32)
    (j : Fin poolSize.toNat) : List Call :=
  ((assigned cfg gen cfg.total.toNat (fresh policy poolSize) 0).filter (fun x => x.1 = (j : Nat))).map (fun x => x.2.call)

variable {cfg : WorkloadConfig} {gen : Nat → Turn} {policy : SchedulingPolicy} {poolSize : UInt32}

/-- The producer has dealt out the first of its requests and is going to deal out
the rest. -/
def Planned (cfg : WorkloadConfig) (gen : Nat → Turn) (policy : SchedulingPolicy) (poolSize : UInt32)
    (s : OpenLoop.State poolSize.toNat) : Prop :=
  s.issued.map (fun x => (x.conn, x.req)) ++ assigned cfg gen (cfg.total.toNat - s.i.toNat) s.scheduler s.i.toNat =
    assigned cfg gen cfg.total.toNat (fresh policy poolSize) 0

section

variable {s s' : OpenLoop.State poolSize.toNat}

theorem planned_push {j : Fin poolSize.toNat} (h : Planned cfg gen policy poolSize s)
    (hp : OpenLoopMoves.Pushed cfg gen s s' j) : Planned cfg gen policy poolSize s' := by
  obtain ⟨connIdx, hsel, hconn⟩ := hp.chosen
  have hlt := UInt32.lt_iff_toNat_lt.mp hp.lt
  have hleft : cfg.total.toNat - s.i.toNat = cfg.total.toNat - (s.i.toNat + 1) + 1 := by omega
  rw [Planned, hleft, assigned, hsel, UInt32.ofNat_toNat] at h
  rw [Planned, hp.eq]
  simp only [List.map_append, List.map_cons, List.map_nil, toNat_succ_of_lt hp.lt, List.append_assoc,
    List.singleton_append, ← hconn]
  exact h

theorem planned_step {e : OpenLoop.Event poolSize.toNat} (h : Planned cfg gen policy poolSize s)
    (hs : OpenLoop.step cfg gen s e = some s') : Planned cfg gen policy poolSize s' := by
  cases e with
  | tick t =>
    simp only [OpenLoop.step, Option.ite_none_right_eq_some, Option.some.injEq] at hs
    obtain ⟨-, rfl⟩ := hs
    exact h
  | push =>
    obtain ⟨j, hp⟩ := OpenLoopMoves.pushed_of_step hs
    exact planned_push h hp
  | stop =>
    simp only [OpenLoop.step, Option.ite_none_right_eq_some, Option.some.injEq] at hs
    obtain ⟨-, rfl⟩ := hs
    exact h
  | worker j ev =>
    obtain ⟨w, -, rfl⟩ := OpenLoopMoves.worker_of_step hs
    exact h

theorem calls_eq (h : Planned cfg gen policy poolSize s) (j : Fin poolSize.toNat) :
    calls cfg gen policy poolSize j = (givenTo s j).map PendingRequest.call ++
      ((assigned cfg gen (cfg.total.toNat - s.i.toNat) s.scheduler s.i.toNat).filter (fun x => x.1 = (j : Nat))).map
        (fun x => x.2.call) := by
  rw [calls, ← h, List.filter_append, List.map_append, List.filter_map, List.map_map, givenTo, List.map_map]
  rfl

theorem calls_of_stopped (hI : OpenLoopDelivery.Inv cfg gen s) (h : Planned cfg gen policy poolSize s)
    (hstop : s.running = false) (j : Fin poolSize.toNat) :
    calls cfg gen policy poolSize j = (givenTo s j).map PendingRequest.call := by
  rw [calls_eq h j, hI.stopped hstop, Nat.sub_self, assigned, List.filter_nil, List.map_nil, List.append_nil]

end

def requestEvent (clock : UInt64) (w : OpenLoop.Worker) : OpenLoop.WorkerEvent → Option DoRequest.Event
  | .call =>
    match w.phase with
    | .popped req => some (.call req.call clock)
    | _ => none
  | .send r => some (.send r)
  | .recv r => some (.recv r)
  | .now => some (.now clock)
  | .test | .pop | .timeout | .account => none

def State.ends (cfg : WorkloadConfig) (gen : Nat → Turn) (policy : SchedulingPolicy) (poolSize : UInt32)
    (s : State poolSize.toNat) : Ends poolSize.toNat where
  client j := (s.clients.workers j).client
  todo j := (calls cfg gen policy poolSize j).drop (s.clients.workers j).client.calls.length
  handler := s.handlers
  requestCount := s.requestCount
  byteCount := s.byteCount

/-- The system call of a session that an event of the benchmark is. -/
def labelOf {P : Nat} (s : State P) : Event P → Option (Fin P × Label)
  | .client (.worker j ev) =>
    ((requestEvent s.clients.clock (s.clients.workers j) ev).bind clientLabel).map (Prod.mk j)
  | .client (.tick _) | .client .push | .client .stop => none
  | .handler j ev => (handlerLabel ev).map (Prod.mk j)

section

variable {running : Bool} {given : List PendingRequest} {clock : UInt64} {w w' : OpenLoop.Worker}

theorem shown_of_advance (cs : List Call) (h : WorkerInv cfg running given w) {req : PendingRequest}
    {dev : DoRequest.Event} (hp : w.phase = .inRequest req) (hdev : ∀ args now, dev ≠ .call args now)
    (hs : w.advance req clock dev = some w') :
    Shown w.client w'.client (cs.drop w.client.calls.length) (cs.drop w'.client.calls.length) (some dev) := by
  obtain ⟨now, hhdr⟩ := h.phase.inRequest hp
  obtain ⟨c, hc, rfl⟩ := Option.map_eq_some_iff.mp hs
  have hcalls : c.calls = w.client.calls := DoRequest.calls_inside hhdr (DoRequest.inside_of_step hhdr hc)
  have hclient : (if c.phase = .idle then
      { w with
        client := c
        phase := .returned req ((c.exchanges.getLast?.map DoRequest.Exchange.rtt).getD 0)
        returns := w.returns ++ [clock] }
      else { w with client := c } : OpenLoop.Worker).client = c := by
    split <;> rfl
  rw [hclient, hcalls]
  refine .inside dev hc (fun args now heq => absurd heq (hdev args now)) ?_
  cases dev with
  | call args now => exact absurd rfl (hdev args now)
  | send r | recv r | now t => rfl

theorem drop_calls (rest : List Call) (h : WorkerInv cfg running given w) {req : PendingRequest}
    (hp : w.phase = .popped req) : w.client.phase = .idle ∧ ∃ tail, (given.map PendingRequest.call ++ rest).drop w.client.calls.length =
      req.call :: tail := by
  have hidle := h.phase
  simp only [OpenLoopDelivery.PhaseOk, hp] at hidle
  obtain ⟨served, hgiven, hall⟩ := h.served
  have hlen : w.client.calls.length = (served.map PendingRequest.call).length := by
    simp [DoRequest.Client.calls, hidle, DoRequest.Phase.header, hall.length_eq]
  refine ⟨hidle, w.queue.map PendingRequest.call ++ rest, ?_⟩
  rw [hlen, hgiven, OpenLoopDelivery.held, hp]
  dsimp only
  rw [List.map_append, List.append_assoc, List.drop_left]
  rfl

theorem shown_of_step (rest : List Call) (h : WorkerInv cfg running given w) {ev : OpenLoop.WorkerEvent}
    (hw : w.step running clock ev = some w') :
    Shown w.client w'.client ((given.map PendingRequest.call ++ rest).drop w.client.calls.length)
      ((given.map PendingRequest.call ++ rest).drop w'.client.calls.length) (requestEvent clock w ev) := by
  cases ev with
  | test | pop | timeout | account =>
    have hclient : w'.client = w.client := by
      cases OpenLoopMoves.moved_of_step hw <;> simp_all [OpenLoop.Worker.step]
    exact .quiet hclient (by rw [hclient])
  | call =>
    cases hp : w.phase with
    | popped req =>
      obtain ⟨hidle, tail, htail⟩ := drop_calls rest h hp
      simp only [OpenLoop.Worker.step, hp, DoRequest.step, hidle, Option.map_some, Option.some.injEq] at hw
      subst hw
      simp only [requestEvent, hp]
      refine .inside _ (by simp only [DoRequest.step, hidle]) ?_ ?_
      · rintro args now heq
        cases heq
        rw [htail, List.head?_cons]
      · rw [DoRequest.calls_call hidle, List.length_append, List.length_singleton, ← List.tail_drop]
        rfl
    | testRunning | testSize | pop | inRequest req | returned req rtt | exited =>
      simp [OpenLoop.Worker.step, hp] at hw
  | send r | recv r | now =>
    cases hp : w.phase with
    | inRequest req =>
      simp only [OpenLoop.Worker.step, hp] at hw
      exact shown_of_advance _ h hp (by simp) hw
    | testRunning | testSize | pop | popped req | returned req rtt | exited =>
      simp [OpenLoop.Worker.step, hp] at hw

end

variable {s s' : State poolSize.toNat} {t : Sessions poolSize.toNat}

theorem ends_worker (j : Fin poolSize.toNat) (w : OpenLoop.Worker) (bytes : UInt64) :
    State.ends cfg gen policy poolSize
      { s with clients := { s.clients with workers := Function.update s.clients.workers j w, totalBytes := bytes } } =
    { s.ends cfg gen policy poolSize with
      client := Function.update (s.ends cfg gen policy poolSize).client j w.client
      todo := Function.update (s.ends cfg gen policy poolSize).todo j
        ((calls cfg gen policy poolSize j).drop w.client.calls.length) } := by
  simp only [State.ends, Ends.mk.injEq, and_true]
  constructor
  · funext k
    exact Function.apply_update (fun _ w => w.client) s.clients.workers j w k
  · funext k
    exact Function.apply_update (fun k w => (calls cfg gen policy poolSize k).drop w.client.calls.length)
      s.clients.workers j w k

theorem ends_push {c : OpenLoop.State poolSize.toNat} {j : Fin poolSize.toNat}
    (hp : OpenLoopMoves.Pushed cfg gen s.clients c j) :
    State.ends cfg gen policy poolSize { s with clients := c } = s.ends cfg gen policy poolSize := by
  have hclient (k : Fin poolSize.toNat) : (c.workers k).client = (s.clients.workers k).client := by
    rw [hp.eq]
    by_cases hk : k = j
    · subst hk
      simp only [Function.update_self]
    · simp only [Function.update_of_ne hk]
  simp only [State.ends, hclient]

theorem tracks_worker (hI : OpenLoopDelivery.Inv cfg gen s.clients) (hplan : Planned cfg gen policy poolSize s.clients)
    (h : Tracks (s.ends cfg gen policy poolSize) t) {j : Fin poolSize.toNat} {ev : OpenLoop.WorkerEvent}
    {w : OpenLoop.Worker} {bytes : UInt64} (hmay : s.clientMay (.worker j ev) = true)
    (hw : (s.clients.workers j).step s.clients.running s.clients.clock ev = some w) :
    ∃ u, Transition.run (Shared.step counting) t (labelOf s (.client (.worker j ev))).toList = some u ∧
      Tracks (State.ends cfg gen policy poolSize { s with
        clients := { s.clients with workers := Function.update s.clients.workers j w, totalBytes := bytes } }) u := by
  have hmay' : ∀ dev, requestEvent s.clients.clock (s.clients.workers j) ev = some dev →
      clientMay (s.toClient j) dev = true := by
    intro dev hdev
    cases ev with
    | test | pop | timeout | account => cases hdev
    | call =>
      cases hp : (s.clients.workers j).phase <;> simp only [requestEvent, hp, reduceCtorEq] at hdev
      cases hdev
      rfl
    | send r | recv r | now =>
      cases hdev
      exact hmay
  have hshown := shown_of_step (((assigned cfg gen (cfg.total.toNat - s.clients.i.toNat) s.clients.scheduler
    s.clients.i.toNat).filter (fun x => x.1 = (j : Nat))).map (fun x => x.2.call)) (hI.workers j) hw
  rw [← calls_eq hplan j] at hshown
  rw [ends_worker]
  exact h.shown_step hmay' hshown

structure Inv (cfg : WorkloadConfig) (gen : Nat → Turn) (policy : SchedulingPolicy) (poolSize : UInt32)
    (s : State poolSize.toNat) : Prop where
  delivery : OpenLoopDelivery.Inv cfg gen s.clients
  planned : Planned cfg gen policy poolSize s.clients

theorem inv_step {e : Event poolSize.toNat} (h : Inv cfg gen policy poolSize s) (hs : step cfg gen s e = some s') :
    Inv cfg gen policy poolSize s' := by
  cases e with
  | handler j ev =>
    simp only [step, Option.ite_none_right_eq_some] at hs
    obtain ⟨hd, -, rfl⟩ := Option.map_eq_some_iff.mp hs.2
    exact ⟨h.delivery, h.planned⟩
  | client ev =>
    simp only [step, Option.ite_none_right_eq_some] at hs
    obtain ⟨c, hc, rfl⟩ := Option.map_eq_some_iff.mp hs.2
    exact ⟨OpenLoopDelivery.inv_step h.delivery hc, planned_step h.planned hc⟩

theorem tracks_step {e : Event poolSize.toNat} (hI : Inv cfg gen policy poolSize s)
    (h : Tracks (s.ends cfg gen policy poolSize) t) (hs : step cfg gen s e = some s') :
    ∃ u, Transition.run (Shared.step counting) t (labelOf s e).toList = some u ∧
      Tracks (s'.ends cfg gen policy poolSize) u := by
  cases e with
  | handler j ev =>
    simp only [step, Option.ite_none_right_eq_some] at hs
    obtain ⟨hmay, hs⟩ := hs
    obtain ⟨hd, hw, rfl⟩ := Option.map_eq_some_iff.mp hs
    exact h.handler_step hmay hw
  | client ev =>
    simp only [step, Option.ite_none_right_eq_some] at hs
    obtain ⟨hmay, hs⟩ := hs
    obtain ⟨c, hc, rfl⟩ := Option.map_eq_some_iff.mp hs
    cases ev with
    | tick now =>
      obtain ⟨-, heq⟩ := Option.ite_none_right_eq_some.mp hc
      cases heq
      exact ⟨t, rfl, h⟩
    | push =>
      obtain ⟨j, hp⟩ := OpenLoopMoves.pushed_of_step hc
      rw [ends_push hp]
      exact ⟨t, rfl, h⟩
    | stop =>
      obtain ⟨-, heq⟩ := Option.ite_none_right_eq_some.mp hc
      cases heq
      exact ⟨t, rfl, h⟩
    | worker j ev =>
      obtain ⟨w, hw, rfl⟩ := Option.map_eq_some_iff.mp hc
      exact tracks_worker hI.delivery hI.planned h hmay hw

section

variable (cfg : WorkloadConfig) (gen : Nat → Turn) (clock : UInt64) (policy : SchedulingPolicy) (poolSize : UInt32)
  (stack stack' : Fin poolSize.toNat → Fin headerSize → UInt8) (sendBuf recvBuf : Fin poolSize.toNat → List UInt8)
  (serverStack : Fin poolSize.toNat → Fin headerSize → UInt8) (rc bc : UInt64)

theorem inv_start : Inv cfg gen policy poolSize
    (start clock policy poolSize stack stack' sendBuf recvBuf serverStack rc bc) where
  delivery := OpenLoopDelivery.inv_start cfg gen clock policy poolSize stack stack' sendBuf recvBuf
  planned := rfl

theorem tracks_start : Tracks
    ((start clock policy poolSize stack stack' sendBuf recvBuf serverStack rc bc).ends cfg gen policy poolSize)
    (ConnectionEcho.freshSessions (calls cfg gen policy poolSize) stack stack' sendBuf recvBuf serverStack rc bc) where
  counters := rfl
  client _ := rfl
  todo _ := rfl
  server _ _ _ := rfl

end

end DcBench.OpenLoopBenchmark

import DcBench.ClosedLoopBooks
import DcBench.ConnectionEcho

namespace DcBench.ClosedLoopBenchmark

open DcBench.Lib DcBench.Message DcBench.ExactTransfer DcBench.Workload DcBench.Connections
open DcBench.DoRequest (Call)
open DcBench.EchoSession (Label)

/-- `run_closed_loop` and the `TcpServer` it is connected to. Worker `j` and
handler `j` are the two ends of connection `j`. -/
structure State (P : Nat) where
  clients : ClosedLoop.State P
  handlers : Fin P → TcpServer.Handler
  requestCount : UInt64
  byteCount : UInt64

inductive Event (P : Nat)
  | client (ev : ClosedLoop.Event P)
  | handler (j : Fin P) (ev : TcpServer.Event)

section

variable {P : Nat} (s : State P)

def State.toServer (j : Fin P) : List UInt8 :=
  (s.clients.workers j).client.sent.drop (s.handlers j).traffic.received.length

def State.toClient (j : Fin P) : List UInt8 :=
  (s.handlers j).traffic.sent.drop (s.clients.workers j).client.received.length

end

def State.clientMay {P : Nat} (s : State P) : ClosedLoop.Event P → Bool
  | .worker j (.recv r) => delivers (s.toClient j) r
  | .worker _ (.send r) => transmits r
  | _ => true

def step (cfg : WorkloadConfig) (poolSize : UInt32) (sizes : Fin poolSize.toNat → Nat → UInt32)
    (s : State poolSize.toNat) : Event poolSize.toNat → Option (State poolSize.toNat)
  | .client ev =>
    if s.clientMay ev then (ClosedLoop.step cfg poolSize sizes s.clients ev).map (fun c => { s with clients := c })
    else none
  | .handler j ev =>
    if handlerMay (s.toServer j) ev then
      (TcpServer.step (ServerSystem.load s.requestCount s.byteCount (s.handlers j)) ev).map (fun h =>
        { s with
          handlers := Function.update s.handlers j h
          requestCount := h.traffic.requestCount
          byteCount := h.traffic.byteCount })
    else none

/-- The connections have been made. The server's counters may hold what earlier
clients have left in them. -/
def start (clock : UInt64) (poolSize : UInt32) (stack stack' : Fin poolSize.toNat → Fin headerSize → UInt8)
    (sendBuf recvBuf : Fin poolSize.toNat → List UInt8) (serverStack : Fin poolSize.toNat → Fin headerSize → UInt8)
    (requestCount byteCount : UInt64) : State poolSize.toNat where
  clients := ClosedLoop.start clock poolSize stack stack' sendBuf recvBuf
  handlers j := TcpServer.start (serverStack j) [] 0 0
  requestCount := requestCount
  byteCount := byteCount

def calls (cfg : WorkloadConfig) (poolSize : UInt32) (sizes : Fin poolSize.toNat → Nat → UInt32)
    (j : Fin poolSize.toNat) : List Call :=
  (List.range (cfg.warmup poolSize + cfg.count poolSize (UInt32.ofNat j)).toNat).map (ClosedLoopBooks.call (sizes j))

def requestEvent (limit : UInt32) (gen : Nat → UInt32) (clock : UInt64) (w : ClosedLoop.Worker) :
    ClosedLoop.WorkerEvent → Option DoRequest.Event
  | .next =>
    if w.i < limit then some (.call (ClosedLoopBooks.call gen w.i.toNat) clock) else none
  | .send r => some (.send r)
  | .recv r => some (.recv r)
  | .now => some (.now clock)
  | .account => none

def State.ends (cfg : WorkloadConfig) (poolSize : UInt32) (sizes : Fin poolSize.toNat → Nat → UInt32)
    (s : State poolSize.toNat) : Ends poolSize.toNat where
  client j := (s.clients.workers j).client
  todo j := (calls cfg poolSize sizes j).drop (ClosedLoopBooks.issued (s.clients.workers j))
  handler := s.handlers
  requestCount := s.requestCount
  byteCount := s.byteCount

/-- The system call of a session that an event of the benchmark is. -/
def labelOf (cfg : WorkloadConfig) (poolSize : UInt32) (sizes : Fin poolSize.toNat → Nat → UInt32)
    (s : State poolSize.toNat) : Event poolSize.toNat → Option (Fin poolSize.toNat × Label)
  | .client (.tick _) => none
  | .client (.worker j ev) =>
    ((requestEvent (cfg.warmup poolSize + cfg.count poolSize (UInt32.ofNat j)) (sizes j) s.clients.clock
      (s.clients.workers j) ev).bind clientLabel).map (Prod.mk j)
  | .handler j ev => (handlerLabel ev).map (Prod.mk j)

variable {cfg : WorkloadConfig} {poolSize : UInt32} {sizes : Fin poolSize.toNat → Nat → UInt32}
  {s s' : State poolSize.toNat} {t : Sessions poolSize.toNat}

theorem advance_some {w w' : ClosedLoop.Worker} {size : UInt32} {dev : DoRequest.Event} (hp : w.phase = .inRequest size)
    (h : w.advance size dev = some w') : DoRequest.step w.client dev = some w'.client ∧
      ClosedLoopBooks.issued w' = ClosedLoopBooks.issued w := by
  obtain ⟨c, hc, rfl⟩ := Option.map_eq_some_iff.mp h
  by_cases hidle : c.phase = .idle
  · rw [if_pos hidle]
    exact ⟨hc, by simp only [ClosedLoopBooks.issued, hp]⟩
  · rw [if_neg hidle]
    exact ⟨hc, by simp only [ClosedLoopBooks.issued, hp]⟩

theorem drop_calls {j : Fin poolSize.toNat} {i : UInt32}
    (h : i < cfg.warmup poolSize + cfg.count poolSize (UInt32.ofNat j)) :
    (calls cfg poolSize sizes j).drop i.toNat =
      ClosedLoopBooks.call (sizes j) i.toNat :: (calls cfg poolSize sizes j).drop (i.toNat + 1) := by
  have hlt : i.toNat < (calls cfg poolSize sizes j).length := by
    rw [calls, List.length_map, List.length_range]
    exact UInt32.lt_iff_toNat_lt.mp h
  rw [List.drop_eq_getElem_cons hlt]
  congr 1
  simp only [calls, List.getElem_map, List.getElem_range]

theorem shown_of_advance (cs : List Call) {w w' : ClosedLoop.Worker} {size : UInt32} {dev : DoRequest.Event}
    (hp : w.phase = .inRequest size) (hdev : ∀ args now, dev ≠ .call args now) (h : w.advance size dev = some w') :
    Shown w.client w'.client (cs.drop (ClosedLoopBooks.issued w)) (cs.drop (ClosedLoopBooks.issued w')) (some dev) := by
  obtain ⟨hc, hissued⟩ := advance_some hp h
  refine .inside dev hc (fun args now heq => absurd heq (hdev args now)) ?_
  rw [hissued]
  cases dev with
  | call args now => exact absurd rfl (hdev args now)
  | send r | recv r | now t => rfl

theorem shown_of_step {j : Fin poolSize.toNat} {w w' : ClosedLoop.Worker} {clock : UInt64} {ev : ClosedLoop.WorkerEvent}
    (hI : ClosedLoopBooks.WorkerInv (cfg.warmup poolSize) (cfg.count poolSize (UInt32.ofNat j)) (sizes j) w)
    (hw : w.step (cfg.warmup poolSize) (cfg.count poolSize (UInt32.ofNat j)) (sizes j) clock ev = some w') :
    Shown w.client w'.client ((calls cfg poolSize sizes j).drop (ClosedLoopBooks.issued w))
      ((calls cfg poolSize sizes j).drop (ClosedLoopBooks.issued w'))
      (requestEvent (cfg.warmup poolSize + cfg.count poolSize (UInt32.ofNat j)) (sizes j) clock w ev) := by
  cases ev with
  | next =>
    cases hp : w.phase with
    | test =>
      simp only [ClosedLoop.Worker.step, hp] at hw
      by_cases hlt : w.i < cfg.warmup poolSize + cfg.count poolSize (UInt32.ofNat j)
      · rw [if_pos hlt] at hw
        obtain ⟨c, hc, rfl⟩ := Option.map_eq_some_iff.mp hw
        have hcall : (⟨w.i.toUInt64, sizes j w.i.toNat, priorityForSize (sizes j w.i.toNat)⟩ : Call) =
            ClosedLoopBooks.call (sizes j) w.i.toNat := by
          rw [ClosedLoopBooks.call, UInt64.ofNat_uInt32ToNat]
        rw [hcall] at hc
        have hissued : ClosedLoopBooks.issued w = w.i.toNat := by simp only [ClosedLoopBooks.issued, hp]
        rw [requestEvent, if_pos hlt]
        refine .inside _ hc ?_ ?_
        · rintro args now heq
          cases heq
          rw [hissued, drop_calls hlt, List.head?_cons]
        · rw [hissued, drop_calls hlt]
          rfl
      · rw [if_neg hlt, Option.some.injEq] at hw
        subst hw
        rw [requestEvent, if_neg hlt]
        exact .quiet rfl (by simp only [ClosedLoopBooks.issued, hp])
    | inRequest size | returned size rtt | exited => simp [ClosedLoop.Worker.step, hp] at hw
  | send r | recv r | now =>
    cases hp : w.phase with
    | inRequest size =>
      simp only [ClosedLoop.Worker.step, hp] at hw
      exact shown_of_advance _ hp (by simp) hw
    | test | returned size rtt | exited => simp [ClosedLoop.Worker.step, hp] at hw
  | account =>
    cases hp : w.phase with
    | returned size rtt =>
      simp only [ClosedLoop.Worker.step, hp, Option.some.injEq] at hw
      subst hw
      obtain ⟨-, hlt, -⟩ := hI.returned hp
      refine .quiet rfl ?_
      simp only [ClosedLoopBooks.issued, hp, Workload.toNat_succ_of_lt hlt]
    | test | inRequest size | exited => simp [ClosedLoop.Worker.step, hp] at hw

theorem ends_worker (j : Fin poolSize.toNat) (w : ClosedLoop.Worker) (bytes : UInt64) :
    State.ends cfg poolSize sizes
      { s with clients := { s.clients with workers := Function.update s.clients.workers j w, totalBytes := bytes } } =
    { s.ends cfg poolSize sizes with
      client := Function.update (s.ends cfg poolSize sizes).client j w.client
      todo := Function.update (s.ends cfg poolSize sizes).todo j
        ((calls cfg poolSize sizes j).drop (ClosedLoopBooks.issued w)) } := by
  simp only [State.ends, Ends.mk.injEq, and_true]
  constructor
  · funext k
    exact Function.apply_update (fun _ w => w.client) s.clients.workers j w k
  · funext k
    exact Function.apply_update (fun k w => (calls cfg poolSize sizes k).drop (ClosedLoopBooks.issued w))
      s.clients.workers j w k

theorem tracks_worker (hI : ClosedLoopBooks.Inv cfg poolSize sizes s.clients)
    (h : Tracks (s.ends cfg poolSize sizes) t) {j : Fin poolSize.toNat} {ev : ClosedLoop.WorkerEvent}
    {w : ClosedLoop.Worker} {bytes : UInt64} (hmay : s.clientMay (.worker j ev) = true)
    (hw : (s.clients.workers j).step (cfg.warmup poolSize) (cfg.count poolSize (UInt32.ofNat j)) (sizes j)
      s.clients.clock ev = some w) :
    ∃ u, Transition.run (Shared.step counting) t
        (labelOf cfg poolSize sizes s (.client (.worker j ev))).toList = some u ∧
      Tracks (State.ends cfg poolSize sizes { s with
        clients := { s.clients with workers := Function.update s.clients.workers j w, totalBytes := bytes } }) u := by
  have hmay' : ∀ dev, requestEvent (cfg.warmup poolSize + cfg.count poolSize (UInt32.ofNat j)) (sizes j)
      s.clients.clock (s.clients.workers j) ev = some dev → clientMay (s.toClient j) dev = true := by
    intro dev hdev
    cases ev with
    | next =>
      obtain ⟨-, heq⟩ := Option.ite_none_right_eq_some.mp hdev
      cases heq
      rfl
    | send r | recv r | now =>
      cases hdev
      exact hmay
    | account => cases hdev
  rw [ends_worker]
  exact h.shown_step hmay' (shown_of_step (hI.workers j) hw)

theorem tracks_step {e : Event poolSize.toNat} (hI : ClosedLoopBooks.Inv cfg poolSize sizes s.clients)
    (h : Tracks (s.ends cfg poolSize sizes) t) (hs : step cfg poolSize sizes s e = some s') :
    ∃ u, Transition.run (Shared.step counting) t (labelOf cfg poolSize sizes s e).toList = some u ∧
      ClosedLoopBooks.Inv cfg poolSize sizes s'.clients ∧ Tracks (s'.ends cfg poolSize sizes) u := by
  cases e with
  | handler j ev =>
    simp only [step, Option.ite_none_right_eq_some] at hs
    obtain ⟨hmay, hs⟩ := hs
    obtain ⟨hd, hw, rfl⟩ := Option.map_eq_some_iff.mp hs
    obtain ⟨u, hu, ht⟩ := h.handler_step hmay hw
    exact ⟨u, hu, hI, ht⟩
  | client ev =>
    simp only [step, Option.ite_none_right_eq_some] at hs
    obtain ⟨hmay, hs⟩ := hs
    obtain ⟨c, hc, rfl⟩ := Option.map_eq_some_iff.mp hs
    have hI' := ClosedLoopBooks.inv_step hI hc
    cases ev with
    | tick now =>
      obtain ⟨-, heq⟩ := Option.ite_none_right_eq_some.mp hc
      cases heq
      exact ⟨t, rfl, hI', h⟩
    | worker j ev =>
      obtain ⟨w, hw, rfl⟩ := Option.map_eq_some_iff.mp hc
      obtain ⟨u, hu, ht⟩ := tracks_worker hI h hmay hw
      exact ⟨u, hu, hI', ht⟩

theorem tracks_start (cfg : WorkloadConfig) (poolSize : UInt32) (sizes : Fin poolSize.toNat → Nat → UInt32)
    (clock : UInt64) (stack stack' : Fin poolSize.toNat → Fin headerSize → UInt8)
    (sendBuf recvBuf : Fin poolSize.toNat → List UInt8) (serverStack : Fin poolSize.toNat → Fin headerSize → UInt8)
    (rc bc : UInt64) :
    Tracks ((start clock poolSize stack stack' sendBuf recvBuf serverStack rc bc).ends cfg poolSize sizes)
      (ConnectionEcho.freshSessions (calls cfg poolSize sizes) stack stack' sendBuf recvBuf serverStack rc bc) where
  counters := rfl
  client _ := rfl
  todo _ := rfl
  server _ _ _ := rfl

end DcBench.ClosedLoopBenchmark

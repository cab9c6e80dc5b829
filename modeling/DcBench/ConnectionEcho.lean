import DcBench.Connections
import DcBench.ServerTotals
import Mathlib.Algebra.Order.BigOperators.Group.Finset

namespace DcBench.ConnectionEcho

open DcBench.Lib DcBench.Message DcBench.ExactTransfer DcBench.Connections
open DcBench.DoRequest (Call)
open DcBench.EchoSession (Session Label)
open DcBench.SessionExchange (cost Echoed)

variable {P : Nat}

/-- The sessions of connections that have just been made, for the calls
`calls`. The server's counters may hold what earlier clients have left in them. -/
def freshSessions (calls : Fin P → List Call) (stack stack' : Fin P → Fin headerSize → UInt8)
    (sendBuf recvBuf : Fin P → List UInt8) (serverStack : Fin P → Fin headerSize → UInt8)
    (requestCount byteCount : UInt64) : Sessions P :=
  (fun j => EchoSession.start (stack j) (stack' j) (sendBuf j) (recvBuf j) (serverStack j) [] 0 0 (calls j),
    requestCount, byteCount)

/-- What the connections have done, each taken by itself. -/
structure Split (calls : Fin P → List Call) (rc bc : UInt64) (e : Ends P) (left : Nat) (q : Fin P → Session) : Prop where
  client : ∀ j, (q j).client = e.client j
  todo : ∀ j, (q j).todo = e.todo j
  server : ∀ j, ∃ a, ServerSystem.load e.requestCount e.byteCount (e.handler j) = ServerSystem.shift a (q j).server
  inv : ∃ m : Fin P → Nat, ∑ j, m j ≤ left ∧ ∀ j, SessionExchange.Inv 0 0 (calls j) (m j) (q j)
  requestCount : e.requestCount = rc + ∑ j, (q j).server.traffic.requestCount
  byteCount : e.byteCount = bc + ∑ j, (q j).server.traffic.byteCount

variable {calls : Fin P → List Call} {rc bc : UInt64} {e : Ends P} {left : Nat} {q : Fin P → Session} {j : Fin P}

theorem split_of_run {stack stack' : Fin P → Fin headerSize → UInt8} {sendBuf recvBuf : Fin P → List UInt8}
    {serverStack : Fin P → Fin headerSize → UInt8} {ls : List (Fin P × Label)} {t : Sessions P}
    (hmax : ∀ j, ∀ a ∈ calls j, a.size.toNat ≤ maxPayloadSize)
    (hr : Transition.run (Shared.step counting)
      (freshSessions calls stack stack' sendBuf recvBuf serverStack rc bc) ls = some t) (h : Tracks e t) :
    ∃ left q, Split calls rc bc e left q ∧ ls.length + left = ∑ j, (cost (calls j) + 1) := by
  obtain ⟨q, hrun, heq, htotal⟩ := Shared.alone_of_run hr
  have hinv (j : Fin P) := SessionEcho.inv_run (hmax j)
    (SessionEcho.inv_start (stack j) (stack' j) (sendBuf j) (recvBuf j) (serverStack j) [] 0 0 (calls j)) (hrun j)
  choose m hm hinv using hinv
  have hlen : ls.length + ∑ j, m j ≤ ∑ j, (cost (calls j) + 1) := by
    rw [← Shared.sum_length_eventsOf, Nat.add_comm, ← Finset.sum_add_distrib]
    exact Finset.sum_le_sum (fun j _ => hm j)
  have hall := htotal Finset.univ (fun _ _ => Finset.mem_univ _)
  rw [h.counters] at hall
  refine ⟨∑ j, (cost (calls j) + 1) - ls.length, q, ⟨?_, ?_, ?_, ⟨m, by omega, hinv⟩, ?_, ?_⟩, by omega⟩
  · intro j
    obtain ⟨a, ha⟩ := heq j
    rw [← h.client j, ha]
    rfl
  · intro j
    obtain ⟨a, ha⟩ := heq j
    rw [← h.todo j, ha]
    rfl
  · intro j
    obtain ⟨a, ha⟩ := heq j
    rw [← h.server j, ha, ← ServerSystem.shift_sub (e.requestCount, e.byteCount)]
    exact ⟨_, ServerSystem.shift_shift _ _ _⟩
  · have hfst := congrArg Prod.fst hall
    simpa [counting, freshSessions, EchoSession.start, TcpServer.start, Prod.fst_sum] using hfst
  · have hsnd := congrArg Prod.snd hall
    simpa [counting, freshSessions, EchoSession.start, TcpServer.start, Prod.snd_sum] using hsnd

theorem Split.toClient (h : Split calls rc bc e left q) (j : Fin P) : (q j).toClient = e.toClient j := by
  obtain ⟨a, ha⟩ := h.server j
  have hsent := congrArg (fun h => h.traffic.sent) ha
  dsimp only [ServerSystem.load, ServerSystem.shift] at hsent
  rw [Session.toClient, Ends.toClient, hsent, h.client j]

theorem Split.toServer (h : Split calls rc bc e left q) (j : Fin P) : (q j).toServer = e.toServer j := by
  obtain ⟨a, ha⟩ := h.server j
  have hreceived := congrArg (fun h => h.traffic.received) ha
  dsimp only [ServerSystem.load, ServerSystem.shift] at hreceived
  rw [Session.toServer, Ends.toServer, hreceived, h.client j]

/-- One of the two ends of a connection can go on inside a call. -/
inductive GoesOn (e : Ends P) (j : Fin P) (now : UInt64) : Prop
  | send (r : SendResult) (hr : transmits r = true) (hs : (DoRequest.step (e.client j) (.send r)).isSome = true)
  | recv (r : RecvResult) (hr : delivers (e.toClient j) r = true)
      (hs : (DoRequest.step (e.client j) (.recv r)).isSome = true)
  | now (hs : (DoRequest.step (e.client j) (.now now)).isSome = true)
  | handler (ev : TcpServer.Event) (hev : handlerMay (e.toServer j) ev = true)
      (hs : (TcpServer.step (ServerSystem.load e.requestCount e.byteCount (e.handler j)) ev).isSome = true)

theorem Split.onClient (h : Split calls rc bc e left q) {ev : DoRequest.Event}
    (hq : ((q j).onClient ev).isSome = true) : (DoRequest.step (e.client j) ev).isSome = true := by
  rw [Session.onClient, Option.isSome_map, h.client j] at hq
  exact hq

theorem Split.onServer (h : Split calls rc bc e left q) {ev : TcpServer.Event}
    (hq : ((q j).onServer ev).isSome = true) :
    (TcpServer.step (ServerSystem.load e.requestCount e.byteCount (e.handler j)) ev).isSome = true := by
  obtain ⟨a, ha⟩ := h.server j
  rw [Session.onServer, Option.isSome_map] at hq
  rw [ha, ServerSystem.step_shift, Option.isSome_map]
  exact hq

theorem Split.goesOn_of_session (h : Split calls rc bc e left q) (hbusy : (e.client j).phase ≠ .idle) (now : UInt64)
    {l : Label} (hl : (EchoSession.step (q j) l).isSome = true) : GoesOn e j now := by
  cases l with
  | call t =>
    cases htodo : (q j).todo with
    | nil => simp [EchoSession.step, htodo] at hl
    | cons args rest =>
      simp only [EchoSession.step, htodo, Session.onClient, Option.isSome_map, h.client j] at hl
      cases hc : (e.client j).phase <;> simp [DoRequest.step, hc] at hl
      exact absurd hc hbusy
  | clientSend n => exact .send (.sent n) rfl (h.onClient hl)
  | clientRecv n =>
    simp only [EchoSession.step] at hl
    split at hl
    · rw [h.toClient j] at hl
      exact .recv _ (delivers_take _ n) (h.onClient hl)
    · cases hl
  | clientNow t =>
    refine .now (h.onClient ?_)
    simp only [EchoSession.step, Session.onClient, Option.isSome_map] at hl ⊢
    cases hc : (q j).client.phase <;> simp [DoRequest.step, hc] at hl ⊢
  | serverTest => exact .handler (.running true) rfl (h.onServer hl)
  | serverRecv n =>
    simp only [EchoSession.step] at hl
    split at hl
    · rw [h.toServer j] at hl
      exact .handler (.recv (.data ((e.toServer j).take n))) (delivers_take _ n) (h.onServer hl)
    · cases hl
  | serverSend n => exact .handler (.send (.sent n)) rfl (h.onServer hl)

theorem Split.goesOn (h : Split calls rc bc e left q) (hbusy : (e.client j).phase ≠ .idle) (now : UInt64) :
    GoesOn e j now := by
  obtain ⟨m, -, hinv⟩ := h.inv
  have hstuck : ¬ SessionEcho.Stuck (q j) := by
    cases hinv j with
    | between hb => exact absurd ((h.client j) ▸ hb.client) hbusy
    | during r t₀ cs cr sr ss tests hd => exact SessionEcho.during_not_stuck hd
  simp only [SessionEcho.Stuck, not_forall] at hstuck
  obtain ⟨l, hl⟩ := hstuck
  exact h.goesOn_of_session hbusy now (Option.isSome_iff_ne_none.mpr hl)

theorem Split.echoed (h : Split calls rc bc e left q) (j : Fin P) :
    ∃ done rest, calls j = done ++ rest ∧ List.Forall₂ Echoed done (e.client j).exchanges := by
  obtain ⟨m, -, hinv⟩ := h.inv
  rw [← h.client j]
  cases hinv j with
  | between hb =>
    obtain ⟨done, hcalls, hgood, -⟩ := SessionEcho.atRest_of_between hb
    exact ⟨done, _, hcalls, hgood⟩
  | during r t₀ cs cr sr ss tests hd =>
    obtain ⟨done, args, now, hcalls, -, hset⟩ := hd.settled
    exact ⟨done, _, hcalls, hset.good⟩

theorem Split.atRest (h : Split calls rc bc e left q) (hidle : (e.client j).phase = .idle) (htodo : e.todo j = []) :
    List.Forall₂ Echoed (calls j) (e.client j).exchanges ∧ SessionEcho.AtRest 0 0 (calls j) (q j) := by
  obtain ⟨m, -, hinv⟩ := h.inv
  cases hinv j with
  | during r t₀ cs cr sr ss tests hd =>
    obtain ⟨-, -, -, hbusy⟩ := SessionExchange.at_bounds hd.client
    rw [h.client j] at hbusy
    exact absurd hidle hbusy
  | between hb =>
    obtain ⟨done, hcalls, hgood, hrest⟩ := SessionEcho.atRest_of_between hb
    rw [h.todo j, htodo, List.append_nil] at hcalls
    rw [hcalls, ← h.client j]
    exact ⟨hgood, hrest⟩

/-- All calls have returned: nothing is in flight, and the server has counted
each call once. -/
structure AllEchoed (calls : Fin P → List Call) (rc bc : UInt64) (e : Ends P) : Prop where
  echoed : ∀ j, List.Forall₂ Echoed (calls j) (e.client j).exchanges
  toServer : ∀ j, e.toServer j = []
  toClient : ∀ j, e.toClient j = []
  requestCount : e.requestCount = rc + UInt64.ofNat (∑ j, (calls j).length)
  byteCount : e.byteCount = bc + UInt64.ofNat (∑ j, ((calls j).map (fun a => headerSize + a.size.toNat)).sum)

theorem Split.allEchoed (h : Split calls rc bc e left q) (hidle : ∀ j, (e.client j).phase = .idle)
    (htodo : ∀ j, e.todo j = []) : AllEchoed calls rc bc e where
  echoed j := (h.atRest (hidle j) (htodo j)).1
  toServer j := (h.toServer j) ▸ (h.atRest (hidle j) (htodo j)).2.toServer
  toClient j := (h.toClient j) ▸ (h.atRest (hidle j) (htodo j)).2.toClient
  requestCount := by
    rw [h.requestCount, ← ServerTotals.sum_ofNat]
    congr 1
    refine Finset.sum_congr rfl (fun j _ => ?_)
    rw [(h.atRest (hidle j) (htodo j)).2.requestCount]
    exact zero_add _
  byteCount := by
    rw [h.byteCount, ← ServerTotals.sum_ofNat]
    congr 1
    refine Finset.sum_congr rfl (fun j _ => ?_)
    rw [(h.atRest (hidle j) (htodo j)).2.byteCount]
    exact zero_add _

end DcBench.ConnectionEcho

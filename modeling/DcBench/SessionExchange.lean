import DcBench.EchoSession
import DcBench.ClientExchange
import DcBench.ServerExchange
import Mathlib.Data.List.Forall2
import Mathlib.Data.UInt

namespace DcBench.SessionExchange

open DcBench.Lib DcBench.Message DcBench.EchoMachine DcBench.RequestStream
open DcBench.DoRequest DcBench.ClientExchange DcBench.ServerExchange DcBench.EchoSession

/-- What a finished call must have read back: its own header as a response,
and its own payload. -/
def Echoed (args : Call) (x : Exchange) : Prop :=
  ∃ now, x.request = args.header now ∧ x.payload.length = args.size.toNat ∧
    x.answer = some ({ x.request with type := response }, x.payload)

def exchangeWire (x : Exchange) : List UInt8 := serializeHeader x.request ++ x.payload

def frameBytes (args : Call) : UInt64 := 22 + args.size.toUInt64

/-- How many system calls the calls still to be issued can take. -/
def cost (rest : List Call) : Nat := (rest.map (fun a => 4 * (headerSize + a.size.toNat) + 3)).sum

/-- The exchanges `done` are over and their bytes are the whole traffic `t`. -/
structure Settled (rc bc : UInt64) (done : List Call) (xs : List Exchange) (out : List UInt8)
    (t : TcpServer.Traffic) : Prop where
  good : List.Forall₂ Echoed done xs
  sent : out = xs.flatMap exchangeWire
  received : t.received = out
  requestCount : t.requestCount = rc + UInt64.ofNat done.length
  byteCount : t.byteCount = bc + (done.map frameBytes).sum

/-- Between two calls, or before the first or after the last one. Nothing is in
flight and the server waits at a message boundary. -/
structure Between (rc bc : UInt64) (calls : List Call) (m : Nat) (s : Session) : Prop where
  settled : ∃ done, calls = done ++ s.todo ∧
    Settled rc bc done s.client.exchanges s.client.sent s.server.traffic
  received : s.client.received = s.server.traffic.sent
  client : s.client.phase = .idle
  clientWf : ClientExchange.Wf s.client
  serverWf : ServerRefinement.Wf s.server
  server : ((ServerRefinement.view s.server).phase = .idle ∧ m = cost s.todo + 1) ∨
    ((ServerRefinement.view s.server).phase = .reading [] ∧ m = cost s.todo)

/-- Inside the call that sends `r`: `cs` and `cr` are the client's positions in
the request and in the reply, `sr` and `ss` the server's. -/
structure During (rc bc : UInt64) (calls : List Call) (m : Nat) (s : Session) (r : Request)
    (t₀ : TcpServer.Traffic) (cs cr sr ss tests : Nat) : Prop where
  settled : ∃ done args now, calls = done ++ args :: s.todo ∧ r.header = args.header now ∧
    Settled rc bc done s.client.exchanges t₀.received t₀
  clientWf : ClientExchange.Wf s.client
  serverWf : ServerRefinement.Wf s.server
  client : At r cs cr s.client
  server : Serving r t₀ sr ss tests (ServerRefinement.view s.server)
  sent : s.client.sent = t₀.received ++ r.wire.take cs
  received : s.client.received = t₀.sent ++ (answer r.wire).take cr
  request : sr ≤ cs
  reply : cr ≤ ss
  measure : m + (cs + sr + ss + cr) = 4 * (headerSize + r.payload.length) + 1 + tests + cost s.todo

/-- The lock step of client and server, with a bound `m` on the system calls
that are left. -/
inductive Inv (rc bc : UInt64) (calls : List Call) (m : Nat) (s : Session) : Prop
  | between (h : Between rc bc calls m s) : Inv rc bc calls m s
  | during (r : Request) (t₀ : TcpServer.Traffic) (cs cr sr ss tests : Nat)
      (h : During rc bc calls m s r t₀ cs cr sr ss tests) : Inv rc bc calls m s

theorem at_bounds {r : Request} {cs cr : Nat} {c : Client} (h : At r cs cr c) :
    cs ≤ headerSize + r.payload.length ∧ cr ≤ headerSize + r.payload.length ∧
      (cr = 0 ∨ cs = headerSize + r.payload.length) ∧ c.phase ≠ .idle := by
  cases h with
  | sendHeader _ _ hn hp _ _ => exact ⟨by omega, by omega, .inl rfl, by simp [hp]⟩
  | sendPayload _ n hn hp _ => exact ⟨by omega, by omega, .inl rfl, by simp [hp]⟩
  | recvHeader _ _ hn hp _ _ => exact ⟨le_rfl, by omega, .inr rfl, by simp [hp]⟩
  | recvPayload _ n hn hp _ _ _ => exact ⟨le_rfl, by omega, .inr rfl, by simp [hp]⟩
  | stamp _ hp _ _ => exact ⟨le_rfl, le_rfl, .inr rfl, by simp [hp]⟩

theorem serving_bounds {r : Request} {t₀ : TcpServer.Traffic} {sr ss tests : Nat} {e : Echo}
    (h : Serving r t₀ sr ss tests e) :
    sr ≤ headerSize + r.payload.length ∧ ss ≤ headerSize + r.payload.length ∧
      (ss = 0 ∨ sr = headerSize + r.payload.length) ∧
      e.traffic.received = t₀.received ++ r.wire.take sr ∧
      e.traffic.sent = t₀.sent ++ (answer r.wire).take ss := by
  have hw : r.wire.take (headerSize + r.payload.length) = r.wire := by
    rw [← length_wire, List.take_length]
  cases h with
  | waiting t h => exact ⟨by omega, by omega, .inl rfl, h.received, by simp [h.sent]⟩
  | reading _ t hn h => exact ⟨by omega, by omega, .inl rfl, h.received, by simp [h.sent]⟩
  | replying _ t hk h => exact ⟨le_rfl, by omega, .inr rfl, by rw [hw]; exact h.received, h.sent⟩
  | answered t h | next t h => exact ⟨le_rfl, le_rfl, .inr rfl, by rw [hw]; exact h.received, h.sent⟩

theorem onClient_some {s s' : Session} {ev : DoRequest.Event} (h : s.onClient ev = some s') :
    ∃ c, DoRequest.step s.client ev = some c ∧ s' = { s with client := c } := by
  obtain ⟨c, hc, rfl⟩ := Option.map_eq_some_iff.mp h
  exact ⟨c, hc, rfl⟩

theorem onServer_some {s s' : Session} {ev : TcpServer.Event} (h : s.onServer ev = some s')
    (hw : ServerRefinement.Wf s.server) :
    ∃ h, s' = { s with server := h } ∧ ServerRefinement.Wf h ∧
      Move (ServerRefinement.view s.server) ev (ServerRefinement.view h) := by
  obtain ⟨h', hh, rfl⟩ := Option.map_eq_some_iff.mp h
  obtain ⟨hwf, hview⟩ := ServerRefinement.step_spec s.server hw ev
  rw [hh] at hview
  exact ⟨h', rfl, hwf h' hh, move_of_step hview.symm⟩

variable {rc bc : UInt64} {calls : List Call} {m cs cr sr ss tests : Nat} {s s' : Session} {r : Request}
  {t₀ : TcpServer.Traffic}

theorem toServer_eq (h : During rc bc calls m s r t₀ cs cr sr ss tests) :
    s.toServer = (r.wire.take cs).drop sr := by
  obtain ⟨hsr, -, -, hrec, -⟩ := serving_bounds h.server
  have hwire := length_wire r
  change s.client.sent.drop (ServerRefinement.view s.server).traffic.received.length = _
  rw [hrec, h.sent, List.length_append, List.length_take, min_eq_left (by omega), List.drop_append,
    List.drop_eq_nil_of_le (by omega), List.nil_append, Nat.add_sub_cancel_left]

theorem length_toServer (h : During rc bc calls m s r t₀ cs cr sr ss tests) :
    s.toServer.length = cs - sr := by
  obtain ⟨hcs, -, -, -⟩ := at_bounds h.client
  rw [toServer_eq h, List.length_drop, List.length_take, length_wire, min_eq_left hcs]

theorem toClient_eq (h : During rc bc calls m s r t₀ cs cr sr ss tests) :
    s.toClient = ((answer r.wire).take ss).drop cr := by
  obtain ⟨-, hcr, -, -⟩ := at_bounds h.client
  obtain ⟨-, -, -, -, hsent⟩ := serving_bounds h.server
  have hla := length_answer_wire r
  change (ServerRefinement.view s.server).traffic.sent.drop s.client.received.length = _
  rw [hsent, h.received, List.length_append, List.length_take, min_eq_left (by omega), List.drop_append,
    List.drop_eq_nil_of_le (by omega), List.nil_append, Nat.add_sub_cancel_left]

theorem length_toClient (h : During rc bc calls m s r t₀ cs cr sr ss tests) :
    s.toClient.length = ss - cr := by
  obtain ⟨-, hss, -, -, -⟩ := serving_bounds h.server
  rw [toClient_eq h, List.length_drop, List.length_take, length_answer_wire, min_eq_left hss]

theorem toServer_during (h : During rc bc calls m s r t₀ cs cr sr ss tests) (n : Nat)
    (hn : n ≤ s.toServer.length) :
    s.toServer.take n = (r.wire.drop sr).take n ∧ (s.toServer.take n).length = n ∧ sr + n ≤ cs := by
  have hlen := length_toServer h
  have hle := h.request
  refine ⟨?_, List.length_take_of_le hn, by omega⟩
  rw [toServer_eq h, List.drop_take, List.take_take, min_eq_left (by omega)]

theorem toClient_during (h : During rc bc calls m s r t₀ cs cr sr ss tests) (n : Nat)
    (hn : n ≤ s.toClient.length) :
    s.toClient.take n = ((answer r.wire).drop cr).take n ∧ (s.toClient.take n).length = n ∧ cr + n ≤ ss := by
  have hlen := length_toClient h
  have hle := h.reply
  refine ⟨?_, List.length_take_of_le hn, by omega⟩
  rw [toClient_eq h, List.drop_take, List.take_take, min_eq_left (by omega)]

theorem call_step (hmax : ∀ a ∈ calls, a.size.toNat ≤ maxPayloadSize) (h : Between rc bc calls m s)
    {args : Call} {rest : List Call} (htodo : s.todo = args :: rest) (now : UInt64) :
    ∃ m' < m, Inv rc bc calls m' { s with client := s.client.call args now, todo := rest } := by
  obtain ⟨done, hcalls, hset⟩ := h.settled
  rw [htodo] at hcalls
  have hsize : args.size.toNat ≤ maxPayloadSize := hmax args (by simp [hcalls])
  obtain ⟨hwf, hat⟩ := call_at h.clientWf args now hsize
  have hlen := length_framed args now s.client.sendBuf hsize
  have hcost : cost s.todo = 4 * (headerSize + args.size.toNat) + 3 + cost rest := by simp [cost, htodo]
  have hread : Reading (framed args now s.client.sendBuf hsize) s.server.traffic 0 s.server.traffic :=
    ⟨by simp, rfl, rfl, rfl⟩
  have hview : ServerRefinement.view s.server =
      ⟨(ServerRefinement.view s.server).phase, s.server.traffic⟩ := rfl
  obtain ⟨tests, hserv, ht⟩ : ∃ tests, Serving (framed args now s.client.sendBuf hsize) s.server.traffic 0 0
      tests (ServerRefinement.view s.server) ∧ 4 * (headerSize + args.size.toNat) + 1 + tests + cost rest < m := by
    obtain ⟨hp, hm⟩ | ⟨hp, hm⟩ := h.server
    · refine ⟨2, ?_, by omega⟩
      rw [hview, hp]
      exact .waiting _ hread
    · refine ⟨1, ?_, by omega⟩
      rw [hview, hp]
      exact .reading 0 _ (by simp [headerSize]) hread
  refine ⟨_, ht, .during (framed args now s.client.sendBuf hsize) s.server.traffic 0 0 0 0 tests ?_⟩
  exact {
    settled := ⟨done, args, now, hcalls, rfl, { hset with sent := hset.received ▸ hset.sent, received := rfl }⟩
    clientWf := hwf
    serverWf := h.serverWf
    client := hat
    server := hserv
    sent := by simp [Client.call, hset.received]
    received := by simp [Client.call, h.received]
    request := le_rfl
    reply := le_rfl
    measure := by simp only [hlen]; omega }

theorem between_step (hmax : ∀ a ∈ calls, a.size.toNat ≤ maxPayloadSize) (h : Between rc bc calls m s)
    {l : Label} (hstep : EchoSession.step s l = some s') : ∃ m' < m, Inv rc bc calls m' s' := by
  cases l with
  | call now =>
    cases htodo : s.todo with
    | nil => simp [EchoSession.step, htodo] at hstep
    | cons args rest =>
      simp only [EchoSession.step, htodo, Session.onClient, DoRequest.step, h.client, Option.map_some,
        Option.some.injEq] at hstep
      subst hstep
      exact call_step hmax h htodo now
  | clientSend n | clientRecv n | clientNow t =>
    simp [EchoSession.step, Session.onClient, DoRequest.step, h.client] at hstep
  | serverTest =>
    obtain ⟨h', rfl, hwf, hm⟩ := onServer_some hstep h.serverWf
    obtain ⟨ht, hp⟩ := hm.of_test
    change h'.traffic = s.server.traffic at ht
    obtain ⟨hidle, hread⟩ : (ServerRefinement.view s.server).phase = .idle ∧
        (ServerRefinement.view h').phase = .reading [] := by
      obtain hp | ⟨hp, -⟩ := hp
      · exact hp
      · obtain ⟨hq, -⟩ | ⟨hq, -⟩ := h.server
        all_goals simp [hp] at hq
    obtain ⟨-, rfl⟩ | ⟨hq, -⟩ := h.server
    · refine ⟨cost s.todo, Nat.lt_succ_self _, .between ⟨?_, ?_, h.client, h.clientWf, hwf, ?_⟩⟩
      · simpa only [ht] using h.settled
      · simpa only [ht] using h.received
      · exact .inr ⟨hread, rfl⟩
    · simp [hidle] at hq
  | serverRecv n =>
    obtain ⟨done, -, hset⟩ := h.settled
    simp only [EchoSession.step, Option.ite_none_right_eq_some] at hstep
    obtain ⟨h', rfl, hwf, hm⟩ := onServer_some hstep.2 h.serverWf
    have hpos := hm.recv_pos
    simp [Session.toServer, hset.received] at hpos
  | serverSend n =>
    obtain ⟨h', rfl, hwf, hm⟩ := onServer_some hstep h.serverWf
    obtain ⟨frame, k, hp⟩ := hm.send_reply
    obtain ⟨hq, -⟩ | ⟨hq, -⟩ := h.server
    all_goals simp [hp] at hq

theorem Settled.snoc {done : List Call} {xs : List Exchange} {t : TcpServer.Traffic} {args : Call}
    {now rtt : UInt64} (hset : Settled rc bc done xs t₀.received t₀) (hhdr : r.header = args.header now)
    (h : Replying r t₀ (headerSize + r.payload.length) t) :
    Settled rc bc (done ++ [args])
      (xs ++ [⟨r.header, r.payload, some (r.replyHeader, r.payload), rtt⟩]) (t₀.received ++ r.wire) t where
  good := by
    have hsize := r.size_eq
    rw [hhdr] at hsize
    exact List.rel_append hset.good (.cons ⟨now, hhdr, hsize.symm, rfl⟩ .nil)
  sent := by simp [hset.sent.symm, exchangeWire, Request.wire]
  received := h.received
  requestCount := by
    rw [h.requestCount, hset.requestCount, List.length_append, UInt64.ofNat_add, UInt64.add_assoc]
    rfl
  byteCount := by
    rw [h.byteCount, hset.byteCount, hhdr, List.map_append, List.sum_append, UInt64.add_assoc]
    simp [frameBytes, Call.header]

theorem now_step (h : During rc bc calls m s r t₀ cs cr sr ss tests) {c : Client} {t : UInt64}
    (hc : DoRequest.step s.client (.now t) = some c) :
    ∃ m' < m, Inv rc bc calls m' { s with client := c } := by
  obtain ⟨done, args, now, hcalls, hhdr, hset⟩ := h.settled
  obtain ⟨rfl, rfl, rfl⟩ := now_at h.client hc
  have hreply := h.reply
  have hmeas := h.measure
  obtain ⟨-, hss, -, -, -⟩ := serving_bounds h.server
  have hsent : s.client.sent = t₀.received ++ r.wire := by
    rw [h.sent, ← length_wire, List.take_length]
  have hend (hrep : Replying r t₀ (headerSize + r.payload.length) s.server.traffic) (m' : Nat)
      (hserver : ((ServerRefinement.view s.server).phase = .idle ∧ m' = cost s.todo + 1) ∨
        ((ServerRefinement.view s.server).phase = .reading [] ∧ m' = cost s.todo)) :
      Inv rc bc calls m' { s with client := { s.client with
        phase := .idle
        exchanges := s.client.exchanges ++ [⟨r.header, r.payload, some (r.replyHeader, r.payload),
          t - r.header.sendTimestampNs⟩] } } := by
    refine .between ⟨⟨done ++ [args], by simp [hcalls], ?_⟩, ?_, rfl, ⟨h.clientWf.hdrBuf,
      h.clientWf.respHdrBuf⟩, h.serverWf, hserver⟩
    · simp only [hsent]
      exact hset.snoc hhdr hrep
    · exact h.received.trans hrep.sent.symm
  have hserver := h.server
  generalize hv : ServerRefinement.view s.server = e at hserver hend
  have ht : s.server.traffic = e.traffic := congrArg Echo.traffic hv
  cases hserver with
  | waiting _ hr | reading _ _ _ hr => simp [headerSize] at hreply
  | replying k _ hk hr => omega
  | answered _ hr => exact ⟨cost s.todo + 1, by omega, hend (ht ▸ hr) _ (.inl ⟨rfl, rfl⟩)⟩
  | next _ hr => exact ⟨cost s.todo, by omega, hend (ht ▸ hr) _ (.inr ⟨rfl, rfl⟩)⟩

/-- Inside a call every system call moves one of the four positions on, or
tests `running_`, or returns. -/
theorem during_step (h : During rc bc calls m s r t₀ cs cr sr ss tests) {l : Label}
    (hstep : EchoSession.step s l = some s') : ∃ m' < m, Inv rc bc calls m' s' := by
  obtain ⟨hcs, hcr, hor, hidle⟩ := at_bounds h.client
  obtain ⟨hsr, hss, hor', hrec, hsent⟩ := serving_bounds h.server
  have hrequest := h.request
  have hreply := h.reply
  have hmeas := h.measure
  cases l with
  | call now =>
    cases htodo : s.todo with
    | nil => simp [EchoSession.step, htodo] at hstep
    | cons args rest =>
      simp only [EchoSession.step, htodo] at hstep
      obtain ⟨c, hc, -⟩ := onClient_some hstep
      cases hp : s.client.phase <;> simp [DoRequest.step, hp] at hc
      exact absurd hp hidle
  | clientSend n =>
    obtain ⟨c, hc, rfl⟩ := onClient_some hstep
    obtain ⟨hpos, rfl, hadv⟩ := send_at h.client h.clientWf hc
    obtain ⟨hcs', -, -, -⟩ := at_bounds hadv.pos
    refine ⟨m - n, by omega, .during r t₀ (cs + n) 0 sr ss tests ?_⟩
    exact {
      settled := by simpa only [hadv.exchanges] using h.settled
      clientWf := hadv.wf
      serverWf := h.serverWf
      client := hadv.pos
      server := h.server
      sent := by rw [hadv.sent, h.sent, List.append_assoc, ← List.take_add]
      received := by simpa [h.received] using hadv.received
      request := by omega
      reply := hreply
      measure := by
        dsimp only
        omega }
  | clientRecv n =>
    simp only [EchoSession.step, Option.ite_none_right_eq_some] at hstep
    obtain ⟨hn, hstep⟩ := hstep
    obtain ⟨hbs, hlen, hle⟩ := toClient_during h n hn
    obtain ⟨c, hc, rfl⟩ := onClient_some hstep
    obtain ⟨hpos, -, hadv⟩ := recv_at h.client h.clientWf hc (by rw [hlen]; exact hbs)
    rw [hlen] at hpos hadv
    refine ⟨m - n, by omega, .during r t₀ cs (cr + n) sr ss tests ?_⟩
    exact {
      settled := by simpa only [hadv.exchanges] using h.settled
      clientWf := hadv.wf
      serverWf := h.serverWf
      client := hadv.pos
      server := h.server
      sent := by simpa [h.sent] using hadv.sent
      received := by rw [hadv.received, h.received, hbs, List.append_assoc, ← List.take_add]
      request := hrequest
      reply := hle
      measure := by
        dsimp only
        omega }
  | clientNow t =>
    obtain ⟨c, hc, rfl⟩ := onClient_some hstep
    exact now_step h hc
  | serverTest =>
    obtain ⟨h', rfl, hwf, hm⟩ := onServer_some hstep h.serverWf
    obtain ⟨tests', rfl, hserv⟩ := test_serving h.server hm
    exact ⟨m - 1, by omega, .during r t₀ cs cr sr ss tests'
      { h with serverWf := hwf, server := hserv, measure := by dsimp only; omega }⟩
  | serverRecv n =>
    simp only [EchoSession.step, Option.ite_none_right_eq_some] at hstep
    obtain ⟨hn, hstep⟩ := hstep
    obtain ⟨hbs, hlen, hle⟩ := toServer_during h n hn
    obtain ⟨h', rfl, hwf, hm⟩ := onServer_some hstep h.serverWf
    have hpos := hm.recv_pos
    rw [hlen] at hpos
    obtain ⟨rfl, rfl, hle', hserv⟩ := recv_serving h.server (by omega) hm (by rw [hlen]; exact hbs)
      (by rw [hlen]; exact hpos)
    rw [hlen] at hserv
    exact ⟨m - n, by omega, .during r t₀ cs cr (sr + n) 0 1
      { h with serverWf := hwf, server := hserv, request := hle, measure := by dsimp only; omega }⟩
  | serverSend n =>
    obtain ⟨h', rfl, hwf, hm⟩ := onServer_some hstep h.serverWf
    obtain ⟨rfl, hpos, hle, hserv⟩ := send_serving h.server hm
    exact ⟨m - n, by omega, .during r t₀ cs cr _ (ss + n) tests
      { h with serverWf := hwf, server := hserv, reply := by omega, measure := by dsimp only; omega }⟩

theorem inv_step (hmax : ∀ a ∈ calls, a.size.toNat ≤ maxPayloadSize) (h : Inv rc bc calls m s) {l : Label}
    (hstep : EchoSession.step s l = some s') : ∃ m' < m, Inv rc bc calls m' s' := by
  cases h with
  | between h => exact between_step hmax h hstep
  | during r t₀ cs cr sr ss tests h => exact during_step h hstep

end DcBench.SessionExchange

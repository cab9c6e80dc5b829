import DcBench.SessionEcho

namespace DcBench.OversizeRequest

open DcBench.Lib DcBench.Message DcBench.ExactTransfer DcBench.EchoMachine DcBench.ServerExchange
open DcBench.DoRequest (Call Client Exchange)
open DcBench.EchoSession (Session Label)
open DcBench.SessionExchange (Echoed Between During onClient_some onServer_some)

/-- One system call of either end of a connection that the server may close. A
call of the client fails only when it has, and no `::recv` of the server times
out before. -/
inductive Event
  | transfer (l : Label)
  | sendFails
  | recvFails (r : RecvResult)

def isFailure : RecvResult → Bool
  | .data _ => false
  | .eof | .error => true

def step (s : Session) : Event → Option Session
  | .transfer l => EchoSession.step s l
  | .sendFails => if s.server.phase = .left then s.onClient (.send .error) else none
  | .recvFails r => if s.server.phase = .left ∧ isFailure r then s.onClient (.recv r) else none

/-- A call of `do_request` that has read nothing. -/
def Unanswered : DoRequest.Phase → Prop
  | .idle | .sendHeader _ _ | .sendPayload _ _ | .recvHeader _ 0 => True
  | _ => False

def busy (p : DoRequest.Phase) : Nat := if p = .idle then 0 else 1

/-- What a client can do to which nothing arrives: begin a call, go on sending,
or fail. -/
structure Moved (c c' : Client) (begun : Nat) : Prop where
  phase : Unanswered c'.phase
  received : c'.received = c.received
  exchanges : ∃ ys : List Exchange, c'.exchanges = c.exchanges ++ ys ∧ (∀ y ∈ ys, y.answer = none ∧ y.rtt = 0) ∧
    ys.length + busy c'.phase = busy c.phase + begun

theorem moved_goesOn {c c' : Client} {begun : Nat} (hp : Unanswered c'.phase) (hr : c'.received = c.received)
    (hx : c'.exchanges = c.exchanges) (hb : busy c'.phase = busy c.phase + begun) : Moved c c' begun :=
  ⟨hp, hr, [], by rw [hx, List.append_nil], fun _ hy => (by cases hy), by simpa using hb⟩

theorem moved_fails {c c' : Client} (hdr : MessageHeader) (hp : c.phase ≠ .idle)
    (h : c' = c.finish hdr none 0) : Moved c c' 0 := by
  subst h
  refine ⟨trivial, rfl, _, rfl, ?_, ?_⟩
  · intro y hy
    obtain rfl := List.mem_singleton.mp hy
    exact ⟨rfl, rfl⟩
  · simp [busy, DoRequest.Client.finish, hp]

theorem moved_call {c c' : Client} {args : Call} {now : UInt64}
    (hs : DoRequest.step c (.call args now) = some c') : Moved c c' 1 := by
  cases hp : c.phase <;> simp only [DoRequest.step, hp, Option.some.injEq, reduceCtorEq] at hs
  subst hs
  exact moved_goesOn trivial rfl rfl (by simp [busy, DoRequest.Client.call, hp])

theorem moved_send {c c' : Client} {r : SendResult} (hs : DoRequest.step c (.send r) = some c') : Moved c c' 0 := by
  cases hp : c.phase with
  | sendHeader hdr n =>
    simp only [DoRequest.step, hp, Option.ite_none_right_eq_some, Option.some.injEq] at hs
    obtain ⟨-, rfl⟩ := hs
    cases r with
    | error =>
      refine moved_fails hdr (by simp [hp]) ?_
      simp [Client.sendHeader, sendExact]
    | sent k =>
      by_cases hlt : n + k < headerSize
      · simp only [Client.sendHeader, sendExact, hlt, if_true]
        exact moved_goesOn trivial rfl rfl (by simp [busy, hp])
      · simp only [Client.sendHeader, sendExact, hlt, if_false]
        split
        · exact moved_goesOn trivial rfl rfl (by simp [busy, hp])
        · exact moved_goesOn trivial rfl rfl (by simp [busy, hp])
  | sendPayload hdr n =>
    simp only [DoRequest.step, hp, Option.ite_none_right_eq_some, Option.some.injEq] at hs
    obtain ⟨-, rfl⟩ := hs
    cases r with
    | error =>
      refine moved_fails hdr (by simp [hp]) ?_
      simp [Client.sendPayload, sendExact]
    | sent k =>
      by_cases hlt : n + k < hdr.payloadSize.toNat
      · simp only [Client.sendPayload, sendExact, hlt, if_true]
        exact moved_goesOn trivial rfl rfl (by simp [busy, hp])
      · simp only [Client.sendPayload, sendExact, hlt, if_false]
        exact moved_goesOn trivial rfl rfl (by simp [busy, hp])
  | idle | recvHeader hdr n | recvPayload hdr resp n | stamp hdr resp => simp [DoRequest.step, hp] at hs

theorem moved_recv {c c' : Client} {r : RecvResult} (hc : Unanswered c.phase) (hr : isFailure r = true)
    (hs : DoRequest.step c (.recv r) = some c') : Moved c c' 0 := by
  cases hp : c.phase with
  | recvHeader hdr n =>
    simp only [DoRequest.step, hp, Option.ite_none_right_eq_some, Option.some.injEq] at hs
    obtain ⟨-, rfl⟩ := hs
    refine moved_fails hdr (by simp [hp]) ?_
    cases r with
    | data bs => cases hr
    | eof | error => simp [Client.recvHeader, recvExact, RecvResult.bytes]
  | recvPayload hdr resp n => simp [hp, Unanswered] at hc
  | idle | sendHeader hdr n | sendPayload hdr n | stamp hdr resp => simp [DoRequest.step, hp] at hs

/-- The server has not yet read the header of the request that is too large. -/
structure Refusing (base : List UInt8) (hdr : MessageHeader) (s : Session) : Prop where
  large : maxPayloadSize < hdr.payloadSize.toNat
  client : (∃ n < headerSize, s.client.phase = .sendHeader hdr n ∧ s.client.hdrBuf = serializeHeader hdr ∧
      s.client.sent = base ++ (serializeHeader hdr).take n) ∨
    (∃ rest, s.client.sent = base ++ (serializeHeader hdr ++ rest) ∧
      ((∃ n < hdr.payloadSize.toNat, s.client.phase = .sendPayload hdr n) ∨ s.client.phase = .recvHeader hdr 0))
  server : ∃ got, got <+: serializeHeader hdr ∧ got.length < headerSize ∧ s.server.traffic.received = base ++ got ∧
    ((ServerRefinement.view s.server).phase = .reading got ∨ (ServerRefinement.view s.server).phase = .idle ∧ got = [])

variable {base : List UInt8} {hdr : MessageHeader} {s s' : Session}

theorem Refusing.busy (h : Refusing base hdr s) : s.client.phase ≠ .idle := by
  obtain ⟨n, -, hp, -⟩ | ⟨rest, -, ⟨n, -, hp⟩ | hp⟩ := h.client
  · simp [hp]
  · simp [hp]
  · simp [hp]

theorem Refusing.sent (h : Refusing base hdr s) : ∃ out, s.client.sent = base ++ out ∧
    out.take headerSize <+: serializeHeader hdr := by
  obtain ⟨n, hn, -, -, hsent⟩ | ⟨rest, hsent, -⟩ := h.client
  · refine ⟨_, hsent, ?_⟩
    rw [List.take_take]
    exact List.take_prefix _ _
  · refine ⟨_, hsent, ?_⟩
    have hlen := length_serializeHeader hdr
    rw [List.take_append_of_le_length hlen.ge, List.take_of_length_le hlen.le]

theorem Refusing.clientSend (h : Refusing base hdr s) {n : Nat} {c : Client}
    (hc : DoRequest.step s.client (.send (.sent n)) = some c) : Refusing base hdr { s with client := c } := by
  have hpos : 0 < hdr.payloadSize.toNat := Nat.lt_of_le_of_lt (Nat.zero_le _) h.large
  refine ⟨h.large, ?_, h.server⟩
  obtain ⟨k, hk, hp, hbuf, hsent⟩ | ⟨rest, hsent, ⟨k, -, hp⟩ | hp⟩ := h.client
  · simp only [DoRequest.step, hp, Option.ite_none_right_eq_some, Option.some.injEq, SendResult.fits, Bool.and_eq_true,
      decide_eq_true_eq] at hc
    obtain ⟨⟨-, hfits⟩, rfl⟩ := hc
    have hmore : s.client.sent ++ (s.client.hdrBuf.drop k).take n = base ++ (serializeHeader hdr).take (k + n) := by
      rw [hsent, hbuf, List.append_assoc, ← List.take_add]
    by_cases hlt : k + n < headerSize
    · simp only [Client.sendHeader, sendExact, hlt, if_true]
      exact .inl ⟨k + n, hlt, rfl, hbuf, hmore⟩
    · simp only [Client.sendHeader, sendExact, hlt, if_false, hpos, if_true]
      refine .inr ⟨[], ?_, .inl ⟨0, hpos, rfl⟩⟩
      rw [hmore, List.append_nil, List.take_of_length_le (by rw [length_serializeHeader]; omega)]
  · simp only [DoRequest.step, hp, Option.ite_none_right_eq_some, Option.some.injEq] at hc
    obtain ⟨-, rfl⟩ := hc
    have hmore (bs : List UInt8) : s.client.sent ++ bs = base ++ (serializeHeader hdr ++ (rest ++ bs)) := by
      rw [hsent, List.append_assoc, List.append_assoc]
    by_cases hlt : k + n < hdr.payloadSize.toNat
    · simp only [Client.sendPayload, sendExact, hlt, if_true]
      exact .inr ⟨_, hmore _, .inl ⟨k + n, hlt, rfl⟩⟩
    · simp only [Client.sendPayload, sendExact, hlt, if_false]
      exact .inr ⟨_, hmore _, .inr trivial⟩
  · simp [DoRequest.step, hp] at hc

theorem Refusing.readOn (h : Refusing base hdr s) {got : List UInt8} (hgot : got <+: serializeHeader hdr)
    (hreceived : s.server.traffic.received = base ++ got) {n : Nat} (hn : n ≤ s.toServer.length)
    (hpos : 0 < (s.toServer.take n).length) (hle : (got ++ s.toServer.take n).length ≤ headerSize) :
    got ++ s.toServer.take n <+: serializeHeader hdr := by
  obtain ⟨out, hsent, hout⟩ := h.sent
  have hto : s.toServer = out.drop got.length := by
    rw [Session.toServer, hsent, hreceived, List.length_append, List.drop_append, List.drop_eq_nil_of_le (by omega),
      List.nil_append, Nat.add_sub_cancel_left]
  rw [List.length_take, hto, List.length_drop] at hpos
  rw [List.length_append, List.length_take, hto, List.length_drop] at hle
  have hlen : got.length + n ≤ headerSize := by
    rw [hto, List.length_drop] at hn
    omega
  -- both are beginnings of the same header, and the server is not ahead
  have hpre : got <+: out := by
    refine (List.prefix_of_prefix_length_le hgot hout ?_).trans (List.take_prefix _ _)
    rw [List.length_take]
    omega
  have htake : out.take (got.length + n) = got ++ (out.drop got.length).take n := by
    rw [List.take_add, ← List.prefix_iff_eq_take.mp hpre]
  have hhead : out.take (got.length + n) = (out.take headerSize).take (got.length + n) := by
    rw [List.take_take, min_eq_left hlen]
  rw [hto, ← htake, hhead]
  exact (List.take_prefix _ _).trans hout

/-- The server reads on; with the last byte of the header it gives the connection
up. -/
theorem Refusing.serverRecv (h : Refusing base hdr s) {n : Nat} {hd : TcpServer.Handler} (hn : n ≤ s.toServer.length)
    (hm : Move (ServerRefinement.view s.server) (.recv (.data (s.toServer.take n))) (ServerRefinement.view hd)) :
    (hd.phase = .left ∨ Refusing base hdr { s with server := hd }) ∧
      hd.traffic.sent = s.server.traffic.sent ∧ hd.traffic.requestCount = s.server.traffic.requestCount := by
  obtain ⟨got, hgot, hlt, hreceived, hphase⟩ := h.server
  have hpre := h.readOn hgot hreceived hn
  generalize s.toServer.take n = bs at hm hpre
  generalize hv : ServerRefinement.view s.server = e at hm hphase
  generalize hv' : ServerRefinement.view hd = e' at hm
  have ht : s.server.traffic = e.traffic := congrArg Echo.traffic hv
  have ht' : hd.traffic = e'.traffic := congrArg Echo.traffic hv'
  have hleft (hp : e'.phase = .left) : hd.phase = .left := by
    rw [← hv'] at hp
    cases hq : hd.phase <;> simp [ServerRefinement.view, hq] at hp ⊢
  cases hm with
  | header t got' bs hb hl =>
    obtain rfl : got' = got := by simpa using hphase
    refine ⟨.inr ⟨h.large, h.client, got' ++ bs, hpre hb hl.le, hl, ?_, .inl ?_⟩, ?_, ?_⟩
    · dsimp only
      rw [ht', TcpServer.Traffic.receive_received, ← List.append_assoc, ← hreceived, ht]
    · dsimp only
      rw [hv']
    · rw [ht', ht]
      rfl
    · rw [ht', ht]
      rfl
  | oversize t got' bs hg hl hs =>
    refine ⟨.inl (hleft rfl), ?_, ?_⟩
    · rw [ht', ht]
      rfl
    · rw [ht', ht]
      rfl
  | accept t got' bs hg hl hs =>
    obtain rfl : got' = got := by simpa using hphase
    exfalso
    have hb : 0 < bs.length := by
      rw [List.length_append] at hl
      omega
    have heq : got' ++ bs = serializeHeader hdr := (hpre hb hl.le).eq_of_length (by rw [hl, length_serializeHeader])
    rw [heq, payloadSize, deserialize_serialize] at hs
    exact absurd h.large (by omega)
  | payload t got' bs hb hg hl =>
    obtain rfl : got' = got := by simpa using hphase
    omega
  | cut t got' r hr hg => obtain hr | hr := hr <;> cases hr
  | broken t got' r hr hg => obtain hr | hr := hr <;> cases hr

theorem Refusing.serverTest (h : Refusing base hdr s) {hd : TcpServer.Handler}
    (hm : Move (ServerRefinement.view s.server) (.running true) (ServerRefinement.view hd)) :
    Refusing base hdr { s with server := hd } ∧ hd.traffic = s.server.traffic := by
  obtain ⟨ht, hp⟩ := hm.of_test
  change hd.traffic = s.server.traffic at ht
  obtain ⟨got, hgot, hlt, hreceived, hphase⟩ := h.server
  obtain ⟨hidle, hread⟩ : (ServerRefinement.view s.server).phase = .idle ∧
      (ServerRefinement.view hd).phase = .reading [] := by
    obtain hp | ⟨hp, -⟩ := hp
    · exact hp
    · simp [hp] at hphase
  obtain rfl : got = [] := by simpa [hidle] using hphase
  refine ⟨⟨h.large, h.client, [], hgot, hlt, ?_, .inl hread⟩, ht⟩
  dsimp only
  rw [ht, hreceived]

/-- The connection from the request on that is too large. -/
structure Silent (rc : UInt64) (before after : List Call) (s : Session) : Prop where
  exchanges : ∃ xs ys : List Exchange, s.client.exchanges = xs ++ ys ∧ List.Forall₂ Echoed before xs ∧
    (∀ y ∈ ys, y.answer = none ∧ y.rtt = 0) ∧ ys.length + busy s.client.phase + s.todo.length = after.length + 1
  client : Unanswered s.client.phase
  received : s.client.received = s.server.traffic.sent
  requestCount : s.server.traffic.requestCount = rc + UInt64.ofNat before.length
  serverWf : ServerRefinement.Wf s.server
  server : s.server.phase = .left ∨ ∃ base hdr, Refusing base hdr s

variable {rc bc : UInt64} {before after : List Call}

theorem Silent.moved (h : Silent rc before after s) {c : Client} {todo : List Call} {begun : Nat}
    (hm : Moved s.client c begun) (htodo : begun + todo.length = s.todo.length)
    (hserver : s.server.phase = .left ∨ ∃ base hdr, Refusing base hdr { s with client := c, todo := todo }) :
    Silent rc before after { s with client := c, todo := todo } := by
  obtain ⟨xs, ys, hx, hgood, hnone, hcount⟩ := h.exchanges
  obtain ⟨zs, hz, hznone, hzcount⟩ := hm.exchanges
  refine ⟨⟨xs, ys ++ zs, ?_, hgood, ?_, ?_⟩, hm.phase, hm.received.trans h.received, h.requestCount, h.serverWf, hserver⟩
  · dsimp only
    rw [hz, hx, List.append_assoc]
  · intro y hy
    exact (List.mem_append.mp hy).elim (hnone y) (hznone y)
  · rw [List.length_append]
    dsimp only
    omega

theorem Silent.toClient (h : Silent rc before after s) : s.toClient = [] := by
  rw [Session.toClient, h.received, List.drop_length]

theorem step_recv_nil (c : Client) : DoRequest.step c (.recv (.data [])) = none := by
  cases hp : c.phase <;> simp [DoRequest.step, hp, RecvResult.fits]

theorem silent_transfer (h : Silent rc before after s) {l : Label} (hs : EchoSession.step s l = some s') :
    Silent rc before after s' := by
  have hgone {ev : TcpServer.Event} (hleft : s.server.phase = .left) : s.onServer ev = none := by
    cases ev <;> simp [Session.onServer, TcpServer.step, hleft]
  cases l with
  | call now =>
    cases htodo : s.todo with
    | nil => simp [EchoSession.step, htodo] at hs
    | cons args rest =>
      simp only [EchoSession.step, htodo] at hs
      obtain ⟨c, hc, rfl⟩ := onClient_some hs
      obtain hleft | ⟨base, hdr, href⟩ := h.server
      · have hmoved : Silent rc before after { s with client := c, todo := rest } :=
          h.moved (moved_call hc) (by rw [htodo, List.length_cons, Nat.add_comm]) (.inl hleft)
        exact hmoved
      · have hbusy := href.busy
        cases hp : s.client.phase <;> simp [DoRequest.step, hp] at hc
        exact absurd hp hbusy
  | clientSend n =>
    obtain ⟨c, hc, rfl⟩ := onClient_some hs
    refine h.moved (moved_send hc) (Nat.zero_add _) ?_
    obtain hleft | ⟨base, hdr, href⟩ := h.server
    · exact .inl hleft
    · exact .inr ⟨base, hdr, href.clientSend hc⟩
  | clientRecv n =>
    simp only [EchoSession.step, h.toClient, List.take_nil, Option.ite_none_right_eq_some] at hs
    obtain ⟨c, hc, rfl⟩ := onClient_some hs.2
    rw [step_recv_nil] at hc
    cases hc
  | clientNow t =>
    obtain ⟨c, hc, rfl⟩ := onClient_some hs
    have hclient := h.client
    cases hp : s.client.phase <;> simp [DoRequest.step, hp] at hc
    simp [hp, Unanswered] at hclient
  | serverTest =>
    obtain hleft | ⟨base, hdr, href⟩ := h.server
    · rw [EchoSession.step, hgone hleft] at hs
      cases hs
    · obtain ⟨hd, rfl, hwf, hm⟩ := onServer_some hs h.serverWf
      obtain ⟨href', ht⟩ := href.serverTest hm
      exact ⟨h.exchanges, h.client, by rw [ht]; exact h.received, by rw [ht]; exact h.requestCount, hwf,
        .inr ⟨_, _, href'⟩⟩
  | serverRecv n =>
    simp only [EchoSession.step, Option.ite_none_right_eq_some] at hs
    obtain ⟨hn, hs⟩ := hs
    obtain hleft | ⟨base, hdr, href⟩ := h.server
    · rw [hgone hleft] at hs
      cases hs
    · obtain ⟨hd, rfl, hwf, hm⟩ := onServer_some hs h.serverWf
      obtain ⟨hserver, hsent, hcount⟩ := href.serverRecv hn hm
      exact ⟨h.exchanges, h.client, h.received.trans hsent.symm, hcount.trans h.requestCount, hwf,
        hserver.imp id (fun href => ⟨base, hdr, href⟩)⟩
  | serverSend n =>
    obtain hleft | ⟨base, hdr, href⟩ := h.server
    · rw [EchoSession.step, hgone hleft] at hs
      cases hs
    · obtain ⟨hd, rfl, hwf, hm⟩ := onServer_some hs h.serverWf
      obtain ⟨frame, k, hp⟩ := hm.send_reply
      obtain ⟨got, -, -, -, hphase⟩ := href.server
      simp [hp] at hphase

theorem silent_step (h : Silent rc before after s) {e : Event} (hs : step s e = some s') :
    Silent rc before after s' := by
  cases e with
  | transfer l => exact silent_transfer h hs
  | sendFails =>
    simp only [step, Option.ite_none_right_eq_some] at hs
    obtain ⟨hleft, hs⟩ := hs
    obtain ⟨c, hc, rfl⟩ := onClient_some hs
    exact h.moved (moved_send hc) (Nat.zero_add _) (.inl hleft)
  | recvFails r =>
    simp only [step, Option.ite_none_right_eq_some] at hs
    obtain ⟨⟨hleft, hr⟩, hs⟩ := hs
    obtain ⟨c, hc, rfl⟩ := onClient_some hs
    exact h.moved (moved_recv h.client hr hc) (Nat.zero_add _) (.inl hleft)

/-- The calls before the one that is too large are as on any other connection. -/
inductive Inv (rc bc : UInt64) (before : List Call) (large : Call) (after : List Call) (s : Session) : Prop
  | ordinary (m : Nat) (rest : List Call) (htodo : s.todo = rest ++ large :: after)
      (h : SessionExchange.Inv rc bc before m { s with todo := rest }) : Inv rc bc before large after s
  | silent (h : Silent rc before after s) : Inv rc bc before large after s

variable {large : Call} {m : Nat} {rest : List Call}

theorem not_left_of_inv (h : SessionExchange.Inv rc bc before m s) : s.server.phase ≠ .left := by
  intro hleft
  have hview : (ServerRefinement.view s.server).phase = .left := by rw [ServerRefinement.view, hleft]
  cases h with
  | between hb =>
    obtain ⟨hp, -⟩ | ⟨hp, -⟩ := hb.server
    · simp [hview] at hp
    · simp [hview] at hp
  | during r t₀ cs cr sr ss tests hd =>
    have hserver := hd.server
    generalize ServerRefinement.view s.server = e at hserver hview
    cases hserver <;> cases hview

theorem step_todo {l : Label} (hl : ∀ now, l ≠ .call now) (hs : EchoSession.step s l = some s') (rest : List Call) :
    s'.todo = s.todo ∧ EchoSession.step { s with todo := rest } l = some { s' with todo := rest } := by
  have hclient {ev : DoRequest.Event} (h : s.onClient ev = some s') :
      s'.todo = s.todo ∧ Session.onClient { s with todo := rest } ev = some { s' with todo := rest } := by
    obtain ⟨c, hc, rfl⟩ := onClient_some h
    exact ⟨rfl, by simp [Session.onClient, hc]⟩
  have hserver {ev : TcpServer.Event} (h : s.onServer ev = some s') :
      s'.todo = s.todo ∧ Session.onServer { s with todo := rest } ev = some { s' with todo := rest } := by
    obtain ⟨hd, hhd, rfl⟩ := Option.map_eq_some_iff.mp h
    exact ⟨rfl, by simp [Session.onServer, hhd]⟩
  cases l with
  | call now => exact absurd rfl (hl now)
  | clientSend n => exact hclient hs
  | clientNow t => exact hclient hs
  | serverTest => exact hserver hs
  | serverSend n => exact hserver hs
  | clientRecv n =>
    simp only [EchoSession.step, Option.ite_none_right_eq_some] at hs
    obtain ⟨hn, hs⟩ := hs
    have hto : Session.toClient { s with todo := rest } = s.toClient := rfl
    simp only [EchoSession.step, hto, if_pos hn]
    exact hclient hs
  | serverRecv n =>
    simp only [EchoSession.step, Option.ite_none_right_eq_some] at hs
    obtain ⟨hn, hs⟩ := hs
    have hto : Session.toServer { s with todo := rest } = s.toServer := rfl
    simp only [EchoSession.step, hto, if_pos hn]
    exact hserver hs

theorem silent_of_call (hlarge : maxPayloadSize < large.size.toNat) {t : Session} (htodo : t.todo = [])
    (h : Between rc bc before m t) (now : UInt64) :
    Silent rc before after { t with client := t.client.call large now, todo := after } := by
  obtain ⟨done, hcalls, hset⟩ := h.settled
  rw [htodo, List.append_nil] at hcalls
  subst hcalls
  have hbuf : (t.client.call large now).hdrBuf = serializeHeader (large.header now) := by
    simp [Client.call, Buffer.write, h.clientWf.hdrBuf]
  refine ⟨⟨t.client.exchanges, [], by simp [Client.call], hset.good, by simp, ?_⟩, trivial, h.received,
    hset.requestCount, h.serverWf, .inr ⟨t.client.sent, large.header now, hlarge, ?_, ?_⟩⟩
  · simp [busy, Client.call, Nat.add_comm]
  · exact .inl ⟨0, by decide, rfl, hbuf, by simp [Client.call]⟩
  · refine ⟨[], List.nil_prefix, by decide, by simp [hset.received], ?_⟩
    obtain ⟨hp, -⟩ | ⟨hp, -⟩ := h.server
    · exact .inr ⟨hp, rfl⟩
    · exact .inl hp

theorem inv_step (hmax : ∀ a ∈ before, a.size.toNat ≤ maxPayloadSize) (hlarge : maxPayloadSize < large.size.toNat)
    (h : Inv rc bc before large after s) {e : Event} (hs : step s e = some s') : Inv rc bc before large after s' := by
  cases h with
  | silent h => exact .silent (silent_step h hs)
  | ordinary m rest htodo h =>
    have hleft := not_left_of_inv h
    change s.server.phase ≠ .left at hleft
    cases e with
    | sendFails => simp [step, hleft] at hs
    | recvFails r => simp [step, hleft] at hs
    | transfer l =>
      by_cases hl : ∀ now, l ≠ .call now
      · obtain ⟨heq, hstep⟩ := step_todo hl hs rest
        obtain ⟨m', -, hinv⟩ := SessionExchange.inv_step hmax h hstep
        exact .ordinary m' rest (heq.trans htodo) hinv
      · simp only [not_forall, not_not] at hl
        obtain ⟨now, rfl⟩ := hl
        cases rest with
        | nil =>
          rw [List.nil_append] at htodo
          simp only [step, EchoSession.step, htodo] at hs
          obtain ⟨c, hc, rfl⟩ := onClient_some hs
          have hidle : s.client.phase = .idle := by
            cases hp : s.client.phase <;> simp [DoRequest.step, hp] at hc ⊢
          simp only [DoRequest.step, hidle, Option.some.injEq] at hc
          subst hc
          cases h with
          | between hb => exact .silent (silent_of_call hlarge rfl hb now)
          | during r t₀ cs cr sr ss tests hd =>
            obtain ⟨-, -, -, hbusy⟩ := SessionExchange.at_bounds hd.client
            exact absurd hidle hbusy
        | cons args rest =>
          rw [List.cons_append] at htodo
          simp only [step, EchoSession.step, htodo] at hs
          obtain ⟨c, hc, rfl⟩ := onClient_some hs
          have hstep : EchoSession.step { s with todo := args :: rest } (.call now) =
              some { s with client := c, todo := rest } := by
            simp only [EchoSession.step, Session.onClient, hc, Option.map_some]
          obtain ⟨m', -, hinv⟩ := SessionExchange.inv_step hmax h hstep
          exact .ordinary m' rest rfl hinv

theorem isSome_of_none (hstuck : ∀ e, step s e = none) {e : Event} (h : (step s e).isSome = true) : False := by
  rw [hstuck e] at h
  cases h

/-- One of the two ends can go on as long as the server has not read the header. -/
theorem Refusing.not_stuck (h : Refusing base hdr s) (hw : ServerRefinement.Wf s.server)
    (hstuck : ∀ e, step s e = none) : False := by
  have hsend {room : Nat} (hroom : 0 < room) : SendResult.fits room (.sent 1) = true := by
    simpa [SendResult.fits, Nat.one_le_iff_ne_zero, Nat.pos_iff_ne_zero] using hroom
  obtain ⟨n, hn, hp, -⟩ | ⟨rest, hsent, ⟨n, hn, hp⟩ | hp⟩ := h.client
  · apply isSome_of_none hstuck (e := .transfer (.clientSend 1))
    refine SessionEcho.onClient_isSome ?_
    simp only [DoRequest.step, hp, hsend (Nat.sub_pos_of_lt hn), if_true, Option.isSome_some]
  · apply isSome_of_none hstuck (e := .transfer (.clientSend 1))
    refine SessionEcho.onClient_isSome ?_
    simp only [DoRequest.step, hp, hsend (Nat.sub_pos_of_lt hn), if_true, Option.isSome_some]
  · obtain ⟨got, -, hlt, hreceived, hphase | ⟨hphase, -⟩⟩ := h.server
    · have hlen : 1 ≤ s.toServer.length := by
        rw [Session.toServer, hsent, hreceived, List.length_drop]
        simp only [List.length_append, length_serializeHeader]
        omega
      apply isSome_of_none hstuck (e := .transfer (.serverRecv 1))
      rw [step, EchoSession.step, if_pos hlen]
      refine SessionEcho.onServer_isSome hw ?_
      have hone : (s.toServer.take 1).length = 1 := List.length_take_of_le hlen
      have hfits : RecvResult.fits (readRoom got) (.data (s.toServer.take 1)) = true := by
        rw [RecvResult.fits, hone, readRoom, if_pos hlt]
        simp only [Nat.one_pos, decide_true, Bool.true_and, decide_eq_true_eq]
        omega
      simp only [EchoMachine.step, hphase, hfits, if_true, Option.isSome_some]
    · apply isSome_of_none hstuck (e := .transfer .serverTest)
      refine SessionEcho.onServer_isSome hw ?_
      simp only [EchoMachine.step, hphase, Option.isSome_some]

theorem isSome_call {args : Call} {rest : List Call} (htodo : s.todo = args :: rest) (hidle : s.client.phase = .idle) :
    (step s (.transfer (.call 0))).isSome = true := by
  simp [step, EchoSession.step, htodo, Session.onClient, DoRequest.step, hidle]

theorem Silent.over (h : Silent rc before after s) (hstuck : ∀ e, step s e = none) :
    s.client.phase = .idle ∧ s.todo = [] := by
  obtain hleft | ⟨base, hdr, href⟩ := h.server
  · have hsend (hp : (DoRequest.step s.client (.send .error)).isSome = true) : False := by
      apply isSome_of_none hstuck (e := .sendFails)
      rw [step, if_pos hleft]
      exact SessionEcho.onClient_isSome hp
    have hclient := h.client
    cases hp : s.client.phase with
    | idle =>
      refine ⟨rfl, ?_⟩
      cases htodo : s.todo with
      | nil => rfl
      | cons args rest => exact (isSome_of_none hstuck (isSome_call htodo hp)).elim
    | sendHeader hdr n => exact (hsend (by simp [DoRequest.step, hp, SendResult.fits])).elim
    | sendPayload hdr n => exact (hsend (by simp [DoRequest.step, hp, SendResult.fits])).elim
    | recvHeader hdr n =>
      exfalso
      apply isSome_of_none hstuck (e := .recvFails .eof)
      rw [step, if_pos ⟨hleft, rfl⟩]
      exact SessionEcho.onClient_isSome (by simp [DoRequest.step, hp, RecvResult.fits])
    | recvPayload hdr resp n => simp [hp, Unanswered] at hclient
    | stamp hdr resp => simp [hp, Unanswered] at hclient
  · exact (href.not_stuck h.serverWf hstuck).elim

theorem ordinary_not_stuck (htodo : s.todo = rest ++ large :: after)
    (h : SessionExchange.Inv rc bc before m { s with todo := rest }) (hstuck : ∀ e, step s e = none) : False := by
  cases h with
  | between hb =>
    cases rest with
    | nil => exact isSome_of_none hstuck (isSome_call htodo hb.client)
    | cons args rest => exact isSome_of_none hstuck (isSome_call htodo hb.client)
  | during r t₀ cs cr sr ss tests hd =>
    apply SessionEcho.during_not_stuck hd
    intro l
    cases hl : EchoSession.step { s with todo := rest } l with
    | none => rfl
    | some t =>
      exfalso
      obtain ⟨-, -, -, hbusy⟩ := SessionExchange.at_bounds hd.client
      by_cases hcall : ∀ now, l ≠ .call now
      · obtain ⟨-, hstep⟩ := step_todo hcall hl s.todo
        exact isSome_of_none hstuck (e := .transfer l) (by rw [step]; exact hstep ▸ rfl)
      · simp only [not_forall, not_not] at hcall
        obtain ⟨now, rfl⟩ := hcall
        cases rest with
        | nil => simp [EchoSession.step] at hl
        | cons args rest =>
          simp only [EchoSession.step] at hl
          obtain ⟨c, hc, -⟩ := onClient_some hl
          dsimp only at hc hbusy
          cases hp : s.client.phase <;> simp [DoRequest.step, hp] at hc hbusy

/-- A request whose payload is larger than the server accepts, between others that
are not. The calls before it are echoed. The server closes the connection when it
has read the header, so that this call and every later one on the connection
returns 0 without an answer, and none of them is counted by the server. The
connection does not hang. -/
theorem oversize_silences_connection (before after : List Call) (large : Call)
    (hmax : ∀ a ∈ before, a.size.toNat ≤ maxPayloadSize) (hlarge : maxPayloadSize < large.size.toNat)
    (stack stack' : Fin headerSize → UInt8) (sendBuf recvBuf : List UInt8) (serverStack : Fin headerSize → UInt8)
    (payloadBuf : List UInt8) (rc bc : UInt64) (es : List Event) (s : Session)
    (hr : Transition.run step (EchoSession.start stack stack' sendBuf recvBuf serverStack payloadBuf rc bc
      (before ++ large :: after)) es = some s) :
    ((∃ done rest, before = done ++ rest ∧ List.Forall₂ Echoed done s.client.exchanges) ∨
      ∃ xs ys, s.client.exchanges = xs ++ ys ∧ List.Forall₂ Echoed before xs ∧
        (∀ y ∈ ys, y.answer = none ∧ y.rtt = 0) ∧
        s.server.traffic.requestCount = rc + UInt64.ofNat before.length) ∧
    ((∀ e, step s e = none) → ∃ xs ys, s.client.exchanges = xs ++ ys ∧ List.Forall₂ Echoed before xs ∧
      ys.length = after.length + 1 ∧ ∀ y ∈ ys, y.answer = none ∧ y.rtt = 0) := by
  have hstart : Inv rc bc before large after
      (EchoSession.start stack stack' sendBuf recvBuf serverStack payloadBuf rc bc (before ++ large :: after)) :=
    .ordinary _ before rfl (SessionEcho.inv_start stack stack' sendBuf recvBuf serverStack payloadBuf rc bc before)
  have hinv := Transition.invariant (fun _ _ _ h hs => inv_step hmax hlarge h hs) hstart hr
  cases hinv with
  | ordinary m rest htodo h =>
    refine ⟨.inl ?_, fun hstuck => (ordinary_not_stuck htodo h hstuck).elim⟩
    cases h with
    | between hb =>
      obtain ⟨done, hcalls, hset⟩ := hb.settled
      exact ⟨done, rest, hcalls, hset.good⟩
    | during r t₀ cs cr sr ss tests hd =>
      obtain ⟨done, args, now, hcalls, -, hset⟩ := hd.settled
      exact ⟨done, _, hcalls, hset.good⟩
  | silent h =>
    obtain ⟨xs, ys, hx, hgood, hnone, hcount⟩ := h.exchanges
    refine ⟨.inr ⟨xs, ys, hx, hgood, hnone, h.requestCount⟩, ?_⟩
    intro hstuck
    obtain ⟨hidle, htodo⟩ := h.over hstuck
    refine ⟨xs, ys, hx, hgood, ?_, hnone⟩
    simpa [busy, hidle, htodo] using hcount

/-- A request that is answered, one of one byte more than the server accepts, and
an empty one after it. -/
def tooLarge : List Event :=
  [.transfer (.call 50), .transfer (.clientSend 22), .transfer .serverTest, .transfer (.serverRecv 22),
    .transfer (.clientSend 1), .transfer (.serverRecv 1), .transfer (.serverSend 22), .transfer (.clientRecv 22),
    .transfer (.serverSend 1), .transfer (.clientRecv 1), .transfer (.clientNow 90),
    .transfer (.call 100), .transfer (.clientSend 10), .transfer .serverTest, .transfer (.serverRecv 10),
    .transfer (.clientSend 12), .transfer (.serverRecv 12), .transfer (.clientSend 7), .sendFails,
    .transfer (.call 200), .transfer (.clientSend 22), .recvFails .eof]

theorem tooLarge_silences : ∃ s,
    Transition.run step (EchoSession.start (fun _ => 0) (fun _ => 0) [] [] (fun _ => 0) [] 3 70
      ([⟨0, 1, 7⟩] ++ ⟨1, 4194305, 0⟩ :: [⟨2, 0, 7⟩])) tooLarge = some s ∧
    s.server.traffic.requestCount = 4 ∧ s.client.exchanges.length = 3 ∧
    ∃ x ys, s.client.exchanges = x :: ys ∧ Echoed ⟨0, 1, 7⟩ x ∧ ∀ y ∈ ys, y.answer = none ∧ y.rtt = 0 := by
  have hrun : (Transition.run step (EchoSession.start (fun _ => 0) (fun _ => 0) [] [] (fun _ => 0) [] 3 70
      ([⟨0, 1, 7⟩] ++ ⟨1, 4194305, 0⟩ :: [⟨2, 0, 7⟩])) tooLarge).map (fun s => s.client.exchanges.length) = some 3 := by
    decide +kernel
  obtain ⟨s, hs, hlen⟩ := Option.map_eq_some_iff.mp hrun
  obtain ⟨⟨done, rest, hbefore, hgood⟩ | ⟨xs, ys, hx, hgood, hnone, hcount⟩, -⟩ := oversize_silences_connection
    [⟨0, 1, 7⟩] [⟨2, 0, 7⟩] ⟨1, 4194305, 0⟩ (by simp [maxPayloadSize]) (by decide) _ _ _ _ _ _ _ _ tooLarge s hs
  · have hdone := congrArg List.length hbefore
    rw [List.length_append, hgood.length_eq, hlen, List.length_singleton] at hdone
    omega
  · obtain ⟨x, _, hx', hnil, rfl⟩ := List.forall₂_cons_left_iff.mp hgood
    obtain rfl := List.forall₂_nil_left_iff.mp hnil
    exact ⟨s, hs, hcount, hlen, x, ys, hx, hx', hnone⟩

end DcBench.OversizeRequest

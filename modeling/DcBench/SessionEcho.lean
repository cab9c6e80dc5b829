import DcBench.SessionExchange

namespace DcBench.SessionEcho

open DcBench.Lib DcBench.Message DcBench.EchoMachine DcBench.RequestStream
open DcBench.DoRequest DcBench.ClientExchange DcBench.ServerExchange DcBench.EchoSession
open DcBench.SessionExchange

variable {rc bc : UInt64} {calls : List Call} {m cs cr sr ss tests : Nat} {s : Session} {r : Request}
  {t₀ : TcpServer.Traffic}

/-- No further system call is possible. -/
def Stuck (s : Session) : Prop := ∀ l, EchoSession.step s l = none

/-- The handler is about to test `running_` or about to read the first byte of
a header. -/
def AtBoundary (h : TcpServer.Handler) : Prop := h.phase = .loop ∨ h.phase = .recvHeader 0

theorem onServer_isSome {ev : TcpServer.Event} (hw : ServerRefinement.Wf s.server)
    (h : (EchoMachine.step (ServerRefinement.view s.server) ev).isSome) : (s.onServer ev).isSome := by
  rw [← (ServerRefinement.step_spec s.server hw ev).2, Option.isSome_map] at h
  rw [Session.onServer, Option.isSome_map]
  exact h

theorem onClient_isSome {ev : DoRequest.Event} (h : (DoRequest.step s.client ev).isSome) :
    (s.onClient ev).isSome := by
  rw [Session.onClient, Option.isSome_map]
  exact h

/-- Inside a call one of the two ends can always go on: the server when the
client waits for a byte that is not yet there. -/
theorem during_not_stuck (h : During rc bc calls m s r t₀ cs cr sr ss tests) : ¬ Stuck s := by
  intro hstuck
  have hnone {l : Label} (hl : (EchoSession.step s l).isSome) : False := by
    rw [hstuck l] at hl
    cases hl
  have hone {xs : List UInt8} {n : Nat} (hn : n = xs.length) (hpos : 0 < n) :
      1 ≤ xs.length ∧ ∃ b, xs.take 1 = [b] := by
    cases xs with
    | nil =>
      rw [hn] at hpos
      simp at hpos
    | cons b xs => exact ⟨by simp, b, rfl⟩
  have hserver (hcs : cs = headerSize + r.payload.length) (hss : ss < headerSize + r.payload.length) :
      False := by
    obtain htest | ⟨hsr, hrecv⟩ | hsend | heq := serving_enabled h.server
    · exact hnone (l := .serverTest) (onServer_isSome h.serverWf htest)
    · obtain ⟨hle, b, hb⟩ := hone (length_toServer h).symm (by omega)
      apply hnone (l := .serverRecv 1)
      rw [EchoSession.step, if_pos hle, hb]
      exact onServer_isSome h.serverWf (hrecv b)
    · exact hnone (l := .serverSend 1) (onServer_isSome h.serverWf hsend)
    · omega
  obtain ⟨-, hsend⟩ | ⟨hcs, hcr, hrecv⟩ | ⟨-, -, hnow⟩ := at_enabled h.client
  · exact hnone (l := .clientSend 1) (onClient_isSome hsend)
  · have hreply := h.reply
    by_cases hlt : cr < ss
    · obtain ⟨hle, b, hb⟩ := hone (length_toClient h).symm (by omega)
      apply hnone (l := .clientRecv 1)
      rw [EchoSession.step, if_pos hle, hb]
      exact onClient_isSome (hrecv b)
    · exact hserver hcs (by omega)
  · exact hnone (l := .clientNow 0) (onClient_isSome hnow)

theorem between_not_stuck (h : Between rc bc calls m s) (hstuck : Stuck s) : s.todo = [] := by
  cases htodo : s.todo with
  | nil => rfl
  | cons args rest =>
    have hnone := hstuck (.call 0)
    simp [EchoSession.step, htodo, Session.onClient, DoRequest.step, h.client] at hnone

theorem atBoundary_of_view {h : TcpServer.Handler} (hw : ServerRefinement.Wf h)
    (hp : (ServerRefinement.view h).phase = .idle ∨ (ServerRefinement.view h).phase = .reading []) :
    AtBoundary h := by
  have hlen := hw.hdrBuf
  have hph := hw.phase
  unfold ServerRefinement.view at hp
  cases heq : h.phase with
  | loop => exact .inl heq
  | recvHeader n =>
    have hnil : h.hdrBuf.take n = [] := by simpa [heq] using hp
    have hzero := congrArg List.length hnil
    rw [heq] at hph
    change n < headerSize at hph
    rw [List.length_take, hlen, Nat.min_eq_left hph.le] at hzero
    exact .inr (by rw [heq, hzero]; rfl)
  | recvPayload hdr n =>
    have hnil : h.hdrBuf ++ h.payloadBuf.take n = [] := by simpa [heq] using hp
    rw [(List.append_eq_nil_iff.mp hnil).1] at hlen
    cases hlen
  | headerFailed | sendHeader hdr n | sendPayload hdr n | left => simp [heq] at hp

theorem inv_start (stack stack' : Fin headerSize → UInt8) (sendBuf recvBuf : List UInt8)
    (serverStack : Fin headerSize → UInt8) (payloadBuf : List UInt8) (rc bc : UInt64) (calls : List Call) :
    Inv rc bc calls (cost calls + 1)
      (EchoSession.start stack stack' sendBuf recvBuf serverStack payloadBuf rc bc calls) := by
  refine .between ⟨⟨[], rfl, .nil, rfl, rfl, ?_, ?_⟩, rfl, rfl, ⟨?_, ?_⟩, ?_, .inl ⟨rfl, rfl⟩⟩
  · simp [EchoSession.start, TcpServer.start]
  · simp [EchoSession.start, TcpServer.start]
  · simp [EchoSession.start, DoRequest.start]
  · simp [EchoSession.start, DoRequest.start]
  · exact ServerRefinement.wf_start _ _ _ _

theorem inv_run (hmax : ∀ a ∈ calls, a.size.toNat ≤ maxPayloadSize) (hs : Inv rc bc calls m s)
    {ls : List Label} {s' : Session} (hr : Transition.run EchoSession.step s ls = some s') :
    ∃ m', m' + ls.length ≤ m ∧ Inv rc bc calls m' s' := by
  refine Transition.run_induction (motive := fun ls s' => ∃ m', m' + ls.length ≤ m ∧ Inv rc bc calls m' s')
    ?_ ?_ hr
  · exact ⟨m, le_rfl, hs⟩
  · rintro ls l t u - ⟨m', hle, hinv⟩ hstep
    obtain ⟨m'', hlt, hinv⟩ := inv_step hmax hinv hstep
    exact ⟨m'', by rw [List.length_append, List.length_singleton]; omega, hinv⟩

/-- The exchanges of `done` are over: their requests are all that was ever sent,
nothing is in flight, and the server has counted each of them once. -/
structure AtRest (rc bc : UInt64) (done : List Call) (s : Session) : Prop where
  sent : s.client.sent = s.client.exchanges.flatMap exchangeWire
  toServer : s.toServer = []
  toClient : s.toClient = []
  server : AtBoundary s.server
  requestCount : s.server.traffic.requestCount = rc + UInt64.ofNat done.length
  byteCount : s.server.traffic.byteCount =
    bc + UInt64.ofNat (done.map (fun a => headerSize + a.size.toNat)).sum

theorem sum_frameBytes (done : List Call) : (done.map frameBytes).sum =
    UInt64.ofNat (done.map (fun a => headerSize + a.size.toNat)).sum := by
  induction done with
  | nil => rfl
  | cons a done ih =>
    have ha : frameBytes a = UInt64.ofNat (headerSize + a.size.toNat) := by
      simp [frameBytes, headerSize, UInt64.ofNat_add]
    rw [List.map_cons, List.map_cons, List.sum_cons, List.sum_cons, UInt64.ofNat_add, ih, ha]

theorem atRest_of_between (h : Between rc bc calls m s) : ∃ done, calls = done ++ s.todo ∧
    List.Forall₂ Echoed done s.client.exchanges ∧ AtRest rc bc done s := by
  obtain ⟨done, hcalls, hset⟩ := h.settled
  refine ⟨done, hcalls, hset.good, hset.sent, ?_, ?_, ?_, hset.requestCount, ?_⟩
  · simp [Session.toServer, hset.received]
  · simp [Session.toClient, h.received]
  · exact atBoundary_of_view h.serverWf (h.server.imp And.left And.left)
  · rw [hset.byteCount, sum_frameBytes]

/-- Calls of `do_request` on one connection, under every fragmentation of the
two byte streams. Each finished call has read back its own header as a response
and its own payload, both ends rest at a message boundary between calls, and no
run can go on forever or stop before the last call has returned. -/
theorem every_call_is_echoed (calls : List Call) (hmax : ∀ a ∈ calls, a.size.toNat ≤ maxPayloadSize)
    (stack stack' : Fin headerSize → UInt8) (sendBuf recvBuf : List UInt8)
    (serverStack : Fin headerSize → UInt8) (payloadBuf : List UInt8) (rc bc : UInt64) (ls : List Label)
    (s : Session) (hr : Transition.run EchoSession.step
      (EchoSession.start stack stack' sendBuf recvBuf serverStack payloadBuf rc bc calls) ls = some s) :
    (∃ done rest, calls = done ++ rest ∧ List.Forall₂ Echoed done s.client.exchanges ∧
      (s.client.phase = .idle → s.todo = rest ∧ AtRest rc bc done s)) ∧
    ls.length ≤ cost calls + 1 ∧ (Stuck s → s.client.phase = .idle ∧ s.todo = []) := by
  obtain ⟨m, hm, hinv⟩ := inv_run hmax (inv_start stack stack' sendBuf recvBuf serverStack payloadBuf rc bc calls) hr
  refine ⟨?_, by omega, ?_⟩
  · cases hinv with
    | between h =>
      obtain ⟨done, hcalls, hgood, hrest⟩ := atRest_of_between h
      exact ⟨done, s.todo, hcalls, hgood, fun _ => ⟨rfl, hrest⟩⟩
    | during r t₀ cs cr sr ss tests h =>
      obtain ⟨done, args, now, hcalls, -, hset⟩ := h.settled
      obtain ⟨-, -, -, hidle⟩ := at_bounds h.client
      exact ⟨done, args :: s.todo, hcalls, hset.good, fun hp => absurd hp hidle⟩
  · intro hstuck
    cases hinv with
    | between h => exact ⟨h.client, between_not_stuck h hstuck⟩
    | during r t₀ cs cr sr ss tests h => exact absurd hstuck (during_not_stuck h)

/-- One call with a payload of one byte, sent and answered in pieces. -/
def fragmented : List Label :=
  [.call 100, .clientSend 10, .serverTest, .serverRecv 4, .clientSend 12, .clientSend 1, .serverRecv 18,
    .serverRecv 1, .serverSend 22, .clientRecv 22, .serverSend 1, .clientRecv 1, .clientNow 130]

/-- A connection whose buffers all hold bytes of earlier, longer messages. -/
def reused : Session :=
  EchoSession.start (fun _ => 1) (fun _ => 2) [9, 8] [7, 7, 7] (fun _ => 3) [5, 5, 5] 4 40 [⟨6, 1, 2⟩]

theorem fragmented_call_is_echoed : ∃ s, Transition.run EchoSession.step reused fragmented = some s ∧
    List.Forall₂ Echoed [⟨6, 1, 2⟩] s.client.exchanges ∧ AtRest 4 40 [⟨6, 1, 2⟩] s := by
  have hrun : (Transition.run EchoSession.step reused fragmented).map
      (fun s => (s.client.phase, s.todo)) = some (.idle, []) := by decide +kernel
  obtain ⟨s, hs, hp⟩ := Option.map_eq_some_iff.mp hrun
  obtain ⟨hphase, htodo⟩ := Prod.mk.inj hp
  obtain ⟨⟨done, rest, hcalls, hgood, hidle⟩, -, -⟩ :=
    every_call_is_echoed [⟨6, 1, 2⟩] (by decide) _ _ _ _ _ _ _ _ _ s hs
  obtain ⟨hrest, hat⟩ := hidle hphase
  obtain rfl : done = [⟨6, 1, 2⟩] := by
    rw [← hrest, htodo, List.append_nil] at hcalls
    exact hcalls.symm
  exact ⟨s, hs, hgood, hat⟩

end DcBench.SessionEcho

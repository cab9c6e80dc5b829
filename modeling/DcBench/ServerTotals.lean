import DcBench.ServerSystem
import Mathlib.Algebra.BigOperators.Pi

namespace DcBench.ServerTotals

open DcBench.Lib DcBench.Message DcBench.ExactTransfer DcBench.TcpServer DcBench.EchoMachine DcBench.ServerSystem

/-- Decoded requests that are not in `request_count_`: the one whose payload is
being read, or the one a connection was given up for. -/
def Uncounted (n : Nat) : EchoMachine.Phase → Prop
  | .reading got => n = if headerSize ≤ got.length then 1 else 0
  | .left => n ≤ 1
  | .idle | .headerFailed | .reply _ _ => n = 0

/-- Bytes that are in `byte_count_` and have not been sent back. -/
def Unsent (n : Nat) : EchoMachine.Phase → Prop
  | .reply frame k => k + n = frame.length ∧ headerSize ≤ frame.length ∧ frame.length ≤ headerSize + maxPayloadSize
  | .left => n ≤ headerSize + maxPayloadSize
  | .idle | .headerFailed | .reading _ => n = 0

/-- What the counters of a connection say about its traffic. -/
structure Tallied (e : Echo) (uncounted unsent : Nat) : Prop where
  requests : e.traffic.requestCount + UInt64.ofNat uncounted = UInt64.ofNat e.traffic.decoded.length
  bytes : e.traffic.byteCount = UInt64.ofNat (e.traffic.sent.length + unsent)
  uncounted : Uncounted uncounted e.phase
  unsent : Unsent unsent e.phase
  accepted : ∀ got, e.phase = .reading got → headerSize ≤ got.length → payloadSize got ≤ maxPayloadSize

theorem ofNat_frame (got : List UInt8) :
    22 + (deserializeHeader got).payloadSize.toUInt64 = UInt64.ofNat (headerSize + payloadSize got) := by
  simp [payloadSize, headerSize, UInt64.ofNat_add]

theorem tallied_onBytes {t : Traffic} {got : List UInt8}
    (hreq : t.requestCount + 1 = UInt64.ofNat t.decoded.length) (hbytes : t.byteCount = UInt64.ofNat t.sent.length)
    (hge : headerSize ≤ got.length) (hle : got.length ≤ headerSize + payloadSize got)
    (hmax : payloadSize got ≤ maxPayloadSize) : ∃ m n, Tallied (onBytes t got) m n := by
  unfold onBytes
  by_cases hl : got.length < headerSize + payloadSize got
  · rw [if_pos hl]
    refine ⟨1, 0, hreq, hbytes, (if_pos hge).symm, rfl, ?_⟩
    rintro _ ⟨⟩ _
    exact hmax
  · rw [if_neg hl]
    have hlen : (answer got).length = headerSize + payloadSize got := by
      rw [answer, List.length_set]
      omega
    refine ⟨0, (answer got).length, ?_, ?_, rfl, ⟨Nat.zero_add _, by omega, by omega⟩, fun _ he => by cases he⟩
    · rw [Traffic.count_requestCount, Traffic.count_decoded, hreq]
      exact add_zero _
    · rw [Traffic.count_byteCount, Traffic.count_sent, hbytes, ofNat_frame, hlen, UInt64.ofNat_add _ (_ + _)]

theorem tallied_move {e e' : Echo} {ev : TcpServer.Event} (hm : Move e ev e') {m n : Nat} (h : Tallied e m n) :
    ∃ m' n', Tallied e' m' n' := by
  obtain ⟨hreq, hbytes, hun, hsent, hacc⟩ := h
  cases hm with
  | enter t => exact ⟨m, n, hreq, hbytes, hun.trans (if_neg (by simp [headerSize])).symm, hsent, by simp [headerSize]⟩
  | retry t => exact ⟨m, n, hreq, hbytes, hun, hsent, fun _ he => by cases he⟩
  | stop p t hp =>
    obtain rfl | rfl := hp
    all_goals
      obtain rfl : m = 0 := hun
      obtain rfl : n = 0 := hsent
      exact ⟨0, 0, hreq, hbytes, Nat.zero_le _, Nat.zero_le _, fun _ he => by cases he⟩
  | header t got bs hb hl =>
    have hlt : got.length < headerSize := by
      rw [List.length_append] at hl
      omega
    refine ⟨m, n, hreq, hbytes, ?_, hsent, ?_⟩
    · exact hun.trans ((if_neg (by omega)).trans (if_neg (by omega)).symm)
    · rintro _ ⟨⟩ hge
      omega
  | oversize t got bs hg hl hs =>
    obtain rfl : m = 0 := hun.trans (if_neg (by omega))
    obtain rfl : n = 0 := hsent
    refine ⟨1, 0, ?_, hbytes, Nat.le_refl _, Nat.zero_le _, fun _ he => by cases he⟩
    have hcount : t.requestCount = UInt64.ofNat t.decoded.length := (add_zero _).symm.trans hreq
    simp only [Traffic.decode_requestCount, Traffic.receive_requestCount, Traffic.decode_decoded,
      Traffic.receive_decoded, List.length_append, List.length_singleton, UInt64.ofNat_add, hcount]
  | accept t got bs hg hl hs =>
    obtain rfl : m = 0 := hun.trans (if_neg (by omega))
    obtain rfl : n = 0 := hsent
    have hcount : t.requestCount = UInt64.ofNat t.decoded.length := (add_zero _).symm.trans hreq
    refine tallied_onBytes ?_ hbytes (by omega) (by omega) hs
    simp only [Traffic.decode_requestCount, Traffic.receive_requestCount, Traffic.decode_decoded,
      Traffic.receive_decoded, List.length_append, List.length_singleton, UInt64.ofNat_add, hcount]
    rfl
  | payload t got bs hb hg hl =>
    obtain rfl : m = 1 := hun.trans (if_pos hg)
    obtain rfl : n = 0 := hsent
    refine tallied_onBytes hreq hbytes (by rw [List.length_append]; omega) ?_ ?_
    · rw [payloadSize_append _ _ hg]
      exact hl
    · rw [payloadSize_append _ _ hg]
      exact hacc got rfl hg
  | cut t got r hr hg =>
    exact ⟨m, n, hreq, hbytes, hun.trans (if_neg (by omega)), hsent, fun _ he => by cases he⟩
  | broken t got r hr hg =>
    obtain rfl : m = 1 := hun.trans (if_pos hg)
    obtain rfl : n = 0 := hsent
    exact ⟨1, 0, hreq, hbytes, Nat.le_refl _, Nat.zero_le _, fun _ he => by cases he⟩
  | sendSome t frame k l hl hf =>
    obtain rfl : m = 0 := hun
    obtain ⟨hlen, hge, hmax⟩ := hsent
    have hroom : l ≤ frame.length - k := by
      unfold replyRoom at hf
      split at hf <;> omega
    have hb : UInt64.ofNat (t.sent.length + n) = UInt64.ofNat ((t.send ((frame.drop k).take l)).sent.length + (n - l)) := by
      rw [Traffic.send_sent, List.length_append, List.length_take, List.length_drop]
      congr 1
      omega
    refine ⟨0, n - l, hreq, hbytes.trans hb, ?_, ?_, ?_⟩
    · by_cases hk : k + l < frame.length
      · simp only [hk, if_true]
        rfl
      · simp only [hk, if_false]
        rfl
    · by_cases hk : k + l < frame.length
      · simp only [hk, if_true]
        exact ⟨by omega, hge, hmax⟩
      · simp only [hk, if_false]
        change n - l = 0
        omega
    · intro got he
      split at he <;> cases he
  | sendError t frame k =>
    obtain rfl : m = 0 := hun
    obtain ⟨hlen, -, hmax⟩ := hsent
    exact ⟨0, n, hreq, hbytes, Nat.zero_le _, by change n ≤ _; omega, fun _ he => by cases he⟩

theorem tallied_run {stack : Fin headerSize → UInt8} {es : List TcpServer.Event} {h : Handler}
    (hr : Transition.run TcpServer.step (TcpServer.start stack [] 0 0) es = some h) :
    ∃ m n, Tallied (ServerRefinement.view h) m n := by
  have hview := ServerRefinement.run_view stack [] 0 0 es
  rw [hr] at hview
  have hstart : Tallied (EchoMachine.start 0 0) 0 0 := ⟨rfl, rfl, rfl, rfl, fun _ he => by cases he⟩
  refine Transition.invariant (P := fun e => ∃ m n, Tallied e m n) ?_ ⟨0, 0, hstart⟩ hview.symm
  rintro e ev e' ⟨m, n, ht⟩ he
  exact tallied_move (move_of_step he) ht

theorem sum_ofNat {ι : Type} (S : Finset ι) (f : ι → Nat) :
    ∑ j ∈ S, UInt64.ofNat (f j) = UInt64.ofNat (∑ j ∈ S, f j) :=
  (map_sum (AddMonoidHom.mk' UInt64.ofNat UInt64.ofNat_add) f S).symm

/-- The connection is at the start of a message: nothing of a request is read
that has not been answered. -/
def AtBoundary (h : Handler) : Prop := h.phase = .loop ∨ h.phase = .headerFailed ∨ h.phase = .recvHeader 0

theorem tallied_atBoundary {h : Handler} {m n : Nat} (ht : Tallied (ServerRefinement.view h) m n) (hb : AtBoundary h) :
    m = 0 ∧ n = 0 := by
  obtain ⟨-, -, hm, hn, -⟩ := ht
  obtain hp | hp | hp := hb
  all_goals simp only [ServerRefinement.view, hp] at hm hn
  · exact ⟨hm, hn⟩
  · exact ⟨hm, hn⟩
  · exact ⟨hm, hn⟩

/-- No update of the two counters is lost, whatever the connections do at the
same time. Each connection behaves as if it were alone; `total_requests` is the
number of requests decoded on all connections and `total_bytes` the number of
bytes sent back, except for at most one request and one reply on each connection
that is not at a message boundary. -/
theorem counters_add_up (listenFd : Nat) (opened : List Nat) (stack : Nat → Fin headerSize → UInt8)
    {es : List ServerSystem.Event} {s : ServerSystem.State}
    (hr : Transition.run ServerSystem.step (ServerSystem.start listenFd opened stack) es = some s) :
    ∃ alone : Nat → Handler, ∃ uncounted unsent : Nat → Nat,
      (∀ j, Transition.run TcpServer.step (TcpServer.start (stack j) [] 0 0)
        (Shared.eventsOf j (es.filterMap handlerEvent)) = some (alone j)) ∧
      (∀ j, ∃ rc bc, s.handlers j = load rc bc (alone j)) ∧
      s.requestCount + UInt64.ofNat (∑ j ∈ Finset.range s.sockets.handlers.length, uncounted j) =
        UInt64.ofNat (∑ j ∈ Finset.range s.sockets.handlers.length, (alone j).traffic.decoded.length) ∧
      s.byteCount = UInt64.ofNat (∑ j ∈ Finset.range s.sockets.handlers.length,
        ((alone j).traffic.sent.length + unsent j)) ∧
      ∀ j, uncounted j ≤ 1 ∧ unsent j ≤ headerSize + maxPayloadSize ∧
        (AtBoundary (alone j) → uncounted j = 0 ∧ unsent j = 0) := by
  have hshared := Simulation.run_trace (fun _ _ _ h _ => h) follows trivial hr
  rw [Simulation.trace_eq_filterMap hr] at hshared
  obtain ⟨alone, hrun, heq, htotal⟩ := Shared.alone_of_run hshared
  have hall := htotal (Finset.range s.sockets.handlers.length)
    (fun e he => Finset.mem_range.mpr (mem_handlerEvents hr e he))
  have htally (j : Nat) := tallied_run (hrun j)
  choose uncounted unsent htally using htally
  have hreq : s.requestCount = ∑ j ∈ Finset.range s.sockets.handlers.length, (alone j).traffic.requestCount := by
    have h := congrArg Prod.fst hall
    simpa [handling, counting, ServerSystem.start, TcpServer.start, Prod.fst_sum] using h
  have hbytes : s.byteCount = ∑ j ∈ Finset.range s.sockets.handlers.length, (alone j).traffic.byteCount := by
    have h := congrArg Prod.snd hall
    simpa [handling, counting, ServerSystem.start, TcpServer.start, Prod.snd_sum] using h
  refine ⟨alone, uncounted, unsent, hrun, ?_, ?_, ?_, ?_⟩
  · intro j
    obtain ⟨a, ha⟩ := heq j
    exact ⟨_, _, ha⟩
  · rw [hreq, ← sum_ofNat, ← Finset.sum_add_distrib, ← sum_ofNat]
    exact Finset.sum_congr rfl (fun j _ => (htally j).requests)
  · rw [hbytes, ← sum_ofNat]
    exact Finset.sum_congr rfl (fun j _ => (htally j).bytes)
  · intro j
    refine ⟨?_, ?_, tallied_atBoundary (htally j)⟩
    · have hun := (htally j).uncounted
      cases hp : (ServerRefinement.view (alone j)).phase with
      | reading got =>
        simp only [hp, Uncounted] at hun
        split at hun <;> omega
      | left | idle | headerFailed | reply frame k =>
        simp only [hp, Uncounted] at hun
        omega
    · have hun := (htally j).unsent
      cases hp : (ServerRefinement.view (alone j)).phase with
      | reply frame k =>
        simp only [hp, Unsent] at hun
        omega
      | left | idle | headerFailed | reading got =>
        simp only [hp, Unsent] at hun
        omega

/-- Two connections with one empty request each, served at the same time. -/
def interleaved : List ServerSystem.Event :=
  let ping (id : UInt64) := serializeHeader ⟨id, 0, 7, request, 9⟩
  [.socket .test, .socket (.accept (some 4)), .socket .register, .socket .spawn, .socket .test,
    .socket (.accept (some 5)), .handler 0 (.running true), .socket .register, .socket .spawn,
    .handler 1 (.running true), .handler 0 (.recv (.data ((ping 1).take 5))), .handler 1 (.recv (.data (ping 2))),
    .handler 0 (.recv (.data ((ping 1).drop 5))), .handler 1 (.send (.sent 22)), .handler 0 (.send (.sent 22))]

theorem interleaved_adds_up : ∃ s, Transition.run ServerSystem.step (ServerSystem.start 3 [0, 1, 2] (fun _ _ => 0))
    interleaved = some s ∧ s.requestCount = 2 ∧ s.byteCount = 44 ∧ ∃ alone : Nat → Handler, ∃ unsent : Nat → Nat,
      (∀ j, Transition.run TcpServer.step (TcpServer.start (fun _ => 0) [] 0 0)
        (Shared.eventsOf j (interleaved.filterMap handlerEvent)) = some (alone j)) ∧
      s.byteCount = UInt64.ofNat (∑ j ∈ Finset.range s.sockets.handlers.length,
        ((alone j).traffic.sent.length + unsent j)) := by
  have hrun : (Transition.run ServerSystem.step (ServerSystem.start 3 [0, 1, 2] (fun _ _ => 0)) interleaved).map
      (fun s => (s.requestCount, s.byteCount)) = some (2, 44) := by decide +kernel
  obtain ⟨s, hs, hcounts⟩ := Option.map_eq_some_iff.mp hrun
  obtain ⟨alone, -, unsent, hruns, -, -, hbytes, -⟩ := counters_add_up _ _ _ hs
  exact ⟨s, hs, congrArg Prod.fst hcounts, congrArg Prod.snd hcounts, alone, unsent, hruns, hbytes⟩

end DcBench.ServerTotals

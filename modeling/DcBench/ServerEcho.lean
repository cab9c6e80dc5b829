import DcBench.Lib.Segments
import DcBench.ServerTracking

namespace DcBench.ServerEcho

open DcBench.Lib DcBench.Lib.Segments DcBench.Message DcBench.ExactTransfer DcBench.TcpServer
open DcBench.EchoMachine DcBench.ServerTracking

/-- A request as it stands in the stream: 22 bytes of header, then as many bytes
as its little-endian size field says, within the limit. -/
def IsFrame (seg : List UInt8) : Prop :=
  seg.length = headerSize + LittleEndian.decode ((seg.drop 8).take 4) ∧
    LittleEndian.decode ((seg.drop 8).take 4) ≤ maxPayloadSize

def replies (segs : List (List UInt8)) : List UInt8 := (segs.map answer).flatten

theorem replies_concat (segs : List (List UInt8)) (seg : List UInt8) :
    replies (segs ++ [seg]) = replies segs ++ answer seg := by
  simp [replies]

theorem length_replies (segs : List (List UInt8)) : (replies segs).length = segs.flatten.length := by
  have h : (segs.map answer).map List.length = segs.map List.length := by
    simp [answer, Function.comp_def]
  rw [replies, List.length_flatten, h, List.length_flatten]

theorem isFrame_of_size {seg : List UInt8} (hl : seg.length = headerSize + payloadSize seg)
    (hs : payloadSize seg ≤ maxPayloadSize) : IsFrame seg := by
  rw [payloadSize, toNat_payloadSize_deserialize] at hl hs
  exact ⟨hl, hs⟩

/-- What has been sent is made of requests found in the received bytes; the
last of them may still be on its way out. -/
inductive Echoed : Echo → Prop
  | between (p : EchoMachine.Phase) (t : Traffic) (segs : List (List UInt8))
      (hp : p = .idle ∨ p = .headerFailed) (hf : ∀ s ∈ segs, IsFrame s)
      (ho : Occurs segs t.received) (hs : t.sent = replies segs) : Echoed ⟨p, t⟩
  | reading (got : List UInt8) (t : Traffic) (segs : List (List UInt8)) (before : List UInt8)
      (hr : t.received = before ++ got) (hm : headerSize ≤ got.length → payloadSize got ≤ maxPayloadSize)
      (hf : ∀ s ∈ segs, IsFrame s) (ho : Occurs segs before) (hs : t.sent = replies segs) :
      Echoed ⟨.reading got, t⟩
  | replying (k : Nat) (t : Traffic) (segs : List (List UInt8)) (seg : List UInt8)
      (hf : ∀ s ∈ segs ++ [seg], IsFrame s) (ho : Occurs (segs ++ [seg]) t.received)
      (hs : t.sent = replies segs ++ (answer seg).take k) : Echoed ⟨.reply (answer seg) k, t⟩
  | left (t : Traffic) (segs : List (List UInt8)) (hf : ∀ s ∈ segs, IsFrame s)
      (ho : Occurs segs t.received) (hs : t.sent <+: replies segs) : Echoed ⟨.left, t⟩

theorem Echoed.frames {e : Echo} (h : Echoed e) :
    ∃ segs, (∀ s ∈ segs, IsFrame s) ∧ Occurs segs e.traffic.received ∧
      e.traffic.sent <+: replies segs := by
  cases h with
  | between p t segs hp hf ho hs => exact ⟨segs, hf, ho, hs ▸ List.prefix_rfl⟩
  | reading got t segs before hr hm hf ho hs =>
    refine ⟨segs, hf, ?_, hs ▸ List.prefix_rfl⟩
    rw [hr]
    exact ho.append got
  | replying k t segs seg hf ho hs =>
    refine ⟨segs ++ [seg], hf, ho, ?_⟩
    rw [hs, replies_concat]
    exact (List.prefix_append_right_inj _).mpr (List.take_prefix _ _)
  | left t segs hf ho hs => exact ⟨segs, hf, ho, hs⟩

theorem Echoed.leave {e : Echo} (h : Echoed e) : Echoed ⟨.left, e.traffic⟩ := by
  obtain ⟨segs, hf, ho, hs⟩ := h.frames
  exact .left _ segs hf ho hs

theorem echoed_onBytes {t : Traffic} {segs : List (List UInt8)} {before got : List UInt8}
    (hr : t.received = before ++ got) (hm : payloadSize got ≤ maxPayloadSize)
    (hl : got.length ≤ headerSize + payloadSize got) (hf : ∀ s ∈ segs, IsFrame s)
    (ho : Occurs segs before) (hs : t.sent = replies segs) : Echoed (onBytes t got) := by
  unfold onBytes
  by_cases hlt : got.length < headerSize + payloadSize got
  · rw [if_pos hlt]
    exact .reading got t segs before hr (fun _ => hm) hf ho hs
  · rw [if_neg hlt]
    have hg : IsFrame got := isFrame_of_size (by omega) hm
    refine .replying 0 _ segs got ?_ ?_ ?_
    · intro s hmem
      obtain h | h := List.mem_append.mp hmem
      · exact hf s h
      · rw [List.mem_singleton.mp h]
        exact hg
    · rw [Traffic.count_received, hr]
      exact ho.concat got
    · simpa using hs

theorem Echoed.inMessage {got : List UInt8} {t : Traffic} (h : Echoed ⟨.reading got, t⟩) :
    ∃ segs before, t.received = before ++ got ∧ (headerSize ≤ got.length → payloadSize got ≤ maxPayloadSize) ∧
      (∀ s ∈ segs, IsFrame s) ∧ Occurs segs before ∧ t.sent = replies segs := by
  cases h with
  | between _ _ _ hp _ _ _ => simp at hp
  | reading _ _ segs before hr hm hf ho hs => exact ⟨segs, before, hr, hm, hf, ho, hs⟩

theorem echoed_send {frame : List UInt8} {k : Nat} {t : Traffic} (n : Nat) (h : Echoed ⟨.reply frame k, t⟩) :
    Echoed ⟨if k + n < frame.length then .reply frame (k + n) else .idle, t.send ((frame.drop k).take n)⟩ := by
  cases h with
  | between _ _ _ hp _ _ _ => simp at hp
  | replying _ _ segs seg hf ho hs =>
    have hsent : (t.send (((answer seg).drop k).take n)).sent = replies segs ++ (answer seg).take (k + n) := by
      rw [Traffic.send_sent, hs, List.append_assoc, List.take_add]
    by_cases hlt : k + n < (answer seg).length
    · rw [if_pos hlt]
      exact .replying _ _ segs seg hf ho hsent
    · rw [if_neg hlt]
      refine .between _ _ (segs ++ [seg]) (.inl rfl) hf ho ?_
      rw [hsent, List.take_of_length_le (Nat.le_of_not_lt hlt), replies_concat]

theorem echoed_move {e e' : Echo} {ev : Event} (hm : Move e ev e') (h : Echoed e) : Echoed e' := by
  cases hm with
  | enter t =>
    cases h with
    | between _ _ segs hp hf ho hs =>
      exact .reading [] t segs t.received (by simp) (fun h => absurd h (by decide)) hf ho hs
  | retry t =>
    cases h with
    | between _ _ segs hp hf ho hs => exact .between _ t segs (.inl rfl) hf ho hs
  | stop p t hp => exact h.leave
  | broken t got r hr hg => exact h.leave
  | sendError t frame k => exact h.leave
  | cut t got r hr hg =>
    obtain ⟨segs, before, hrec, -, hf, ho, hs⟩ := h.inMessage
    refine .between _ t segs (.inr rfl) hf ?_ hs
    rw [hrec]
    exact ho.append got
  | header t got bs hb hl =>
    obtain ⟨segs, before, hrec, -, hf, ho, hs⟩ := h.inMessage
    refine .reading _ _ segs before (by simp [hrec]) ?_ hf ho hs
    intro hge
    omega
  | oversize t got bs hg hl hsize =>
    obtain ⟨segs, before, hrec, -, hf, ho, hs⟩ := h.inMessage
    refine .left _ segs hf ?_ ?_
    · simp only [Traffic.decode_received, Traffic.receive_received, hrec, List.append_assoc]
      exact ho.append _
    · simp [hs]
  | accept t got bs hg hl hsize =>
    obtain ⟨segs, before, hrec, -, hf, ho, hs⟩ := h.inMessage
    exact echoed_onBytes (by simp [hrec]) hsize (by omega) hf ho hs
  | payload t got bs hb hg hl =>
    obtain ⟨segs, before, hrec, hm, hf, ho, hs⟩ := h.inMessage
    have hp := payloadSize_append got bs hg
    exact echoed_onBytes (by simp [hrec]) (hp ▸ hm hg) (by omega) hf ho hs
  | sendSome t frame k n hn hfit => exact echoed_send n h

theorem echoed_run {rc bc : UInt64} {es : List Event} {e : Echo}
    (hr : Transition.run EchoMachine.step (EchoMachine.start rc bc) es = some e) :
    Echoed e ∧ e.traffic.received = delivered es := by
  refine Transition.run_induction
    (motive := fun es e => Echoed e ∧ e.traffic.received = delivered es) ?_ ?_ hr
  · exact ⟨.between _ _ [] (.inl rfl) (by simp) (.nil _) rfl, rfl⟩
  · intro es ev t u _ ih hstep
    have hm := move_of_step hstep
    refine ⟨echoed_move hm ih.1, ?_⟩
    rw [received_move hm, ih.2, delivered_append]
    simp [delivered]

theorem length_payloadBuf_onHeader (h : Handler) :
    h.onHeader.payloadBuf.length ≤ max h.payloadBuf.length maxPayloadSize := by
  simp only [Handler.onHeader]
  split
  · exact le_max_left _ _
  · split
    · rw [Buffer.length_growTo]
      exact max_le_max le_rfl (by omega)
    · exact le_max_left _ _

theorem length_payloadBuf_step {h h' : Handler} {ev : Event} (hw : ServerRefinement.Wf h)
    (hs : TcpServer.step h ev = some h') :
    h'.payloadBuf.length ≤ max h.payloadBuf.length maxPayloadSize := by
  have hle : h.payloadBuf.length ≤ max h.payloadBuf.length maxPayloadSize := le_max_left _ _
  obtain ⟨-, hph⟩ := hw
  cases ev with
  | running b =>
    cases hp : h.phase <;> simp [TcpServer.step, hp] at hs <;> subst hs <;> exact hle
  | recv r =>
    cases hp : h.phase with
    | recvHeader n =>
      simp only [TcpServer.step, hp, Option.ite_none_right_eq_some, Option.some.injEq] at hs
      obtain ⟨-, rfl⟩ := hs
      cases r with
      | eof | error => exact hle
      | data bs =>
        simp only [Handler.recvHeader, recvExact]
        split
        · exact hle
        · exact length_payloadBuf_onHeader _
        · exact hle
    | recvPayload hdr n =>
      rw [hp] at hph
      obtain ⟨-, hn, hlen⟩ := hph
      simp only [TcpServer.step, hp, Option.ite_none_right_eq_some, Option.some.injEq] at hs
      obtain ⟨hfit, rfl⟩ := hs
      cases r with
      | eof | error => exact hle
      | data bs =>
        have hb : 0 < bs.length ∧ bs.length ≤ hdr.payloadSize.toNat - n := by
          simpa [RecvResult.fits] using hfit
        have hlw := Buffer.length_write h.payloadBuf n bs (by omega)
        simp only [Handler.recvPayload, recvExact]
        split <;> exact hlw.trans_le hle
    | loop | headerFailed | sendHeader hdr n | sendPayload hdr n | left => simp [TcpServer.step, hp] at hs
  | send r =>
    cases hp : h.phase with
    | sendHeader hdr n =>
      simp only [TcpServer.step, hp, Option.ite_none_right_eq_some, Option.some.injEq] at hs
      obtain ⟨-, rfl⟩ := hs
      simp only [Handler.sendHeader]
      split <;> exact hle
    | sendPayload hdr n =>
      simp only [TcpServer.step, hp, Option.ite_none_right_eq_some, Option.some.injEq] at hs
      obtain ⟨-, rfl⟩ := hs
      simp only [Handler.sendPayload]
      split <;> exact hle
    | loop | headerFailed | recvHeader n | recvPayload hdr n | left => simp [TcpServer.step, hp] at hs

theorem length_payloadBuf_run {stack : Fin headerSize → UInt8} {payloadBuf : List UInt8} {rc bc : UInt64}
    {es : List Event} {h : Handler}
    (hr : Transition.run TcpServer.step (TcpServer.start stack payloadBuf rc bc) es = some h) :
    h.payloadBuf.length ≤ max payloadBuf.length maxPayloadSize := by
  have hinv : ServerRefinement.Wf h ∧ h.payloadBuf.length ≤ max payloadBuf.length maxPayloadSize := by
    refine Transition.invariant (P := fun h => ServerRefinement.Wf h ∧
      h.payloadBuf.length ≤ max payloadBuf.length maxPayloadSize) ?_ ?_ hr
    · intro s e t hs ht
      refine ⟨(ServerRefinement.step_spec s hs.1 e).1 t ht, ?_⟩
      have hstep := length_payloadBuf_step hs.1 ht
      omega
    · exact ⟨ServerRefinement.wf_start stack payloadBuf rc bc, le_max_left _ _⟩
  exact hinv.2

/-- Whatever arrives and whatever fails, the server sends back only requests
found in this connection's own bytes, with byte 13 set to 2. The old contents
of the thread's buffers have no influence on anything the connection does. -/
theorem sent_only_received_requests (stack : Fin headerSize → UInt8) (payloadBuf : List UInt8)
    (rc bc : UInt64) (es : List Event) (h : Handler)
    (hr : Transition.run TcpServer.step (TcpServer.start stack payloadBuf rc bc) es = some h) :
    (∃ segs, (∀ s ∈ segs, IsFrame s) ∧ Occurs segs (delivered es) ∧
      h.traffic.sent <+: (segs.map (fun s => s.set 13 2)).flatten) ∧
    (∀ stack' payloadBuf', ∃ h',
      Transition.run TcpServer.step (TcpServer.start stack' payloadBuf' rc bc) es = some h' ∧
        h'.traffic = h.traffic) ∧
    h.traffic.sent.length ≤ (delivered es).length ∧
    h.payloadBuf.length ≤ max payloadBuf.length maxPayloadSize := by
  have hview := ServerRefinement.run_view stack payloadBuf rc bc es
  rw [hr] at hview
  obtain ⟨hecho, hrec⟩ := echoed_run hview.symm
  change h.traffic.received = delivered es at hrec
  obtain ⟨segs, hf, ho, hs⟩ := hecho.frames
  change Occurs segs h.traffic.received at ho
  change h.traffic.sent <+: replies segs at hs
  rw [hrec] at ho
  refine ⟨⟨segs, hf, ho, hs⟩, ?_, ?_, length_payloadBuf_run hr⟩
  · intro stack' payloadBuf'
    have hview' := ServerRefinement.run_view stack' payloadBuf' rc bc es
    rw [← hview] at hview'
    obtain ⟨h', hr', hv⟩ := Option.map_eq_some_iff.mp hview'
    exact ⟨h', hr', congrArg Echo.traffic hv⟩
  · have hlen := hs.length_le
    rw [length_replies] at hlen
    exact hlen.trans ho.length_le

/-- A timeout inside a header, then a request with one payload byte in a buffer
that holds three old ones, and a peer that takes the reply in pieces. -/
def interrupted : List Event :=
  let frame := serializeHeader ⟨5, 1, 7, request, 1000⟩ ++ [9]
  [.running true, .recv (.data [200]), .recv .error, .running true, .running true,
    .recv (.data (frame.take 10)), .recv (.data ((frame.drop 10).take 12)), .recv (.data [9]),
    .send (.sent 20), .send (.sent 2), .send (.sent 1), .running true, .recv .eof]

theorem interrupted_sent_only_received_requests :
    ∃ h segs, Transition.run TcpServer.step (TcpServer.start (fun _ => 77) [1, 2, 3] 0 0) interrupted = some h ∧
      h.traffic.sent.length = 23 ∧ (∀ s ∈ segs, IsFrame s) ∧ Occurs segs (delivered interrupted) ∧
      h.traffic.sent <+: (segs.map (fun s => s.set 13 2)).flatten := by
  have hrun : (Transition.run TcpServer.step (TcpServer.start (fun _ => 77) [1, 2, 3] 0 0) interrupted).map
      (fun h => h.traffic.sent.length) = some 23 := by decide +kernel
  obtain ⟨h, hh, hl⟩ := Option.map_eq_some_iff.mp hrun
  obtain ⟨⟨segs, hf, ho, hs⟩, -⟩ := sent_only_received_requests _ _ _ _ _ h hh
  exact ⟨h, segs, hh, hl, hf, ho, hs⟩

end DcBench.ServerEcho

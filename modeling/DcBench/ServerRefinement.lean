import DcBench.EchoMachine

namespace DcBench.ServerRefinement

open DcBench.Lib DcBench.Message DcBench.ExactTransfer DcBench.TcpServer DcBench.EchoMachine

/-- What the buffers of a handler mean. Only the bytes that the current turn
has stored count; the rest of `payload_buf` is old data. -/
def view (h : Handler) : Echo where
  phase :=
    match h.phase with
    | .loop => .idle
    | .recvHeader n => .reading (h.hdrBuf.take n)
    | .headerFailed => .headerFailed
    | .recvPayload _ n => .reading (h.hdrBuf ++ h.payloadBuf.take n)
    | .sendHeader hdr n => .reply (h.hdrBuf ++ h.payloadBuf.take hdr.payloadSize.toNat) n
    | .sendPayload hdr n =>
      .reply (h.hdrBuf ++ h.payloadBuf.take hdr.payloadSize.toNat) (headerSize + n)
    | .left => .left
  traffic := h.traffic

def PhaseWf (h : Handler) : TcpServer.Phase → Prop
  | .recvHeader n => n < headerSize
  | .recvPayload hdr n => h.hdrBuf = serializeHeader hdr ∧ n < hdr.payloadSize.toNat ∧
      hdr.payloadSize.toNat ≤ h.payloadBuf.length
  | .sendHeader hdr n => h.hdrBuf = serializeHeader hdr ∧ n < headerSize ∧
      hdr.payloadSize.toNat ≤ h.payloadBuf.length
  | .sendPayload hdr n => h.hdrBuf = serializeHeader hdr ∧ n < hdr.payloadSize.toNat ∧
      hdr.payloadSize.toNat ≤ h.payloadBuf.length
  | .loop | .headerFailed | .left => True

structure Wf (h : Handler) : Prop where
  hdrBuf : h.hdrBuf.length = headerSize
  phase : PhaseWf h h.phase

theorem write_zero (buf bs : List UInt8) (h : bs.length = buf.length) : Buffer.write buf 0 bs = bs := by
  simp [Buffer.write, h]

theorem onRequest_spec (h : Handler) (hdr : MessageHeader) (hb : h.hdrBuf = serializeHeader hdr)
    (hp : hdr.payloadSize.toNat ≤ h.payloadBuf.length) :
    Wf (h.onRequest hdr) ∧ view (h.onRequest hdr) =
      { phase := .reply (answer (h.hdrBuf ++ h.payloadBuf.take hdr.payloadSize.toNat)) 0
        traffic := h.traffic.count hdr.payloadSize } := by
  have hw : Buffer.write h.hdrBuf 0 (serializeHeader { hdr with type := response }) =
      serializeHeader { hdr with type := response } := write_zero _ _ (by simp [hb])
  constructor
  · refine ⟨?_, ?_⟩
    · simp [Handler.onRequest, hw]
    · exact ⟨hw, by decide, hp⟩
  · have ha : answer (h.hdrBuf ++ h.payloadBuf.take hdr.payloadSize.toNat) =
        serializeHeader { hdr with type := response } ++ h.payloadBuf.take hdr.payloadSize.toNat := by
      rw [answer, List.set_append_left _ _ (by simp [hb, headerSize]), hb, ← serialize_setType]
    simp only [view, Handler.onRequest, hw, ha]

/-- The header read has just filled `hdr_buf`. -/
theorem onHeader_spec (h : Handler) (hl : h.hdrBuf.length = headerSize) :
    Wf h.onHeader ∧ view h.onHeader = EchoMachine.onHeader h.traffic h.hdrBuf := by
  have hb : h.hdrBuf = serializeHeader (deserializeHeader h.hdrBuf) := (serialize_deserialize _ hl).symm
  unfold Handler.onHeader EchoMachine.onHeader onBytes
  simp only [hl, payloadSize]
  by_cases hmax : maxPayloadSize < (deserializeHeader h.hdrBuf).payloadSize.toNat
  · simp only [hmax, if_true]
    exact ⟨⟨hl, trivial⟩, rfl⟩
  · simp only [hmax, if_false, Nat.lt_add_right_iff_pos]
    by_cases hpos : 0 < (deserializeHeader h.hdrBuf).payloadSize.toNat
    · simp only [hpos, if_true]
      refine ⟨⟨hl, hb, hpos, Buffer.le_length_growTo _ _ _⟩, ?_⟩
      simp [view]
    · simp only [hpos, if_false]
      have hz : (deserializeHeader h.hdrBuf).payloadSize.toNat = 0 := by omega
      obtain ⟨hw, hv⟩ := onRequest_spec
        { h with traffic := h.traffic.decode (deserializeHeader h.hdrBuf) } _ hb (by simp [hz])
      refine ⟨hw, hv.trans ?_⟩
      simp [hz]

theorem recvHeader_spec (h : Handler) (n : Nat) (hp : h.phase = .recvHeader n) (hw : Wf h)
    (r : RecvResult) (hr : r.fits (headerSize - n) = true) :
    Wf (h.recvHeader n r) ∧ view (h.recvHeader n r) = (view h).recv (h.hdrBuf.take n) r := by
  obtain ⟨hl, hn⟩ := hw
  rw [hp] at hn
  change n < headerSize at hn
  have hlen : (h.hdrBuf.take n).length = n := by rw [List.length_take]; omega
  cases r with
  | eof | error =>
    simp only [Handler.recvHeader, recvExact, Echo.recv, hlen, hn, if_true]
    refine ⟨⟨hl, trivial⟩, ?_⟩
    simp [view, Traffic.receive, RecvResult.bytes]
  | data bs =>
    have hfit : 0 < bs.length ∧ bs.length ≤ headerSize - n := by simpa [RecvResult.fits] using hr
    have hlw := Buffer.length_write h.hdrBuf n bs (by omega)
    have htw := Buffer.take_write h.hdrBuf n bs (by omega)
    have hla : (h.hdrBuf.take n ++ bs).length = n + bs.length := by simp [hlen]
    by_cases hm : n + bs.length < headerSize
    · simp only [Handler.recvHeader, recvExact, hm, if_true, Echo.recv, hla]
      refine ⟨⟨hlw.trans hl, hm⟩, ?_⟩
      simp [view, htw, RecvResult.bytes]
    · have heq : n + bs.length = headerSize := by omega
      have hfull : Buffer.write h.hdrBuf n bs = h.hdrBuf.take n ++ bs := by
        rw [← htw, List.take_of_length_le (by omega)]
      have hspec := onHeader_spec
        { h with hdrBuf := Buffer.write h.hdrBuf n bs, traffic := h.traffic.receive bs } (hlw.trans hl)
      simp only [Handler.recvHeader, recvExact, hm, if_false, RecvResult.bytes]
      refine ⟨hspec.1, hspec.2.trans ?_⟩
      simp only [Echo.recv, hlen, hla, hm, hn, if_false, if_true, hfull, view]

theorem recvPayload_spec (h : Handler) (hdr : MessageHeader) (n : Nat) (hp : h.phase = .recvPayload hdr n)
    (hw : Wf h) (r : RecvResult) (hr : r.fits (hdr.payloadSize.toNat - n) = true) :
    Wf (h.recvPayload hdr n r) ∧
      view (h.recvPayload hdr n r) = (view h).recv (h.hdrBuf ++ h.payloadBuf.take n) r := by
  obtain ⟨hl, hph⟩ := hw
  rw [hp] at hph
  obtain ⟨hb, hn, hlen⟩ := hph
  have hdes (xs : List UInt8) : deserializeHeader (h.hdrBuf ++ xs) = hdr := by
    rw [deserialize_append _ _ hl, hb, deserialize_serialize]
  have hpos (xs : List UInt8) : ¬ (h.hdrBuf ++ xs).length < headerSize := by simp [hl]
  cases r with
  | eof | error =>
    simp only [Handler.recvPayload, recvExact, Echo.recv, hpos, if_false]
    refine ⟨⟨hl, trivial⟩, ?_⟩
    simp [view, Traffic.receive, RecvResult.bytes]
  | data bs =>
    have hfit : 0 < bs.length ∧ bs.length ≤ hdr.payloadSize.toNat - n := by
      simpa [RecvResult.fits] using hr
    have hlw := Buffer.length_write h.payloadBuf n bs (by omega)
    have htw := Buffer.take_write h.payloadBuf n bs (by omega)
    have hla : (h.hdrBuf ++ h.payloadBuf.take n ++ bs).length = headerSize + (n + bs.length) := by
      simp [hl]; omega
    have hrecv : (view h).recv (h.hdrBuf ++ h.payloadBuf.take n) (.data bs) =
        onBytes (h.traffic.receive bs) (h.hdrBuf ++ h.payloadBuf.take n ++ bs) := by
      rw [Echo.recv, if_neg (by rw [hla]; omega), if_neg (hpos _)]
      rfl
    rw [hrecv, onBytes, List.append_assoc, payloadSize, hdes, ← List.append_assoc, hla]
    by_cases hm : n + bs.length < hdr.payloadSize.toNat
    · rw [if_pos (by omega)]
      simp only [Handler.recvPayload, recvExact, hm, if_true]
      refine ⟨⟨hl, hb, hm, hlw ▸ hlen⟩, ?_⟩
      simp [view, htw, RecvResult.bytes]
    · have heq : n + bs.length = hdr.payloadSize.toNat := by omega
      rw [if_neg (by omega)]
      simp only [Handler.recvPayload, recvExact, hm, if_false, RecvResult.bytes]
      have hspec := onRequest_spec
        { h with payloadBuf := Buffer.write h.payloadBuf n bs, traffic := h.traffic.receive bs } hdr hb
        (hlw ▸ hlen)
      refine ⟨hspec.1, hspec.2.trans ?_⟩
      rw [← heq, htw, List.append_assoc]

theorem sendHeader_spec (h : Handler) (hdr : MessageHeader) (n : Nat) (hp : h.phase = .sendHeader hdr n)
    (hw : Wf h) (r : SendResult) (hr : r.fits (headerSize - n) = true) :
    Wf (h.sendHeader hdr n r) ∧ view (h.sendHeader hdr n r) =
      (view h).send (h.hdrBuf ++ h.payloadBuf.take hdr.payloadSize.toNat) n r := by
  obtain ⟨hl, hph⟩ := hw
  rw [hp] at hph
  obtain ⟨hb, hn, hlen⟩ := hph
  cases r with
  | error =>
    simp only [Handler.sendHeader, sendExact, Echo.send]
    refine ⟨⟨hl, trivial⟩, ?_⟩
    simp [view, Traffic.send]
  | sent m =>
    have hfit : 0 < m ∧ m ≤ headerSize - n := by simpa [SendResult.fits] using hr
    have hbytes : ((h.hdrBuf ++ h.payloadBuf.take hdr.payloadSize.toNat).drop n).take m =
        (h.hdrBuf.drop n).take m := by
      rw [List.drop_append_of_le_length (by omega), List.take_append_of_le_length (by simp; omega)]
    have hlf : (h.hdrBuf ++ h.payloadBuf.take hdr.payloadSize.toNat).length =
        headerSize + hdr.payloadSize.toNat := by simp [hl, hlen]
    rw [Echo.send, hbytes, hlf]
    by_cases hm : n + m < headerSize
    · rw [if_pos (by omega)]
      simp only [Handler.sendHeader, sendExact, hm, if_true]
      exact ⟨⟨hl, hb, hm, hlen⟩, rfl⟩
    · have heq : n + m = headerSize := by omega
      simp only [Handler.sendHeader, sendExact, hm, if_false]
      by_cases hpos : 0 < hdr.payloadSize.toNat
      · rw [if_pos hpos, if_pos (by omega), heq]
        exact ⟨⟨hl, hb, hpos, hlen⟩, rfl⟩
      · rw [if_neg hpos, if_neg (by omega)]
        exact ⟨⟨hl, trivial⟩, rfl⟩

theorem sendPayload_spec (h : Handler) (hdr : MessageHeader) (n : Nat)
    (hp : h.phase = .sendPayload hdr n) (hw : Wf h) (r : SendResult)
    (hr : r.fits (hdr.payloadSize.toNat - n) = true) :
    Wf (h.sendPayload hdr n r) ∧ view (h.sendPayload hdr n r) =
      (view h).send (h.hdrBuf ++ h.payloadBuf.take hdr.payloadSize.toNat) (headerSize + n) r := by
  obtain ⟨hl, hph⟩ := hw
  rw [hp] at hph
  obtain ⟨hb, hn, hlen⟩ := hph
  cases r with
  | error =>
    simp only [Handler.sendPayload, sendExact, Echo.send]
    refine ⟨⟨hl, trivial⟩, ?_⟩
    simp [view, Traffic.send]
  | sent m =>
    have hfit : 0 < m ∧ m ≤ hdr.payloadSize.toNat - n := by simpa [SendResult.fits] using hr
    have hbytes : ((h.hdrBuf ++ h.payloadBuf.take hdr.payloadSize.toNat).drop (headerSize + n)).take m =
        (h.payloadBuf.drop n).take m := by
      rw [← hl, List.drop_append, List.drop_eq_nil_of_le (by omega), List.nil_append,
        Nat.add_sub_cancel_left, List.drop_take, List.take_take, Nat.min_eq_left hfit.2]
    have hlf : (h.hdrBuf ++ h.payloadBuf.take hdr.payloadSize.toNat).length =
        headerSize + hdr.payloadSize.toNat := by simp [hl, hlen]
    rw [Echo.send, hbytes, hlf]
    by_cases hm : n + m < hdr.payloadSize.toNat
    · rw [if_pos (by omega)]
      simp only [Handler.sendPayload, sendExact, hm, if_true]
      refine ⟨⟨hl, hb, hm, hlen⟩, ?_⟩
      simp only [view, Nat.add_assoc]
    · rw [if_neg (by omega)]
      simp only [Handler.sendPayload, sendExact, hm, if_false]
      exact ⟨⟨hl, trivial⟩, rfl⟩

theorem step_spec (h : Handler) (hw : Wf h) (e : Event) :
    (∀ h', TcpServer.step h e = some h' → Wf h') ∧
      (TcpServer.step h e).map view = EchoMachine.step (view h) e := by
  have lift (c : Bool) (x : Handler) (y : Echo) (hx : c = true → Wf x ∧ view x = y) :
      (∀ h', (if c = true then some x else none) = some h' → Wf h') ∧
        (if c = true then some x else none).map view = if c = true then some y else none := by
    cases c with
    | false => simp
    | true => simpa using hx rfl
  obtain ⟨hl, hph⟩ := id hw
  cases e with
  | running b =>
    cases hp : h.phase <;> cases b <;> simp [TcpServer.step, EchoMachine.step, view, hp] <;>
      exact ⟨hl, by simp [PhaseWf, headerSize]⟩
  | recv r =>
    cases hp : h.phase with
    | recvHeader n =>
      rw [hp] at hph
      change n < headerSize at hph
      have hroom : readRoom (h.hdrBuf.take n) = headerSize - n := by
        have hlen : (h.hdrBuf.take n).length = n := by rw [List.length_take, hl]; exact min_eq_left hph.le
        rw [readRoom, hlen, if_pos hph]
      have hspec := lift _ _ _ (recvHeader_spec h n hp hw r)
      simpa [TcpServer.step, EchoMachine.step, view, hp, hroom] using hspec
    | recvPayload hdr n =>
      rw [hp] at hph
      obtain ⟨hb, hn, hlen⟩ := hph
      have hroom : readRoom (h.hdrBuf ++ h.payloadBuf.take n) = hdr.payloadSize.toNat - n := by
        have hlen : (h.hdrBuf ++ h.payloadBuf.take n).length = headerSize + n := by simp [hl]; omega
        rw [readRoom, hlen, if_neg (by omega), payloadSize, deserialize_append _ _ hl, hb,
          deserialize_serialize]
        omega
      have hspec := lift _ _ _ (recvPayload_spec h hdr n hp hw r)
      simpa [TcpServer.step, EchoMachine.step, view, hp, hroom] using hspec
    | loop | headerFailed | sendHeader hdr n | sendPayload hdr n | left =>
      simp [TcpServer.step, EchoMachine.step, view, hp]
  | send r =>
    cases hp : h.phase with
    | sendHeader hdr n =>
      rw [hp] at hph
      have hroom : replyRoom (h.hdrBuf ++ h.payloadBuf.take hdr.payloadSize.toNat) n = headerSize - n := by
        rw [replyRoom, if_pos hph.2.1]
      have hspec := lift _ _ _ (sendHeader_spec h hdr n hp hw r)
      simpa [TcpServer.step, EchoMachine.step, view, hp, hroom] using hspec
    | sendPayload hdr n =>
      rw [hp] at hph
      have hroom : replyRoom (h.hdrBuf ++ h.payloadBuf.take hdr.payloadSize.toNat) (headerSize + n) =
          hdr.payloadSize.toNat - n := by
        rw [replyRoom, if_neg (by omega), List.length_append, List.length_take, hl, min_eq_left hph.2.2]
        omega
      have hspec := lift _ _ _ (sendPayload_spec h hdr n hp hw r)
      simpa [TcpServer.step, EchoMachine.step, view, hp, hroom] using hspec
    | loop | headerFailed | recvHeader n | recvPayload hdr n | left =>
      simp [TcpServer.step, EchoMachine.step, view, hp]

theorem wf_start (stack : Fin headerSize → UInt8) (payloadBuf : List UInt8) (rc bc : UInt64) :
    Wf (TcpServer.start stack payloadBuf rc bc) :=
  ⟨by simp [TcpServer.start], trivial⟩

theorem run_view (stack : Fin headerSize → UInt8) (payloadBuf : List UInt8) (rc bc : UInt64)
    (es : List Event) :
    (Transition.run TcpServer.step (TcpServer.start stack payloadBuf rc bc) es).map view =
      Transition.run EchoMachine.step (EchoMachine.start rc bc) es :=
  Transition.run_map (fun s e t hw ht => (step_spec s hw e).1 t ht)
    (fun s e hw => (step_spec s hw e).2) (wf_start stack payloadBuf rc bc) es

end DcBench.ServerRefinement

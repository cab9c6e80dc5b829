import DcBench.DoRequest
import DcBench.RequestStream

namespace DcBench.ClientExchange

open DcBench.Lib DcBench.Message DcBench.ExactTransfer DcBench.RequestStream DcBench.DoRequest

/-- The two stack arrays keep their 22 bytes. -/
structure Wf (c : Client) : Prop where
  hdrBuf : c.hdrBuf.length = headerSize
  respHdrBuf : c.respHdrBuf.length = headerSize

/-- The call that sends `r` has put `cs` bytes of it on the wire and has read
`cr` bytes of the reply. -/
inductive At (r : Request) : Nat → Nat → Client → Prop
  | sendHeader (c : Client) (n : Nat) (hn : n < headerSize) (hp : c.phase = .sendHeader r.header n)
      (hb : c.hdrBuf = serializeHeader r.header)
      (hs : (Buffer.growTo c.sendBuf r.payload.length 0).take r.payload.length = r.payload) : At r n 0 c
  | sendPayload (c : Client) (n : Nat) (hn : n < r.payload.length)
      (hp : c.phase = .sendPayload r.header n) (hs : c.sendBuf.take r.payload.length = r.payload) :
      At r (headerSize + n) 0 c
  | recvHeader (c : Client) (n : Nat) (hn : n < headerSize) (hp : c.phase = .recvHeader r.header n)
      (hb : c.respHdrBuf.take n = (serializeHeader r.replyHeader).take n)
      (hs : c.sendBuf.take r.payload.length = r.payload) : At r (headerSize + r.payload.length) n c
  | recvPayload (c : Client) (n : Nat) (hn : n < r.payload.length)
      (hp : c.phase = .recvPayload r.header r.replyHeader n) (hl : r.payload.length ≤ c.recvBuf.length)
      (hb : c.recvBuf.take n = r.payload.take n) (hs : c.sendBuf.take r.payload.length = r.payload) :
      At r (headerSize + r.payload.length) (headerSize + n) c
  | stamp (c : Client) (hp : c.phase = .stamp r.header r.replyHeader)
      (hb : c.recvBuf.take r.payload.length = r.payload)
      (hs : c.sendBuf.take r.payload.length = r.payload) :
      At r (headerSize + r.payload.length) (headerSize + r.payload.length) c

/-- The request that a call sends: its payload is whatever the send buffer
holds, lengthened with zeros where it is too short. -/
def framed (args : Call) (now : UInt64) (sendBuf : List UInt8) (h : args.size.toNat ≤ maxPayloadSize) :
    Request where
  header := args.header now
  payload := (Buffer.growTo sendBuf args.size.toNat 0).take args.size.toNat
  size_eq := (List.length_take_of_le (Buffer.le_length_growTo _ _ _)).symm
  size_le := by
    rw [List.length_take_of_le (Buffer.le_length_growTo _ _ _)]
    exact h

theorem length_framed (args : Call) (now : UInt64) (sendBuf : List UInt8)
    (h : args.size.toNat ≤ maxPayloadSize) :
    (framed args now sendBuf h).payload.length = args.size.toNat :=
  (framed args now sendBuf h).size_eq.symm

theorem call_at {c : Client} (hw : Wf c) (args : Call) (now : UInt64)
    (h : args.size.toNat ≤ maxPayloadSize) :
    Wf (c.call args now) ∧ At (framed args now c.sendBuf h) 0 0 (c.call args now) := by
  have hwr : Buffer.write c.hdrBuf 0 (serializeHeader (args.header now)) = serializeHeader (args.header now) := by
    simp [Buffer.write, hw.hdrBuf]
  refine ⟨⟨?_, hw.respHdrBuf⟩, .sendHeader _ 0 (by decide) rfl hwr ?_⟩
  · simp [Client.call, hwr]
  · rw [length_framed]
    rfl

/-- One transfer inside a call: the bytes `out` go out, the bytes `inp` come in. -/
structure Advance (r : Request) (cs cr : Nat) (c c' : Client) (out inp : List UInt8) : Prop where
  wf : Wf c'
  pos : At r cs cr c'
  sent : c'.sent = c.sent ++ out
  received : c'.received = c.received ++ inp
  exchanges : c'.exchanges = c.exchanges

theorem sendHeader_at {r : Request} {c : Client} {k n : Nat} (hw : Wf c)
    (hb : c.hdrBuf = serializeHeader r.header)
    (hs : (Buffer.growTo c.sendBuf r.payload.length 0).take r.payload.length = r.payload)
    (hk : k < headerSize) (hle : n ≤ headerSize - k) :
    Advance r (k + n) 0 c (c.sendHeader r.header k (.sent n)) ((r.wire.drop k).take n) [] := by
  have hbytes : (c.hdrBuf.drop k).take n = (r.wire.drop k).take n := by
    rw [Request.wire, List.drop_append_of_le_length (by simp; omega),
      List.take_append_of_le_length (by simp; omega), hb]
  have hsize := r.size_eq
  by_cases hlt : k + n < headerSize
  · simp only [Client.sendHeader, sendExact, hlt, if_true]
    exact ⟨⟨hw.hdrBuf, hw.respHdrBuf⟩, .sendHeader _ _ hlt rfl hb hs, by simp [hbytes], by simp, rfl⟩
  · have heq : k + n = headerSize := by omega
    simp only [Client.sendHeader, sendExact, heq, lt_irrefl, if_false]
    by_cases hpos : 0 < r.header.payloadSize.toNat
    · simp only [hpos, if_true]
      refine ⟨⟨hw.hdrBuf, hw.respHdrBuf⟩, ?_, by simp [hbytes], by simp, rfl⟩
      exact .sendPayload _ 0 (by omega) rfl (by simpa [hsize] using hs)
    · have hnil : r.payload = [] := List.length_eq_zero_iff.mp (by omega)
      simp only [hpos, if_false]
      refine ⟨⟨hw.hdrBuf, hw.respHdrBuf⟩, ?_, by simp [hbytes], by simp, rfl⟩
      have hat := At.recvHeader (r := r)
        { c with sent := c.sent ++ (c.hdrBuf.drop k).take n, phase := .recvHeader r.header 0 } 0
        (by decide) rfl (by simp) (by simp [hnil])
      simpa [hnil] using hat

theorem sendPayload_at {r : Request} {c : Client} {k n : Nat} (hw : Wf c)
    (hs : c.sendBuf.take r.payload.length = r.payload)
    (hk : k < r.payload.length) (hle : n ≤ r.payload.length - k) :
    Advance r (headerSize + k + n) 0 c (c.sendPayload r.header k (.sent n))
      ((r.wire.drop (headerSize + k)).take n) [] := by
  have hbytes : (c.sendBuf.drop k).take n = (r.wire.drop (headerSize + k)).take n := by
    have hdrop : r.wire.drop (headerSize + k) = r.payload.drop k := by
      rw [Request.wire, ← length_serializeHeader r.header, List.drop_append,
        List.drop_eq_nil_of_le (by omega), List.nil_append, Nat.add_sub_cancel_left]
    rw [hdrop]
    nth_rewrite 1 [← hs]
    rw [List.drop_take, List.take_take, Nat.min_eq_left hle]
  by_cases hlt : k + n < r.payload.length
  · simp only [Client.sendPayload, sendExact, r.size_eq, hlt, if_true, Nat.add_assoc]
    exact ⟨⟨hw.hdrBuf, hw.respHdrBuf⟩, .sendPayload _ _ hlt rfl hs, by simp [hbytes], by simp, rfl⟩
  · have heq : headerSize + k + n = headerSize + r.payload.length := by omega
    simp only [Client.sendPayload, sendExact, r.size_eq, hlt, if_false, heq]
    refine ⟨⟨hw.hdrBuf, hw.respHdrBuf⟩, ?_, by simp [hbytes], by simp, rfl⟩
    exact .recvHeader _ 0 (by decide) rfl (by simp) hs

theorem send_at {r : Request} {cs cr : Nat} {c c' : Client} {n : Nat} (ha : At r cs cr c)
    (hw : Wf c) (h : step c (.send (.sent n)) = some c') :
    0 < n ∧ cr = 0 ∧ Advance r (cs + n) 0 c c' ((r.wire.drop cs).take n) [] := by
  cases ha with
  | sendHeader _ _ hk hp hb hs =>
    simp only [step, hp, Option.ite_none_right_eq_some, Option.some.injEq, SendResult.fits,
      Bool.and_eq_true, decide_eq_true_eq] at h
    obtain ⟨⟨hpos, hle⟩, rfl⟩ := h
    exact ⟨hpos, rfl, sendHeader_at hw hb hs hk hle⟩
  | sendPayload _ k hk hp hs =>
    simp only [step, hp, Option.ite_none_right_eq_some, Option.some.injEq, SendResult.fits,
      Bool.and_eq_true, decide_eq_true_eq, r.size_eq] at h
    obtain ⟨⟨hpos, hle⟩, rfl⟩ := h
    exact ⟨hpos, rfl, sendPayload_at hw hs hk hle⟩
  | recvHeader _ k hk hp hb hs | recvPayload _ k hk hp hl hb hs | stamp _ hp hb hs =>
    simp [step, hp] at h

theorem onResponse_at {r : Request} {c : Client} (hw : Wf c)
    (hb : c.respHdrBuf = serializeHeader r.replyHeader)
    (hs : c.sendBuf.take r.payload.length = r.payload) :
    Advance r (headerSize + r.payload.length) headerSize c (c.onResponse r.header) [] [] := by
  have hsize : r.replyHeader.payloadSize.toNat = r.payload.length := r.size_eq
  have hresp : deserializeHeader c.respHdrBuf = r.replyHeader := by rw [hb, deserialize_serialize]
  simp only [Client.onResponse, hresp, hsize]
  by_cases hpos : 0 < r.payload.length
  · simp only [hpos, if_true]
    refine ⟨⟨hw.hdrBuf, hw.respHdrBuf⟩, ?_, by simp, by simp, rfl⟩
    exact .recvPayload _ 0 hpos rfl (Buffer.le_length_growTo _ _ _) (by simp) hs
  · have hnil : r.payload = [] := List.length_eq_zero_iff.mp (by omega)
    simp only [hpos, if_false]
    refine ⟨⟨hw.hdrBuf, hw.respHdrBuf⟩, ?_, by simp, by simp, rfl⟩
    have hat := At.stamp (r := r) { c with phase := .stamp r.header r.replyHeader } rfl
      (by simp [hnil]) (by simp [hnil])
    simpa [hnil] using hat

theorem recvHeader_at {r : Request} {c : Client} {k : Nat} {bs : List UInt8} (hw : Wf c)
    (hb : c.respHdrBuf.take k = (serializeHeader r.replyHeader).take k)
    (hs : c.sendBuf.take r.payload.length = r.payload) (hk : k < headerSize)
    (hle : bs.length ≤ headerSize - k)
    (hbs : bs = ((EchoMachine.answer r.wire).drop k).take bs.length) :
    Advance r (headerSize + r.payload.length) (k + bs.length) c (c.recvHeader r.header k (.data bs)) [] bs := by
  have hlw := Buffer.length_write c.respHdrBuf k bs (by rw [hw.respHdrBuf]; omega)
  have htw : (Buffer.write c.respHdrBuf k bs).take (k + bs.length) =
      (serializeHeader r.replyHeader).take (k + bs.length) := by
    rw [Buffer.take_write _ _ _ (by rw [hw.respHdrBuf]; omega), hb, List.take_add]
    congr 1
    rw [answer_wire, List.drop_append_of_le_length (by simp; omega),
      List.take_append_of_le_length (by simp; omega)] at hbs
    exact hbs
  by_cases hlt : k + bs.length < headerSize
  · simp only [Client.recvHeader, recvExact, hlt, if_true]
    exact ⟨⟨hw.hdrBuf, hlw.trans hw.respHdrBuf⟩, .recvHeader _ _ hlt rfl htw hs, by simp, rfl, rfl⟩
  · have heq : k + bs.length = headerSize := by omega
    simp only [Client.recvHeader, recvExact, heq, lt_irrefl, if_false, RecvResult.bytes]
    rw [heq, List.take_of_length_le (by rw [hlw, hw.respHdrBuf]), List.take_of_length_le (by simp)] at htw
    have hresp := onResponse_at (r := r)
      (c := { c with respHdrBuf := Buffer.write c.respHdrBuf k bs, received := c.received ++ bs })
      ⟨hw.hdrBuf, hlw.trans hw.respHdrBuf⟩ htw hs
    exact ⟨hresp.wf, hresp.pos, by simpa using hresp.sent, by simpa using hresp.received, hresp.exchanges⟩

theorem recvPayload_at {r : Request} {c : Client} {k : Nat} {bs : List UInt8} (hw : Wf c)
    (hl : r.payload.length ≤ c.recvBuf.length) (hb : c.recvBuf.take k = r.payload.take k)
    (hs : c.sendBuf.take r.payload.length = r.payload) (hk : k < r.payload.length)
    (hle : bs.length ≤ r.payload.length - k)
    (hbs : bs = ((EchoMachine.answer r.wire).drop (headerSize + k)).take bs.length) :
    Advance r (headerSize + r.payload.length) (headerSize + k + bs.length) c
      (c.recvPayload r.header r.replyHeader k (.data bs)) [] bs := by
  have hsize : r.replyHeader.payloadSize.toNat = r.payload.length := r.size_eq
  have hlw := Buffer.length_write c.recvBuf k bs (by omega)
  have htw : (Buffer.write c.recvBuf k bs).take (k + bs.length) = r.payload.take (k + bs.length) := by
    rw [Buffer.take_write _ _ _ (by omega), hb, List.take_add]
    congr 1
    rw [answer_wire, ← length_serializeHeader r.replyHeader, List.drop_append,
      List.drop_eq_nil_of_le (by omega), List.nil_append, Nat.add_sub_cancel_left] at hbs
    exact hbs
  by_cases hlt : k + bs.length < r.payload.length
  · simp only [Client.recvPayload, recvExact, hsize, hlt, if_true, Nat.add_assoc]
    refine ⟨⟨hw.hdrBuf, hw.respHdrBuf⟩, ?_, by simp, rfl, rfl⟩
    exact .recvPayload _ _ hlt rfl (hlw ▸ hl) htw hs
  · have heq : k + bs.length = r.payload.length := by omega
    simp only [Client.recvPayload, recvExact, hsize, heq, lt_irrefl, if_false, Nat.add_assoc]
    rw [heq, List.take_length] at htw
    exact ⟨⟨hw.hdrBuf, hw.respHdrBuf⟩, .stamp _ rfl htw hs, by simp, rfl, rfl⟩

theorem recv_at {r : Request} {cs cr : Nat} {c c' : Client} {bs : List UInt8} (ha : At r cs cr c)
    (hw : Wf c) (h : step c (.recv (.data bs)) = some c')
    (hbs : bs = ((EchoMachine.answer r.wire).drop cr).take bs.length) :
    0 < bs.length ∧ cs = headerSize + r.payload.length ∧ Advance r cs (cr + bs.length) c c' [] bs := by
  have hsize : r.replyHeader.payloadSize.toNat = r.payload.length := r.size_eq
  cases ha with
  | recvHeader _ _ hk hp hb hs =>
    simp only [step, hp, Option.ite_none_right_eq_some, Option.some.injEq, RecvResult.fits,
      Bool.and_eq_true, decide_eq_true_eq] at h
    obtain ⟨⟨hpos, hle⟩, rfl⟩ := h
    exact ⟨hpos, rfl, recvHeader_at hw hb hs hk hle hbs⟩
  | recvPayload _ k hk hp hl hb hs =>
    simp only [step, hp, Option.ite_none_right_eq_some, Option.some.injEq, RecvResult.fits,
      Bool.and_eq_true, decide_eq_true_eq, hsize] at h
    obtain ⟨⟨hpos, hle⟩, rfl⟩ := h
    exact ⟨hpos, rfl, recvPayload_at hw hl hb hs hk hle hbs⟩
  | sendHeader _ _ hk hp hb hs | sendPayload _ k hk hp hs | stamp _ hp hb hs =>
    simp [step, hp] at h

theorem now_at {r : Request} {cs cr : Nat} {c c' : Client} {t : UInt64} (ha : At r cs cr c)
    (h : step c (.now t) = some c') :
    cs = headerSize + r.payload.length ∧ cr = headerSize + r.payload.length ∧
      c' = { c with
        phase := .idle
        exchanges := c.exchanges ++ [⟨r.header, r.payload, some (r.replyHeader, r.payload),
          t - r.header.sendTimestampNs⟩] } := by
  have hsize : r.replyHeader.payloadSize.toNat = r.payload.length := r.size_eq
  cases ha with
  | stamp _ hp hb hs =>
    simp only [step, hp, Option.some.injEq] at h
    subst h
    refine ⟨rfl, rfl, ?_⟩
    simp only [Client.finish, hsize, r.size_eq, hb, hs]
  | sendHeader _ _ hk hp hb hs | sendPayload _ k hk hp hs | recvHeader _ _ hk hp hb hs
  | recvPayload _ k hk hp hl hb hs => simp [step, hp] at h

/-- The call is never stuck on its own: it can send, or it can take a byte of
the reply, or it can return. -/
theorem at_enabled {r : Request} {cs cr : Nat} {c : Client} (ha : At r cs cr c) :
    (cs < headerSize + r.payload.length ∧ (step c (.send (.sent 1))).isSome) ∨
    (cs = headerSize + r.payload.length ∧ cr < headerSize + r.payload.length ∧
      ∀ b, (step c (.recv (.data [b]))).isSome) ∨
    (cs = headerSize + r.payload.length ∧ cr = headerSize + r.payload.length ∧
      (step c (.now 0)).isSome) := by
  have hsize : r.replyHeader.payloadSize.toNat = r.payload.length := r.size_eq
  cases ha with
  | sendHeader _ _ hk hp hb hs =>
    have hroom : 1 ≤ headerSize - cs := by omega
    exact .inl ⟨by omega, by simp [step, hp, SendResult.fits, hroom]⟩
  | sendPayload _ k hk hp hs =>
    have hroom : 1 ≤ r.payload.length - k := by omega
    exact .inl ⟨by omega, by simp [step, hp, SendResult.fits, r.size_eq, hroom]⟩
  | recvHeader _ _ hk hp hb hs =>
    have hroom : 1 ≤ headerSize - cr := by omega
    exact .inr (.inl ⟨rfl, by omega, fun b => by simp [step, hp, RecvResult.fits, hroom]⟩)
  | recvPayload _ k hk hp hl hb hs =>
    have hroom : 1 ≤ r.payload.length - k := by omega
    exact .inr (.inl ⟨rfl, by omega, fun b => by simp [step, hp, RecvResult.fits, hsize, hroom]⟩)
  | stamp _ hp hb hs => exact .inr (.inr ⟨rfl, rfl, by simp [step, hp]⟩)

end DcBench.ClientExchange

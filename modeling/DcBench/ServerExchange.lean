import DcBench.RequestStream
import DcBench.ServerRefinement

namespace DcBench.ServerExchange

open DcBench.Lib DcBench.Message DcBench.ExactTransfer DcBench.TcpServer DcBench.EchoMachine
open DcBench.RequestStream

/-- Since the traffic `t₀` the server has read `n` bytes of `r` and nothing else
has happened. -/
structure Reading (r : Request) (t₀ : Traffic) (n : Nat) (t : Traffic) : Prop where
  received : t.received = t₀.received ++ r.wire.take n
  sent : t.sent = t₀.sent
  requestCount : t.requestCount = t₀.requestCount
  byteCount : t.byteCount = t₀.byteCount

/-- Since the traffic `t₀` the server has read and counted `r` and has sent `k`
bytes of its reply. -/
structure Replying (r : Request) (t₀ : Traffic) (k : Nat) (t : Traffic) : Prop where
  received : t.received = t₀.received ++ r.wire
  sent : t.sent = t₀.sent ++ (answer r.wire).take k
  requestCount : t.requestCount = t₀.requestCount + 1
  byteCount : t.byteCount = t₀.byteCount + (22 + r.header.payloadSize.toUInt64)

/-- The handler has read `sr` bytes of the request `r` and sent `ss` bytes of
its reply; it may test `running_` `tests` more times before it needs bytes of a
later request. -/
inductive Serving (r : Request) (t₀ : Traffic) : Nat → Nat → Nat → Echo → Prop
  | waiting (t : Traffic) (h : Reading r t₀ 0 t) : Serving r t₀ 0 0 2 ⟨.idle, t⟩
  | reading (n : Nat) (t : Traffic) (hn : n < headerSize + r.payload.length) (h : Reading r t₀ n t) :
      Serving r t₀ n 0 1 ⟨.reading (r.wire.take n), t⟩
  | replying (k : Nat) (t : Traffic) (hk : k < headerSize + r.payload.length) (h : Replying r t₀ k t) :
      Serving r t₀ (headerSize + r.payload.length) k 1 ⟨.reply (answer r.wire) k, t⟩
  | answered (t : Traffic) (h : Replying r t₀ (headerSize + r.payload.length) t) :
      Serving r t₀ (headerSize + r.payload.length) (headerSize + r.payload.length) 1 ⟨.idle, t⟩
  | next (t : Traffic) (h : Replying r t₀ (headerSize + r.payload.length) t) :
      Serving r t₀ (headerSize + r.payload.length) (headerSize + r.payload.length) 0 ⟨.reading [], t⟩

theorem test_serving {r : Request} {t₀ : Traffic} {sr ss tests : Nat} {e e' : Echo}
    (hs : Serving r t₀ sr ss tests e) (hm : Move e (.running true) e') :
    ∃ tests', tests' + 1 = tests ∧ Serving r t₀ sr ss tests' e' := by
  cases hm with
  | enter t =>
    cases hs with
    | waiting _ h => exact ⟨1, rfl, .reading 0 t (by simp [headerSize]) h⟩
    | answered _ h => exact ⟨0, rfl, .next t h⟩
  | retry t => cases hs

theorem take_wire_append {r : Request} {n : Nat} {bs : List UInt8}
    (hbs : bs = (r.wire.drop n).take bs.length) : r.wire.take n ++ bs = r.wire.take (n + bs.length) := by
  rw [List.take_add]
  congr 1

theorem deserialize_take_wire {r : Request} {n : Nat} (hge : headerSize ≤ n)
    (hle : n ≤ headerSize + r.payload.length) : deserializeHeader (r.wire.take n) = r.header := by
  have hwire := length_wire r
  have hpre : r.wire.take n <+: wire [r] := by
    simpa [wire] using List.take_prefix n r.wire
  have hlen : headerSize ≤ (r.wire.take n).length := by
    rw [List.length_take]
    omega
  obtain ⟨r', rest, heq, hh, -⟩ := header_of_isPrefix hpre hlen
  obtain ⟨rfl, -⟩ : r = r' ∧ [] = rest := by simpa using heq
  exact hh

theorem onBytes_serving {r : Request} {t₀ t : Traffic} {n : Nat} (hge : headerSize ≤ n)
    (hle : n ≤ headerSize + r.payload.length) (h : Reading r t₀ n t) :
    Serving r t₀ n 0 1 (onBytes t (r.wire.take n)) := by
  have hwire := length_wire r
  have hlen : (r.wire.take n).length = n := List.length_take_of_le (by omega)
  have hh := deserialize_take_wire hge hle
  rw [onBytes, payloadSize_of_header hh, hlen]
  by_cases hlt : n < headerSize + r.payload.length
  · rw [if_pos hlt]
    exact .reading n t hlt h
  · obtain rfl : n = headerSize + r.payload.length := by omega
    rw [if_neg hlt, hh, ← hwire, List.take_length, hwire]
    have hrec := h.received
    rw [← hwire, List.take_length] at hrec
    refine .replying 0 _ (by simp [headerSize]) ⟨?_, ?_, ?_, ?_⟩
    · simpa using hrec
    · simpa using h.sent
    · simp [h.requestCount]
    · simp [h.byteCount]

theorem recv_serving {r : Request} {t₀ : Traffic} {sr ss tests : Nat} {e e' : Echo} {bs : List UInt8}
    (hs : Serving r t₀ sr ss tests e) (hsr : sr < headerSize + r.payload.length)
    (hm : Move e (.recv (.data bs)) e') (hbs : bs = (r.wire.drop sr).take bs.length)
    (hpos : 0 < bs.length) :
    ss = 0 ∧ tests = 1 ∧ sr + bs.length ≤ headerSize + r.payload.length ∧
      Serving r t₀ (sr + bs.length) 0 1 e' := by
  have hwire := length_wire r
  have hsum : sr + bs.length ≤ headerSize + r.payload.length := by
    have hl := congrArg List.length hbs
    rw [List.length_take, List.length_drop] at hl
    omega
  have hlen : (r.wire.take (sr + bs.length)).length = sr + bs.length := List.length_take_of_le (by omega)
  have happ := take_wire_append hbs
  cases hs with
  | waiting t h => cases hm
  | replying k t hk h => omega
  | answered t h => cases hm
  | next t h => omega
  | reading _ t hn h =>
    refine ⟨rfl, rfl, hsum, ?_⟩
    have hread : Reading r t₀ (sr + bs.length) (t.receive bs) := by
      refine ⟨?_, h.sent, h.requestCount, h.byteCount⟩
      rw [Traffic.receive_received, h.received, List.append_assoc, happ]
    have hsize (hge : headerSize ≤ sr + bs.length) :
        payloadSize (r.wire.take (sr + bs.length)) = r.payload.length :=
      payloadSize_of_header (deserialize_take_wire hge hsum)
    cases hm with
    | header _ _ _ _ hl =>
      rw [happ] at hl ⊢
      exact .reading _ _ (by omega) hread
    | oversize _ _ _ hg hl hbig =>
      rw [happ] at hl hbig
      rw [hsize (by omega)] at hbig
      exact absurd r.size_le (by omega)
    | accept _ _ _ hg hl hsz =>
      rw [happ] at hl ⊢
      apply onBytes_serving (by omega) hsum
      exact ⟨hread.received, hread.sent, hread.requestCount, hread.byteCount⟩
    | payload _ _ _ _ hg hl =>
      rw [happ] at hl ⊢
      rw [List.length_take_of_le (by omega)] at hg
      exact onBytes_serving (by omega) hsum hread
    | cut _ _ _ hr _ | broken _ _ _ hr _ => simp at hr

theorem send_serving {r : Request} {t₀ : Traffic} {sr ss tests n : Nat} {e e' : Echo}
    (hs : Serving r t₀ sr ss tests e) (hm : Move e (.send (.sent n)) e') :
    sr = headerSize + r.payload.length ∧ 0 < n ∧ ss + n ≤ headerSize + r.payload.length ∧
      Serving r t₀ sr (ss + n) tests e' := by
  have hla := length_answer_wire r
  cases hm with
  | sendSome t frame k m hn hf =>
    cases hs with
    | replying _ _ hk h =>
      have hroom : ss + n ≤ headerSize + r.payload.length := by
        rw [replyRoom, hla] at hf
        split at hf <;> omega
      refine ⟨rfl, hn, hroom, ?_⟩
      have hrep : Replying r t₀ (ss + n) (t.send (((answer r.wire).drop ss).take n)) := by
        refine ⟨h.received, ?_, h.requestCount, h.byteCount⟩
        rw [Traffic.send_sent, h.sent, List.append_assoc, ← List.take_add]
      rw [hla]
      by_cases hlt : ss + n < headerSize + r.payload.length
      · rw [if_pos hlt]
        exact .replying _ _ hlt hrep
      · rw [if_neg hlt]
        have heq : ss + n = headerSize + r.payload.length := by omega
        rw [heq] at hrep ⊢
        exact .answered _ hrep

theorem serving_enabled {r : Request} {t₀ : Traffic} {sr ss tests : Nat} {e : Echo}
    (hs : Serving r t₀ sr ss tests e) :
    (EchoMachine.step e (.running true)).isSome ∨
    (sr < headerSize + r.payload.length ∧ ∀ b, (EchoMachine.step e (.recv (.data [b]))).isSome) ∨
    (EchoMachine.step e (.send (.sent 1))).isSome ∨ ss = headerSize + r.payload.length := by
  cases hs with
  | waiting t h => exact .inl rfl
  | reading _ t hn h =>
    have hlen : (r.wire.take sr).length = sr := List.length_take_of_le (by rw [length_wire]; omega)
    have hroom : 1 ≤ readRoom (r.wire.take sr) := by
      rw [readRoom, hlen]
      by_cases hlt : sr < headerSize
      · rw [if_pos hlt]
        omega
      · rw [if_neg hlt, payloadSize_of_header (deserialize_take_wire (by omega) hn.le)]
        omega
    exact .inr (.inl ⟨hn, fun b => by simp [EchoMachine.step, RecvResult.fits, hroom]⟩)
  | replying k t hk h =>
    have hroom : 1 ≤ replyRoom (answer r.wire) ss := by
      rw [replyRoom, length_answer_wire]
      split <;> omega
    exact .inr (.inr (.inl (by simp [EchoMachine.step, SendResult.fits, hroom])))
  | answered t h | next t h => exact .inr (.inr (.inr rfl))

end DcBench.ServerExchange

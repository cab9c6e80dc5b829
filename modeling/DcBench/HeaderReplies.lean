import DcBench.HomaServer
import DcBench.Lib.Numerals

namespace DcBench.HeaderReplies

open DcBench.Lib DcBench.Message DcBench.TcpServer DcBench.EchoMachine DcBench.ServerRefinement
open DcBench.HomaServer (Answers answers_set requests AnswersParcel)

/-- The message being read, or the request being answered, is what the connection
delivered last. -/
inductive Latest (received : List UInt8) : EchoMachine.Phase → Prop
  | reading (got : List UInt8) (h : got <:+ received) : Latest received (.reading got)
  | reply (req : List UInt8) (k : Nat) (hl : req.length = headerSize + payloadSize req) (h : req <:+ received) :
      Latest received (.reply (answer req) k)
  | idle : Latest received .idle
  | headerFailed : Latest received .headerFailed
  | left : Latest received .left

theorem Latest.message {received got : List UInt8} (h : Latest received (.reading got)) : got <:+ received := by
  cases h with
  | reading _ h => exact h

theorem latest_onBytes {t : Traffic} {got : List UInt8} (hl : got.length ≤ headerSize + payloadSize got)
    (h : got <:+ t.received) : Latest (onBytes t got).traffic.received (onBytes t got).phase := by
  unfold onBytes
  split
  case isTrue => exact .reading got h
  case isFalse hall => exact .reply got 0 (by omega) h

theorem latest_move {e e' : Echo} {ev : Event} (hm : Move e ev e') (h : Latest e.traffic.received e.phase) :
    Latest e'.traffic.received e'.phase := by
  cases hm with
  | enter t => exact .reading [] (List.nil_suffix)
  | retry t => exact .idle
  | cut t got r hr hg => exact .headerFailed
  | stop p t hp => exact .left
  | oversize t got bs hg hl hs => exact .left
  | broken t got r hr hg => exact .left
  | sendError t frame k => exact .left
  | header t got bs hb hl => exact .reading _ (List.suffix_append_self_iff.mpr h.message)
  | accept t got bs hg hl hs =>
    refine latest_onBytes ?_ (List.suffix_append_self_iff.mpr h.message)
    rw [hl]
    exact Nat.le_add_right _ _
  | payload t got bs hb hg hl =>
    refine latest_onBytes ?_ (List.suffix_append_self_iff.mpr h.message)
    rwa [payloadSize_append got bs hg]
  | sendSome t frame k n hn hf =>
    cases h with
    | reply req _ hl hsuf =>
      split
      · exact .reply req (k + n) hl hsuf
      · exact .idle

theorem sendHeader_answers {stack : Fin headerSize → UInt8} {payloadBuf : List UInt8} {rc bc : UInt64}
    {es : List Event} {h : Handler}
    (hr : Transition.run TcpServer.step (TcpServer.start stack payloadBuf rc bc) es = some h)
    {hdr : MessageHeader} {k : Nat} (hp : h.phase = .sendHeader hdr k) :
    ∃ req, req <:+ h.traffic.received ∧ req.length = headerSize + payloadSize req ∧
      Answers (req.take headerSize) h.hdrBuf := by
  have hwf : Wf h :=
    Transition.invariant (fun s e t hw ht => (step_spec s hw e).1 t ht) (wf_start stack payloadBuf rc bc) hr
  have hview := run_view stack payloadBuf rc bc es
  rw [hr, Option.map_some] at hview
  have hlatest : Latest (view h).traffic.received (view h).phase :=
    Transition.invariant (P := fun e => Latest e.traffic.received e.phase)
      (fun _ _ _ hl hs => latest_move (move_of_step hs) hl) .idle hview.symm
  have hphase : (view h).phase = .reply (h.hdrBuf ++ h.payloadBuf.take hdr.payloadSize.toNat) k := by
    simp only [view, hp]
  rw [hphase] at hlatest
  generalize hframe : h.hdrBuf ++ h.payloadBuf.take hdr.payloadSize.toNat = frame at hlatest
  cases hlatest with
  | reply req _ hl hsuf =>
    refine ⟨req, hsuf, hl, ?_⟩
    have hle : headerSize ≤ req.length := hl ▸ Nat.le_add_right _ _
    have htake := congrArg (List.take headerSize) hframe
    rw [List.take_append_of_le_length hwf.hdrBuf.ge, List.take_of_length_le hwf.hdrBuf.le, answer,
      List.take_set] at htake
    rw [htake]
    exact answers_set (List.length_take_of_le hle).ge

/-- The codec is a bijection between headers and 22-byte strings, and a reply of
either server is its request with another type byte. -/
theorem codec_bijective_and_replies_differ_in_type :
    (∀ hdr, deserializeHeader (serializeHeader hdr) = hdr) ∧
    (∀ bytes : List UInt8, bytes.length = headerSize → serializeHeader (deserializeHeader bytes) = bytes) ∧
    (∀ (n : Nat) (es : List (HomaServer.Event n)) (s : HomaServer.State n),
      Transition.run HomaServer.step (HomaServer.start n) es = some s →
      ∀ j, List.Forall₂ AnswersParcel (requests (s.workers j).received) (s.workers j).replies) ∧
    ∀ (stack : Fin headerSize → UInt8) (payloadBuf : List UInt8) (rc bc : UInt64) (es : List Event) (h : Handler),
      Transition.run TcpServer.step (TcpServer.start stack payloadBuf rc bc) es = some h →
      ∀ hdr k, h.phase = .sendHeader hdr k →
        ∃ req, req <:+ h.traffic.received ∧ req.length = headerSize + payloadSize req ∧
          Answers (req.take headerSize) h.hdrBuf := by
  refine ⟨deserialize_serialize, serialize_deserialize, ?_, ?_⟩
  · intro n es s hs j
    exact (HomaServer.echoing_run hs j).replies
  · intro stack payloadBuf rc bc es h hr hdr k hp
    exact sendHeader_answers hr hp

/-- A request with a type byte that no `MessageType` names. -/
def ping : List UInt8 := serializeHeader ⟨7, 0, 0, 9, 0⟩

theorem codec_bijective_and_replies_differ_in_type_ping :
    ∃ (s : HomaServer.State 1) (h : Handler),
      Transition.run HomaServer.step (HomaServer.start 1) [.test 0, .recv 0 (some ⟨(0, 0), 1, ping⟩)] = some s ∧
      Transition.run TcpServer.step (TcpServer.start (fun _ => 0) [] 0 0)
        [.running true, .recv (.data ping)] = some h ∧
      deserializeHeader (serializeHeader ⟨7, 0, 0, 9, 0⟩) = ⟨7, 0, 0, 9, 0⟩ ∧
      serializeHeader (deserializeHeader ping) = ping ∧
      List.Forall₂ AnswersParcel (requests (s.workers 0).received) (s.workers 0).replies ∧
      ∃ req, req <:+ h.traffic.received ∧ req.length = headerSize + payloadSize req ∧
        Answers (req.take headerSize) h.hdrBuf := by
  obtain ⟨s, hs⟩ : ∃ s : HomaServer.State 1, Transition.run HomaServer.step (HomaServer.start 1)
      [.test 0, .recv 0 (some ⟨(0, 0), 1, ping⟩)] = some s := ⟨_, rfl⟩
  obtain ⟨h, hr, hp⟩ : ∃ h : Handler, Transition.run TcpServer.step (TcpServer.start (fun _ => 0) [] 0 0)
      [.running true, .recv (.data ping)] = some h ∧ h.phase = .sendHeader ⟨7, 0, 0, 2, 0⟩ 0 := ⟨_, rfl, rfl⟩
  obtain ⟨hdecode, hencode, hhoma, htcp⟩ := codec_bijective_and_replies_differ_in_type
  exact ⟨s, h, hs, hr, hdecode _, hencode ping (by decide), hhoma 1 _ s hs 0, htcp _ _ _ _ _ h hr _ _ hp⟩

end DcBench.HeaderReplies

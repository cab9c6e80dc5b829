import DcBench.RequestStream
import DcBench.ServerRefinement

namespace DcBench.ServerTracking

open DcBench.Lib DcBench.Message DcBench.ExactTransfer DcBench.TcpServer DcBench.EchoMachine DcBench.RequestStream

def eventBytes : Event → List UInt8
  | .recv r => r.bytes
  | .running _ | .send _ => []

def delivered (es : List Event) : List UInt8 := es.flatMap eventBytes

/-- Every receive of the list gives bytes or is a timeout that strikes at a
stream position in `A`; `p` bytes were delivered before the list. -/
def TimeoutsIn (A : Set Nat) : Nat → List Event → Prop
  | _, [] => True
  | p, .recv (.data bs) :: es => TimeoutsIn A (p + bs.length) es
  | p, .recv .error :: es => p ∈ A ∧ TimeoutsIn A p es
  | _, .recv .eof :: _ => False
  | p, .running _ :: es => TimeoutsIn A p es
  | p, .send _ :: es => TimeoutsIn A p es

theorem delivered_append (es fs : List Event) : delivered (es ++ fs) = delivered es ++ delivered fs :=
  List.flatMap_append

theorem timeoutsIn_append (A : Set Nat) (p : Nat) (es fs : List Event) :
    TimeoutsIn A p (es ++ fs) ↔ TimeoutsIn A p es ∧ TimeoutsIn A (p + (delivered es).length) fs := by
  induction es generalizing p with
  | nil => simp [TimeoutsIn, delivered]
  | cons e es ih =>
    have hd : (delivered (e :: es)).length = (eventBytes e).length + (delivered es).length := by
      simp [delivered]
    rw [List.cons_append, hd, ← Nat.add_assoc]
    cases e with
    | running b => exact ih p
    | send r => exact ih p
    | recv r =>
      cases r with
      | data bs => exact ih (p + bs.length)
      | eof => simp [TimeoutsIn]
      | error =>
        simp only [TimeoutsIn, ih p, eventBytes, RecvResult.bytes, List.length_nil, Nat.add_zero, and_assoc]

/-- Where the handler can be while the stream `rs` arrives. It is in step with
the messages, or it has left, or it lost a piece of a header so late that the
stream cannot hold another one. -/
inductive Tracked (rs : List Request) : Echo → Prop
  | boundary (p : EchoMachine.Phase) (t : Traffic) (done rest : List Request) (hrs : rs = done ++ rest)
      (hp : p = .idle ∨ p = .headerFailed ∨ ∃ frame k, p = .reply frame k)
      (hr : t.received = wire done) (hd : t.decoded = starts 0 done) : Tracked rs ⟨p, t⟩
  | header (got : List UInt8) (t : Traffic) (done rest : List Request) (hrs : rs = done ++ rest)
      (hg : got.length < headerSize) (hr : t.received = wire done ++ got)
      (hd : t.decoded = starts 0 done) : Tracked rs ⟨.reading got, t⟩
  | payload (got : List UInt8) (t : Traffic) (done : List Request) (r : Request) (rest : List Request)
      (hrs : rs = done ++ r :: rest) (hg : headerSize ≤ got.length)
      (hl : got.length < r.wire.length) (hr : t.received = wire done ++ got)
      (hd : t.decoded = starts 0 (done ++ [r])) : Tracked rs ⟨.reading got, t⟩
  | left (t : Traffic) (hd : t.decoded <+: starts 0 rs) : Tracked rs ⟨.left, t⟩
  | lost (p : EchoMachine.Phase) (t : Traffic) (hp : p = .idle ∨ p = .headerFailed)
      (hd : t.decoded <+: starts 0 rs) (hl : (wire rs).length < t.received.length + headerSize) :
      Tracked rs ⟨p, t⟩
  | lostHeader (got : List UInt8) (t : Traffic) (hg : got.length < headerSize)
      (hd : t.decoded <+: starts 0 rs)
      (hl : (wire rs).length + got.length < t.received.length + headerSize) :
      Tracked rs ⟨.reading got, t⟩

theorem Tracked.decoded_isPrefix {rs : List Request} {e : Echo} (h : Tracked rs e) :
    e.traffic.decoded <+: starts 0 rs := by
  cases h with
  | boundary p t done rest hrs hp hr hd | header got t done rest hrs hg hr hd =>
    rw [hd, hrs]
    exact starts_isPrefix done rest
  | payload got t done r rest hrs hg hl hr hd =>
    rw [hd, hrs, List.append_cons done r rest]
    exact starts_isPrefix _ rest
  | left t hd | lost p t hp hd hl | lostHeader got t hg hd hl => exact hd

theorem prefix_rest {rs done rest : List Request} {xs : List UInt8} (hrs : rs = done ++ rest)
    (h : wire done ++ xs <+: wire rs) : xs <+: wire rest := by
  rw [hrs, wire_append] at h
  exact (List.prefix_append_right_inj _).mp h

theorem tracked_onBytes {rs done rest : List Request} {r : Request} {got : List UInt8} {t : Traffic}
    (hrs : rs = done ++ r :: rest) (hg : headerSize ≤ got.length)
    (hh : deserializeHeader got = r.header) (hw : got <+: r.wire)
    (hr : t.received = wire done ++ got) (hd : t.decoded = starts 0 (done ++ [r])) :
    Tracked rs (onBytes t got) := by
  have hlen := length_wire r
  unfold onBytes
  rw [payloadSize_of_header hh]
  by_cases hl : got.length < headerSize + r.payload.length
  · rw [if_pos hl]
    exact .payload got t done r rest hrs hg (by omega) hr hd
  · rw [if_neg hl]
    have heq : got = r.wire := hw.eq_of_length_le (by omega)
    refine .boundary _ _ (done ++ [r]) rest (by simpa using hrs) (.inr (.inr ⟨_, _, rfl⟩)) ?_ ?_
    · simp [Traffic.count, hr, heq, wire]
    · simpa [Traffic.count] using hd

theorem insideHeader_of_cut {rs done rest : List Request} {got : List UInt8} (hrs : rs = done ++ rest)
    (hne : got ≠ []) (hg : got.length < headerSize) (hp : wire done ++ got <+: wire rs) :
    InsideHeader rs (wire done ++ got).length := by
  have hpos := List.length_pos_iff.mpr hne
  cases rest with
  | nil =>
    have hnil : got <+: [] := prefix_rest hrs hp
    exact absurd (List.prefix_nil.mp hnil) hne
  | cons r rest =>
    refine ⟨((wire done).length, r.header), ?_, ?_, ?_⟩
    · rw [hrs, List.append_cons]
      exact (starts_isPrefix _ rest).subset (by simp [starts_concat])
    · simp only [List.length_append]
      omega
    · simp only [List.length_append]
      omega

/-- In the middle of a header the handler is in step, or has lost its step too
late for another header. -/
theorem Tracked.inHeader {rs : List Request} {got : List UInt8} {t : Traffic} (h : Tracked rs ⟨.reading got, t⟩)
    (hg : got.length < headerSize) :
    (∃ done rest, rs = done ++ rest ∧ t.received = wire done ++ got ∧ t.decoded = starts 0 done) ∨
      (t.decoded <+: starts 0 rs ∧ (wire rs).length + got.length < t.received.length + headerSize) := by
  cases h with
  | boundary _ _ _ _ _ hq _ _ | lost _ _ hq _ _ => simp at hq
  | header _ _ done rest hrs _ hr hd => exact .inl ⟨done, rest, hrs, hr, hd⟩
  | payload _ _ _ _ _ _ hg' _ _ _ => omega
  | lostHeader _ _ _ hd hl => exact .inr ⟨hd, hl⟩

theorem Tracked.inPayload {rs : List Request} {got : List UInt8} {t : Traffic} (h : Tracked rs ⟨.reading got, t⟩)
    (hg : headerSize ≤ got.length) :
    ∃ done r rest, rs = done ++ r :: rest ∧ t.received = wire done ++ got ∧ t.decoded = starts 0 (done ++ [r]) := by
  cases h with
  | boundary _ _ _ _ _ hq _ _ | lost _ _ hq _ _ => simp at hq
  | header _ _ _ _ _ hg' _ _ | lostHeader _ _ hg' _ _ => omega
  | payload _ _ done r rest hrs _ _ hr hd => exact ⟨done, r, rest, hrs, hr, hd⟩

/-- A failed receive inside a header loses the step, unless nothing of the
header had arrived. -/
theorem tracked_cut {rs : List Request} {got : List UInt8} {t : Traffic} (ht : Tracked rs ⟨.reading got, t⟩)
    (hg : got.length < headerSize) (hp : t.received <+: wire rs)
    (hcut : InsideHeader rs t.received.length → (wire rs).length < t.received.length + headerSize) :
    Tracked rs ⟨.headerFailed, t⟩ := by
  obtain ⟨done, rest, hrs, hr, hd⟩ | ⟨hd, hl⟩ := ht.inHeader hg
  · by_cases hne : got = []
    · exact .boundary _ t done rest hrs (.inr (.inl rfl)) (by simpa [hne] using hr) hd
    · have hin := insideHeader_of_cut hrs hne hg (hr ▸ hp)
      rw [← hr] at hin
      refine .lost _ t (.inr rfl) ?_ (hcut hin)
      rw [hd, hrs]
      exact starts_isPrefix done rest
  · exact .lost _ t (.inr rfl) hd (by omega)

/-- A header that the handler completes is that of the next request: out of step
it has too few bytes left to complete one. -/
theorem inStep_of_header {rs : List Request} {got bs : List UInt8} {t : Traffic} (ht : Tracked rs ⟨.reading got, t⟩)
    (hg : got.length < headerSize) (hl : (got ++ bs).length = headerSize) (hp : t.received ++ bs <+: wire rs) :
    ∃ done r rest, rs = done ++ r :: rest ∧ t.received = wire done ++ got ∧ t.decoded = starts 0 done ∧
      deserializeHeader (got ++ bs) = r.header ∧ got ++ bs <+: r.wire := by
  obtain ⟨done, rest, hrs, hr, hd⟩ | ⟨hd, hlost⟩ := ht.inHeader hg
  · rw [hr, List.append_assoc] at hp
    obtain ⟨r, rest', hrest, hh, hw⟩ := header_of_isPrefix (prefix_rest hrs hp) hl.ge
    have hlen := length_wire r
    exact ⟨done, r, rest', hrest ▸ hrs, hr, hd, hh, hw (by omega)⟩
  · have hle := hp.length_le
    rw [List.length_append] at hle hl
    omega

theorem tracked_accept {rs : List Request} {got bs : List UInt8} {t : Traffic} (ht : Tracked rs ⟨.reading got, t⟩)
    (hg : got.length < headerSize) (hl : (got ++ bs).length = headerSize) (hp : t.received ++ bs <+: wire rs) :
    Tracked rs (onBytes ((t.receive bs).decode (deserializeHeader (got ++ bs))) (got ++ bs)) := by
  obtain ⟨done, r, rest, hrs, hr, hd, hh, hw⟩ := inStep_of_header ht hg hl hp
  refine tracked_onBytes hrs hl.ge hh hw (by simp [hr]) ?_
  rw [starts_concat, Traffic.decode_decoded, Traffic.receive_decoded, hd, hh,
    Traffic.receive_received, hr, List.append_assoc, List.length_append, hl, Nat.add_sub_cancel]

theorem tracked_payload {rs : List Request} {got bs : List UInt8} {t : Traffic} (ht : Tracked rs ⟨.reading got, t⟩)
    (hg : headerSize ≤ got.length) (hl : (got ++ bs).length ≤ headerSize + payloadSize got)
    (hp : t.received ++ bs <+: wire rs) : Tracked rs (onBytes (t.receive bs) (got ++ bs)) := by
  obtain ⟨done, r, rest, hrs, hr, hd⟩ := ht.inPayload hg
  rw [hr, List.append_assoc] at hp
  have hrest := prefix_rest hrs hp
  have hgot : headerSize ≤ (got ++ bs).length := by
    rw [List.length_append]
    omega
  obtain ⟨r', rest', heq, hh, hw⟩ := header_of_isPrefix hrest hgot
  obtain ⟨rfl, rfl⟩ : r = r' ∧ rest = rest' := by simpa using heq
  obtain ⟨r', rest'', heq', hh', -⟩ := header_of_isPrefix ((List.prefix_append got bs).trans hrest) hg
  obtain ⟨rfl, -⟩ : r = r' ∧ rest = rest'' := by simpa using heq'
  rw [payloadSize_of_header hh'] at hl
  have hlen := length_wire r
  exact tracked_onBytes hrs hgot hh (hw (by omega)) (by simp [hr]) hd

/-- One step keeps track of the stream, unless a timeout strikes inside a
header that still has 22 bytes of the stream behind it. -/
theorem tracked_move {rs : List Request} {e e' : Echo} {ev : Event} (hm : Move e ev e')
    (hp : e.traffic.received ++ eventBytes ev <+: wire rs)
    (hcut : ∀ r, ev = .recv r → r = .eof ∨ r = .error → InsideHeader rs e.traffic.received.length →
      (wire rs).length < e.traffic.received.length + headerSize)
    (ht : Tracked rs e) : Tracked rs e' := by
  cases hm with
  | enter t =>
    cases ht with
    | boundary _ _ done rest hrs _ hr hd =>
      exact .header [] t done rest hrs (by decide) (by simpa using hr) hd
    | lost _ _ _ hd hl => exact .lostHeader [] t (by decide) hd (by simpa using hl)
  | retry t =>
    cases ht with
    | boundary _ _ done rest hrs _ hr hd => exact .boundary _ t done rest hrs (.inl rfl) hr hd
    | lost _ _ _ hd hl => exact .lost _ t (.inl rfl) hd hl
  | stop p t _ => exact .left t ht.decoded_isPrefix
  | sendError t frame k => exact .left t ht.decoded_isPrefix
  | broken t got r _ _ => exact .left t ht.decoded_isPrefix
  | sendSome t frame k n _ _ =>
    cases ht with
    | boundary _ _ done rest hrs _ hr hd =>
      refine .boundary _ _ done rest hrs ?_ hr hd
      by_cases hk : k + n < frame.length <;> simp [hk]
    | lost _ _ hq _ _ => simp at hq
  | cut t got r hr hg => exact tracked_cut ht hg ((List.prefix_append _ _).trans hp) (hcut r rfl hr)
  | header t got bs _ hl =>
    have hlen := hl
    rw [List.length_append] at hlen
    obtain ⟨done, rest, hrs, hr, hd⟩ | ⟨hd, hlost⟩ := ht.inHeader (by omega)
    · exact .header _ _ done rest hrs hl (by simp [hr]) hd
    · exact .lostHeader _ _ hl hd (by simp only [Traffic.receive_received, List.length_append]; omega)
  | oversize t got bs hg hl hs =>
    obtain ⟨done, r, rest, -, -, -, hh, -⟩ := inStep_of_header ht hg hl hp
    rw [payloadSize_of_header hh] at hs
    exact absurd r.size_le (Nat.not_le.mpr hs)
  | accept t got bs hg hl hs => exact tracked_accept ht hg hl hp
  | payload t got bs _ hg hl => exact tracked_payload ht hg hl hp

theorem received_move {e e' : Echo} {ev : Event} (hm : Move e ev e') :
    e'.traffic.received = e.traffic.received ++ eventBytes ev := by
  have hb (t : Traffic) (got : List UInt8) : (onBytes t got).traffic.received = t.received := by
    unfold onBytes
    split <;> rfl
  cases hm with
  | cut t got r hr hg | broken t got r hr hg =>
    rcases hr with rfl | rfl <;> simp [eventBytes, RecvResult.bytes]
  | accept t got bs hg hl hs => simp [hb, eventBytes, RecvResult.bytes]
  | payload t got bs hb' hg hl => simp [hb, eventBytes, RecvResult.bytes]
  | _ => simp [eventBytes, RecvResult.bytes]

theorem tracked_run {rs : List Request} {A : Set Nat} {rc bc : UInt64} {es : List Event} {e : Echo}
    (hA : ∀ p ∈ A, InsideHeader rs p → (wire rs).length < p + headerSize)
    (hr : Transition.run EchoMachine.step (EchoMachine.start rc bc) es = some e) :
    delivered es <+: wire rs → TimeoutsIn A 0 es → Tracked rs e ∧ e.traffic.received = delivered es := by
  refine Transition.run_induction (motive := fun es e => delivered es <+: wire rs →
    TimeoutsIn A 0 es → Tracked rs e ∧ e.traffic.received = delivered es) ?_ ?_ hr
  · intro _ _
    exact ⟨.boundary _ _ [] rs rfl (.inl rfl) rfl rfl, rfl⟩
  · intro es ev t u _ ih hstep hd ht
    rw [delivered_append] at hd
    rw [timeoutsIn_append] at ht
    obtain ⟨htr, hrec⟩ := ih ((List.prefix_append _ _).trans hd) ht.1
    have hm := move_of_step hstep
    have hev : delivered [ev] = eventBytes ev := by simp [delivered]
    refine ⟨tracked_move hm (by rwa [hrec, ← hev]) ?_ htr, ?_⟩
    · intro r hevr hfail hin
      subst hevr
      rcases hfail with rfl | rfl
      · exact ht.2.elim
      · rw [hrec] at hin ⊢
        have hp := ht.2.1
        rw [Nat.zero_add] at hp
        exact hA _ hp hin
    · rw [received_move hm, hrec, delivered_append, hev]

end DcBench.ServerTracking

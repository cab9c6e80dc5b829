import DcBench.ServerTracking

namespace DcBench.ServerFraming

open DcBench.Lib DcBench.Message DcBench.ExactTransfer DcBench.TcpServer DcBench.EchoMachine
open DcBench.RequestStream DcBench.ServerTracking

/-- One request served without a failure: two reads and two writes, or one of
each when there is no payload. -/
def serve (r : Request) : List Event :=
  .running true :: .recv (.data (serializeHeader r.header)) ::
    (if r.payload = [] then [.send (.sent headerSize)]
    else [.recv (.data r.payload), .send (.sent headerSize), .send (.sent r.payload.length)])

theorem delivered_serve (r : Request) : delivered (serve r) = r.wire := by
  unfold serve
  by_cases hp : r.payload = []
  · simp [delivered, eventBytes, RecvResult.bytes, Request.wire, hp]
  · simp [delivered, eventBytes, RecvResult.bytes, Request.wire, hp]

theorem timeoutsIn_serve (A : Set Nat) (p : Nat) (r : Request) : TimeoutsIn A p (serve r) := by
  unfold serve
  by_cases hp : r.payload = [] <;> simp [TimeoutsIn, hp]

def served (t : Traffic) (r : Request) : Traffic where
  requestCount := t.requestCount + 1
  byteCount := t.byteCount + (22 + r.header.payloadSize.toUInt64)
  received := t.received ++ r.wire
  decoded := t.decoded ++ [(t.received.length, r.header)]
  sent := t.sent ++ answer r.wire

theorem serve_run (t : Traffic) (r : Request) :
    Transition.run EchoMachine.step ⟨.idle, t⟩ (serve r) = some ⟨.idle, served t r⟩ := by
  have hd (xs : List UInt8) : deserializeHeader (serializeHeader r.header ++ xs) = r.header := by
    rw [deserialize_append _ _ (length_serializeHeader _), deserialize_serialize]
  have hs (xs : List UInt8) : payloadSize (serializeHeader r.header ++ xs) = r.payload.length :=
    payloadSize_of_header (hd xs)
  have hd0 := deserialize_serialize r.header
  have hs0 : payloadSize (serializeHeader r.header) = r.payload.length := payloadSize_of_header hd0
  have hmax : ¬ maxPayloadSize < r.payload.length := Nat.not_lt.mpr r.size_le
  have h22 : 0 < headerSize := by decide
  by_cases hp : r.payload = []
  · have hall : ((serializeHeader r.header).set 13 response).take headerSize =
        (serializeHeader r.header).set 13 response := List.take_of_length_le (by simp)
    simp [serve, served, hp, Transition.run, EchoMachine.step, Echo.recv, Echo.send, EchoMachine.onHeader,
      onBytes, RecvResult.fits, SendResult.fits, readRoom, replyRoom, answer, hs0, h22, hd0, Request.wire,
      Traffic.ext_iff, hall]
  · have hpos : 0 < r.payload.length := List.length_pos_iff.mpr hp
    have hall (xs : List UInt8) (hx : xs.length = headerSize + r.payload.length) :
        xs.take headerSize ++ (xs.drop headerSize).take r.payload.length = xs := by
      rw [List.take_of_length_le (i := r.payload.length) (by simp [hx]), List.take_append_drop]
    have hjoin := hall ((serializeHeader r.header ++ r.payload).set 13 response) (by simp)
    simp [serve, served, hp, Transition.run, EchoMachine.step, Echo.recv, Echo.send, EchoMachine.onHeader,
      onBytes, RecvResult.fits, SendResult.fits, readRoom, replyRoom, answer, hs0, hs, h22, hd0, hd, hmax,
      hpos, Request.wire, Traffic.ext_iff, hjoin]

theorem serveAll_run (t : Traffic) (rs : List Request) :
    ∃ t', Transition.run EchoMachine.step ⟨.idle, t⟩ (rs.flatMap serve) = some ⟨.idle, t'⟩ ∧
      t'.received = t.received ++ wire rs := by
  induction rs generalizing t with
  | nil => exact ⟨t, rfl, by simp [wire]⟩
  | cons r rs ih =>
    obtain ⟨t', hr, hrec⟩ := ih (served t r)
    refine ⟨t', ?_, ?_⟩
    · rw [List.flatMap_cons, Transition.run_append_some]
      exact ⟨_, serve_run t r, hr⟩
    · rw [hrec, wire_cons]
      simp [served]

/-- A timeout after the bytes `got` of a header makes the handler read the next
22 bytes as a header. -/
def cutHeader (got next : List UInt8) : List Event :=
  [.running true, .recv (.data got), .recv .error, .running true, .running true, .recv (.data next)]

theorem cutHeader_run (t : Traffic) (got next : List UInt8) (hpos : 0 < got.length)
    (hg : got.length < headerSize) (hn : next.length = headerSize) :
    ∃ e, Transition.run EchoMachine.step ⟨.idle, t⟩ (cutHeader got next) = some e ∧
      ((t.received ++ got).length, deserializeHeader next) ∈ e.traffic.decoded := by
  have h22 : 0 < headerSize := by decide
  have hrun : Transition.run EchoMachine.step ⟨.idle, t⟩ (cutHeader got next) =
      some (EchoMachine.onHeader ((t.receive got).receive next) next) := by
    simp [cutHeader, Transition.run, EchoMachine.step, Echo.recv, RecvResult.fits, readRoom, hpos, hg, hg.le,
      hn, h22]
  refine ⟨_, hrun, ?_⟩
  have hmem : ((t.received ++ got).length, deserializeHeader next) ∈
      (((t.receive got).receive next).decode (deserializeHeader next)).decoded := by
    simp only [Traffic.decode_decoded, Traffic.receive_received, List.mem_append, List.mem_singleton]
    refine .inr (Prod.ext ?_ rfl)
    simp only [List.length_append, hn, Nat.add_sub_cancel]
  unfold EchoMachine.onHeader onBytes
  split
  · exact hmem
  · split <;> exact hmem

theorem timeoutsIn_serveAll (A : Set Nat) (p : Nat) (rs : List Request) :
    TimeoutsIn A p (rs.flatMap serve) := by
  induction rs generalizing p with
  | nil => trivial
  | cons r rs ih =>
    rw [List.flatMap_cons, timeoutsIn_append]
    exact ⟨timeoutsIn_serve A p r, ih _⟩

theorem delivered_serveAll (rs : List Request) : delivered (rs.flatMap serve) = wire rs := by
  induction rs with
  | nil => rfl
  | cons r rs ih => rw [List.flatMap_cons, delivered_append, delivered_serve, ih, wire_cons]

/-- A run that loses its place: it serves the requests before the cut, is
interrupted at `p`, and then decodes a header that starts at `p`. -/
theorem cut_run {rs : List Request} {p : Nat} (hin : InsideHeader rs p)
    (hlen : p + headerSize ≤ (wire rs).length) (rc bc : UInt64) :
    ∃ es e, Transition.run EchoMachine.step (EchoMachine.start rc bc) es = some e ∧
      delivered es <+: wire rs ∧ TimeoutsIn {p} 0 es ∧ ∃ hdr, (p, hdr) ∈ e.traffic.decoded := by
  obtain ⟨s, hs, hlo, hhi⟩ := hin
  obtain ⟨done, r, rest, rfl, hoff⟩ := mem_starts hs
  rw [Nat.zero_add] at hoff
  rw [wire_append, List.length_append] at hlen
  -- the bytes of the stream from the interrupted header on
  let tail := wire (r :: rest)
  let got := tail.take (p - (wire done).length)
  let next := (tail.drop (p - (wire done).length)).take headerSize
  have hgot : got.length = p - (wire done).length := by simp only [got, List.length_take, tail]; omega
  have hnext : next.length = headerSize := by
    simp only [next, List.length_take, List.length_drop, tail]
    omega
  have hpre : got ++ next <+: tail := by
    refine ⟨(tail.drop (p - (wire done).length)).drop headerSize, ?_⟩
    rw [List.append_assoc, List.take_append_drop, List.take_append_drop]
  obtain ⟨t, hrun, hrec⟩ := serveAll_run (EchoMachine.start rc bc).traffic done
  obtain ⟨e, hcut, hmem⟩ := cutHeader_run t got next (by omega) (by omega) hnext
  have hp : (t.received ++ got).length = p := by
    rw [List.length_append, hgot, hrec]
    simp [EchoMachine.start]
    omega
  refine ⟨done.flatMap serve ++ cutHeader got next, e, ?_, ?_, ?_, deserializeHeader next, hp ▸ hmem⟩
  · exact Transition.run_append_some.mpr ⟨_, hrun, hcut⟩
  · have hd : delivered (cutHeader got next) = got ++ next := by
      simp [cutHeader, delivered, eventBytes, RecvResult.bytes]
    rw [delivered_append, delivered_serveAll, hd, wire_append]
    exact (List.prefix_append_right_inj _).mpr hpre
  · rw [timeoutsIn_append, delivered_serveAll, Nat.zero_add]
    refine ⟨timeoutsIn_serveAll _ 0 done, ?_⟩
    simp only [cutHeader, TimeoutsIn, Set.mem_singleton_iff, and_true]
    omega

theorem timeoutsIn_mono {A B : Set Nat} (h : A ⊆ B) {p : Nat} {es : List Event} (ht : TimeoutsIn A p es) :
    TimeoutsIn B p es := by
  induction es generalizing p with
  | nil => trivial
  | cons e es ih =>
    cases e with
    | running b => exact ih ht
    | send r => exact ih ht
    | recv r =>
      cases r with
      | data bs => exact ih ht
      | eof => exact ht.elim
      | error => exact ⟨h ht.1, ih ht.2⟩

/-- Framing survives every run whose timeouts strike at positions of `A` exactly
when no position of `A` lies inside a header that has 22 more bytes of the
stream behind the interruption. -/
theorem framed_iff_no_timeout_inside_header (rs : List Request) (A : Set Nat) :
    (∀ stack payloadBuf rc bc es h,
      Transition.run TcpServer.step (TcpServer.start stack payloadBuf rc bc) es = some h →
      delivered es <+: wire rs → TimeoutsIn A 0 es → Framed rs h.traffic.decoded) ↔
    ∀ p ∈ A, InsideHeader rs p → (wire rs).length < p + headerSize := by
  constructor
  · intro hall p hp hin
    by_contra hlen
    obtain ⟨es, e, hrun, hd, ht, hdr, hmem⟩ := cut_run hin (Nat.le_of_not_lt hlen) 0 0
    rw [← ServerRefinement.run_view (fun _ => 0) []] at hrun
    obtain ⟨h, hh, rfl⟩ := Option.map_eq_some_iff.mp hrun
    have hf := hall _ _ _ _ es h hh hd (timeoutsIn_mono (Set.singleton_subset_iff.mpr hp) ht)
    exact not_boundary_of_inside hin (hf.2 _ hmem)
  · intro hA stack payloadBuf rc bc es h hrun hd ht
    have hview := ServerRefinement.run_view stack payloadBuf rc bc es
    rw [hrun] at hview
    obtain ⟨htr, -⟩ := tracked_run hA hview.symm hd ht
    exact framed_of_isPrefix htr.decoded_isPrefix

def ping (id : UInt64) : Request where
  header := ⟨id, 0, 7, request, 1000⟩
  payload := []
  size_eq := rfl
  size_le := by decide

/-- Two empty requests, and a timeout after the first byte of the first one. -/
theorem timeout_inside_header_breaks_framing :
    let rs := [ping 1, ping 2]
    let es := cutHeader ((wire rs).take 1) (((wire rs).drop 1).take 22)
    ∃ h, Transition.run TcpServer.step (TcpServer.start (fun _ => 0) [] 0 0) es = some h ∧
      delivered es <+: wire rs ∧ TimeoutsIn Set.univ 0 es ∧ ¬ Framed rs h.traffic.decoded := by
  intro rs es
  have hrun : (Transition.run TcpServer.step (TcpServer.start (fun _ => 0) [] 0 0) es).map
      (fun h => h.traffic.decoded.map Prod.fst) = some [1] := by decide +kernel
  obtain ⟨h, hh, hd⟩ := Option.map_eq_some_iff.mp hrun
  refine ⟨h, hh, ?_, ?_, ?_⟩
  · exact ⟨(wire rs).drop 23, by decide +kernel⟩
  · simp [es, cutHeader, TimeoutsIn]
  · intro hf
    obtain ⟨d, hm, h1⟩ := List.mem_map.mp (show 1 ∈ h.traffic.decoded.map Prod.fst by simp [hd])
    have hb := hf.2 d hm
    rw [h1] at hb
    exact absurd hb (by decide +kernel)

end DcBench.ServerFraming

import DcBench.EchoMachine

namespace DcBench.RequestStream

open DcBench.Message DcBench.EchoMachine

/-- A well-formed request: the header announces exactly the payload that
follows it, and no more than the server accepts. -/
structure Request where
  header : MessageHeader
  payload : List UInt8
  size_eq : header.payloadSize.toNat = payload.length
  size_le : payload.length ≤ maxPayloadSize

def Request.wire (r : Request) : List UInt8 := serializeHeader r.header ++ r.payload

def wire (rs : List Request) : List UInt8 := rs.flatMap Request.wire

/-- The message boundaries of a stream, each with the header that starts there. -/
def starts : Nat → List Request → List (Nat × MessageHeader)
  | _, [] => []
  | off, r :: rs => (off, r.header) :: starts (off + r.wire.length) rs

/-- Strictly between the first and the last byte of some header. -/
def InsideHeader (rs : List Request) (p : Nat) : Prop :=
  ∃ s ∈ starts 0 rs, s.1 < p ∧ p < s.1 + headerSize

/-- The decoded headers are a prefix of the sent ones, and each of them was
read from a message boundary. -/
def Framed (rs : List Request) (ds : List (Nat × MessageHeader)) : Prop :=
  ds.map Prod.snd <+: rs.map Request.header ∧ ∀ d ∈ ds, d.1 ∈ (starts 0 rs).map Prod.fst

theorem length_wire (r : Request) : r.wire.length = headerSize + r.payload.length := by
  simp [Request.wire]

/-- The header of the server's reply. -/
def Request.replyHeader (r : Request) : MessageHeader := { r.header with type := response }

theorem answer_wire (r : Request) : answer r.wire = serializeHeader r.replyHeader ++ r.payload := by
  rw [answer, Request.wire, List.set_append_left _ _ (by simp [headerSize]), ← serialize_setType]
  rfl

theorem length_answer_wire (r : Request) : (answer r.wire).length = headerSize + r.payload.length := by
  rw [answer_wire, List.length_append, length_serializeHeader]

theorem wire_cons (r : Request) (rs : List Request) : wire (r :: rs) = r.wire ++ wire rs := rfl

theorem wire_append (rs qs : List Request) : wire (rs ++ qs) = wire rs ++ wire qs :=
  List.flatMap_append

theorem starts_append (off : Nat) (rs qs : List Request) :
    starts off (rs ++ qs) = starts off rs ++ starts (off + (wire rs).length) qs := by
  induction rs generalizing off with
  | nil => simp [starts, wire]
  | cons r rs ih =>
    rw [List.cons_append, starts, starts, ih, List.cons_append, wire_cons, List.length_append, Nat.add_assoc]

theorem starts_concat (rs : List Request) (r : Request) :
    starts 0 (rs ++ [r]) = starts 0 rs ++ [((wire rs).length, r.header)] := by
  rw [starts_append, Nat.zero_add]
  rfl

theorem map_snd_starts (off : Nat) (rs : List Request) :
    (starts off rs).map Prod.snd = rs.map Request.header := by
  induction rs generalizing off with
  | nil => rfl
  | cons r rs ih => rw [starts, List.map_cons, List.map_cons, ih]

theorem framed_of_isPrefix {rs : List Request} {ds : List (Nat × MessageHeader)} (h : ds <+: starts 0 rs) :
    Framed rs ds := by
  constructor
  · have hm := h.map Prod.snd
    rwa [map_snd_starts] at hm
  · intro d hd
    exact List.mem_map_of_mem (h.subset hd)

theorem starts_isPrefix (rs qs : List Request) : starts 0 rs <+: starts 0 (rs ++ qs) := by
  rw [starts_append]
  exact List.prefix_append _ _

theorem header_of_isPrefix {got : List UInt8} {rest : List Request} (hp : got <+: wire rest)
    (hl : headerSize ≤ got.length) :
    ∃ r rest', rest = r :: rest' ∧ deserializeHeader got = r.header ∧
      (got.length ≤ r.wire.length → got <+: r.wire) := by
  cases rest with
  | nil =>
    have hn : got = [] := List.prefix_nil.mp hp
    rw [hn] at hl
    cases hl
  | cons r rest =>
    rw [wire_cons] at hp
    have hh : serializeHeader r.header <+: got := by
      have hs : serializeHeader r.header <+: r.wire ++ wire rest := by
        rw [Request.wire, List.append_assoc]
        exact List.prefix_append _ _
      apply List.prefix_of_prefix_length_le hs hp
      rwa [length_serializeHeader]
    obtain ⟨tail, rfl⟩ := hh
    refine ⟨r, rest, rfl, ?_, ?_⟩
    · rw [deserialize_append _ _ (length_serializeHeader _), deserialize_serialize]
    · intro hlen
      exact List.prefix_of_prefix_length_le hp (List.prefix_append _ _) hlen

theorem payloadSize_of_header {got : List UInt8} {r : Request} (h : deserializeHeader got = r.header) :
    payloadSize got = r.payload.length := by
  rw [payloadSize, h, r.size_eq]

theorem mem_starts {off : Nat} {rs : List Request} {s : Nat × MessageHeader} (h : s ∈ starts off rs) :
    ∃ done r rest, rs = done ++ r :: rest ∧ s.1 = off + (wire done).length := by
  induction rs generalizing off with
  | nil => cases h
  | cons r rs ih =>
    rcases List.mem_cons.mp h with rfl | h
    · exact ⟨[], r, rs, rfl, rfl⟩
    · obtain ⟨done, q, rest, rfl, hs⟩ := ih h
      refine ⟨r :: done, q, rest, rfl, ?_⟩
      rw [hs, wire_cons, List.length_append, Nat.add_assoc]

theorem not_boundary_of_inside {rs : List Request} {p : Nat} (h : InsideHeader rs p) :
    p ∉ (starts 0 rs).map Prod.fst := by
  intro hm
  obtain ⟨s, hs, hlo, hhi⟩ := h
  obtain ⟨done, r, rest, rfl, hoff⟩ := mem_starts hs
  obtain ⟨s', hs', rfl⟩ := List.mem_map.mp hm
  have hl := length_wire r
  rw [starts_append, Nat.zero_add, starts] at hs'
  rcases List.mem_append.mp hs' with hs' | hs'
  · obtain ⟨done', q, rest', hd, hoff'⟩ := mem_starts hs'
    have hle : (wire done').length ≤ (wire done).length := by
      rw [hd, wire_append, List.length_append]
      exact Nat.le_add_right _ _
    omega
  · rcases List.mem_cons.mp hs' with rfl | hs'
    · simp only at hlo
      omega
    · obtain ⟨_, _, _, -, hoff'⟩ := mem_starts hs'
      omega

end DcBench.RequestStream

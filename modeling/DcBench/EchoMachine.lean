import DcBench.TcpServer

namespace DcBench.EchoMachine

open DcBench.Lib DcBench.Message DcBench.ExactTransfer DcBench.TcpServer

/-- The handler without its buffers: the bytes of the message being read, or
the reply and how much of it is already sent. -/
inductive Phase
  | idle
  | reading (got : List UInt8)
  | headerFailed
  | reply (frame : List UInt8) (sent : Nat)
  | left
deriving DecidableEq

structure Echo where
  phase : Phase
  traffic : Traffic
deriving DecidableEq

def payloadSize (frame : List UInt8) : Nat := (deserializeHeader frame).payloadSize.toNat

theorem payloadSize_append (got bs : List UInt8) (h : headerSize ≤ got.length) :
    payloadSize (got ++ bs) = payloadSize got := by
  have hsplit := List.take_append_drop headerSize got
  have htake : (got.take headerSize).length = headerSize := List.length_take_of_le h
  rw [payloadSize, payloadSize, ← hsplit, List.append_assoc, deserialize_append _ _ htake,
    deserialize_append _ _ htake]

/-- The reply to a request: the same bytes with the type byte replaced. -/
def answer (frame : List UInt8) : List UInt8 := frame.set 13 response

def readRoom (got : List UInt8) : Nat :=
  if got.length < headerSize then headerSize - got.length
  else headerSize + payloadSize got - got.length

def replyRoom (frame : List UInt8) (sent : Nat) : Nat :=
  if sent < headerSize then headerSize - sent else frame.length - sent

/-- `got` starts with an accepted header: wait for the rest of its payload or
answer it. -/
def onBytes (t : Traffic) (got : List UInt8) : Echo :=
  if got.length < headerSize + payloadSize got then ⟨.reading got, t⟩
  else ⟨.reply (answer got) 0, t.count (deserializeHeader got).payloadSize⟩

def onHeader (t : Traffic) (got : List UInt8) : Echo :=
  if maxPayloadSize < payloadSize got then ⟨.left, t.decode (deserializeHeader got)⟩
  else onBytes (t.decode (deserializeHeader got)) got

def Echo.recv (e : Echo) (got : List UInt8) : RecvResult → Echo
  | .data bs =>
    if (got ++ bs).length < headerSize then ⟨.reading (got ++ bs), e.traffic.receive bs⟩
    else if got.length < headerSize then onHeader (e.traffic.receive bs) (got ++ bs)
    else onBytes (e.traffic.receive bs) (got ++ bs)
  | .eof | .error => { e with phase := if got.length < headerSize then .headerFailed else .left }

def Echo.send (e : Echo) (frame : List UInt8) (k : Nat) : SendResult → Echo
  | .sent n =>
    { phase := if k + n < frame.length then .reply frame (k + n) else .idle
      traffic := e.traffic.send ((frame.drop k).take n) }
  | .error => { e with phase := .left }

def step (e : Echo) : Event → Option Echo
  | .running b =>
    match e.phase with
    | .idle => some { e with phase := if b then .reading [] else .left }
    | .headerFailed => some { e with phase := if b then .idle else .left }
    | _ => none
  | .recv r =>
    match e.phase with
    | .reading got => if r.fits (readRoom got) then some (e.recv got r) else none
    | _ => none
  | .send r =>
    match e.phase with
    | .reply frame k => if r.fits (replyRoom frame k) then some (e.send frame k r) else none
    | _ => none

def start (requestCount byteCount : UInt64) : Echo := ⟨.idle, ⟨requestCount, byteCount, [], [], []⟩⟩

inductive Move : Echo → Event → Echo → Prop
  | enter (t : Traffic) : Move ⟨.idle, t⟩ (.running true) ⟨.reading [], t⟩
  | retry (t : Traffic) : Move ⟨.headerFailed, t⟩ (.running true) ⟨.idle, t⟩
  | stop (p : Phase) (t : Traffic) (hp : p = .idle ∨ p = .headerFailed) :
      Move ⟨p, t⟩ (.running false) ⟨.left, t⟩
  | header (t : Traffic) (got bs : List UInt8) (hb : 0 < bs.length)
      (hl : (got ++ bs).length < headerSize) :
      Move ⟨.reading got, t⟩ (.recv (.data bs)) ⟨.reading (got ++ bs), t.receive bs⟩
  | oversize (t : Traffic) (got bs : List UInt8) (hg : got.length < headerSize)
      (hl : (got ++ bs).length = headerSize) (hs : maxPayloadSize < payloadSize (got ++ bs)) :
      Move ⟨.reading got, t⟩ (.recv (.data bs))
        ⟨.left, (t.receive bs).decode (deserializeHeader (got ++ bs))⟩
  | accept (t : Traffic) (got bs : List UInt8) (hg : got.length < headerSize)
      (hl : (got ++ bs).length = headerSize) (hs : payloadSize (got ++ bs) ≤ maxPayloadSize) :
      Move ⟨.reading got, t⟩ (.recv (.data bs))
        (onBytes ((t.receive bs).decode (deserializeHeader (got ++ bs))) (got ++ bs))
  | payload (t : Traffic) (got bs : List UInt8) (hb : 0 < bs.length) (hg : headerSize ≤ got.length)
      (hl : (got ++ bs).length ≤ headerSize + payloadSize got) :
      Move ⟨.reading got, t⟩ (.recv (.data bs)) (onBytes (t.receive bs) (got ++ bs))
  | cut (t : Traffic) (got : List UInt8) (r : RecvResult) (hr : r = .eof ∨ r = .error)
      (hg : got.length < headerSize) : Move ⟨.reading got, t⟩ (.recv r) ⟨.headerFailed, t⟩
  | broken (t : Traffic) (got : List UInt8) (r : RecvResult) (hr : r = .eof ∨ r = .error)
      (hg : headerSize ≤ got.length) : Move ⟨.reading got, t⟩ (.recv r) ⟨.left, t⟩
  | sendSome (t : Traffic) (frame : List UInt8) (k n : Nat) (hn : 0 < n) (hf : n ≤ replyRoom frame k) :
      Move ⟨.reply frame k, t⟩ (.send (.sent n))
        ⟨if k + n < frame.length then .reply frame (k + n) else .idle, t.send ((frame.drop k).take n)⟩
  | sendError (t : Traffic) (frame : List UInt8) (k : Nat) :
      Move ⟨.reply frame k, t⟩ (.send .error) ⟨.left, t⟩

theorem recv_move (t : Traffic) (got bs : List UInt8) (hb : 0 < bs.length)
    (hr : bs.length ≤ readRoom got) :
    Move ⟨.reading got, t⟩ (.recv (.data bs)) (Echo.recv ⟨.reading got, t⟩ got (.data bs)) := by
  unfold readRoom at hr
  rw [Echo.recv]
  by_cases hl : (got ++ bs).length < headerSize
  · rw [if_pos hl]
    exact .header t got bs hb hl
  · rw [if_neg hl]
    have hla : (got ++ bs).length = got.length + bs.length := List.length_append
    by_cases hg : got.length < headerSize
    · rw [if_pos hg] at hr ⊢
      have heq : (got ++ bs).length = headerSize := by omega
      unfold onHeader
      by_cases hs : maxPayloadSize < payloadSize (got ++ bs)
      · rw [if_pos hs]
        exact .oversize t got bs hg heq hs
      · rw [if_neg hs]
        exact .accept t got bs hg heq (Nat.le_of_not_lt hs)
    · rw [if_neg hg] at hr ⊢
      exact .payload t got bs hb (Nat.le_of_not_lt hg) (by omega)

theorem move_of_step {e e' : Echo} {ev : Event} (h : step e ev = some e') : Move e ev e' := by
  obtain ⟨p, t⟩ := e
  cases ev with
  | running b =>
    cases p with
    | idle =>
      cases b with
      | true => cases h; exact .enter t
      | false => cases h; exact .stop _ t (.inl rfl)
    | headerFailed =>
      cases b with
      | true => cases h; exact .retry t
      | false => cases h; exact .stop _ t (.inr rfl)
    | reading got | reply frame k | left => cases h
  | recv r =>
    cases p with
    | reading got =>
      simp only [step, Option.ite_none_right_eq_some, Option.some.injEq] at h
      obtain ⟨hf, rfl⟩ := h
      cases r with
      | data bs =>
        have hfit : 0 < bs.length ∧ bs.length ≤ readRoom got := by simpa [RecvResult.fits] using hf
        exact recv_move t got bs hfit.1 hfit.2
      | eof | error =>
        rw [Echo.recv]
        by_cases hg : got.length < headerSize
        · rw [if_pos hg]
          exact .cut t got _ (by simp) hg
        · rw [if_neg hg]
          exact .broken t got _ (by simp) (Nat.le_of_not_lt hg)
    | idle | headerFailed | reply frame k | left => cases h
  | send r =>
    cases p with
    | reply frame k =>
      simp only [step, Option.ite_none_right_eq_some, Option.some.injEq] at h
      obtain ⟨hf, rfl⟩ := h
      cases r with
      | sent n =>
        have hfit : 0 < n ∧ n ≤ replyRoom frame k := by simpa [SendResult.fits] using hf
        exact .sendSome t frame k n hfit.1 hfit.2
      | error => exact .sendError t frame k
    | idle | reading got | headerFailed | left => cases h

theorem Move.of_test {e e' : Echo} (h : Move e (.running true) e') : e'.traffic = e.traffic ∧
    (e.phase = .idle ∧ e'.phase = .reading [] ∨ e.phase = .headerFailed ∧ e'.phase = .idle) := by
  cases h with
  | enter t => exact ⟨rfl, .inl ⟨rfl, rfl⟩⟩
  | retry t => exact ⟨rfl, .inr ⟨rfl, rfl⟩⟩

theorem Move.recv_pos {e e' : Echo} {bs : List UInt8} (h : Move e (.recv (.data bs)) e') :
    0 < bs.length := by
  cases h with
  | header t got _ hb hl => exact hb
  | payload t got _ hb hg hl => exact hb
  | oversize t got _ hg hl hs | accept t got _ hg hl hs =>
    rw [List.length_append] at hl
    omega
  | cut t got _ hr hg | broken t got _ hr hg => simp at hr

theorem Move.send_reply {e e' : Echo} {r : SendResult} (h : Move e (.send r) e') :
    ∃ frame k, e.phase = .reply frame k := by
  cases h with
  | sendSome t frame k n hn hf => exact ⟨frame, k, rfl⟩
  | sendError t frame k => exact ⟨frame, k, rfl⟩

end DcBench.EchoMachine

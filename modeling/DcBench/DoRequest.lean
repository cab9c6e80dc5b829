import DcBench.Message
import DcBench.ExactTransfer
import DcBench.Lib.Transition

namespace DcBench.DoRequest

open DcBench.Lib DcBench.Message DcBench.ExactTransfer

/-- The system call that `TcpClient::do_request` makes next; `idle` is outside
the function. `hdr` is the request header, `resp` the header read back. -/
inductive Phase
  | idle
  | sendHeader (hdr : MessageHeader) (sent : Nat)
  | sendPayload (hdr : MessageHeader) (sent : Nat)
  | recvHeader (hdr : MessageHeader) (received : Nat)
  | recvPayload (hdr resp : MessageHeader) (received : Nat)
  | stamp (hdr resp : MessageHeader)
deriving DecidableEq

/-- One finished call: the header and payload it sent, the header and payload
it read back unless it failed, and the value it returned. -/
structure Exchange where
  request : MessageHeader
  payload : List UInt8
  answer : Option (MessageHeader × List UInt8)
  rtt : UInt64
deriving DecidableEq

structure Client where
  phase : Phase
  hdrBuf : List UInt8
  respHdrBuf : List UInt8
  sendBuf : List UInt8
  recvBuf : List UInt8
  exchanges : List Exchange
  sent : List UInt8
  received : List UInt8
deriving DecidableEq

structure Call where
  id : UInt64
  size : UInt32
  priority : UInt8
deriving DecidableEq

/-- `now` is the clock reading of the call's own `now_ns()`. -/
inductive Event
  | call (args : Call) (now : UInt64)
  | send (result : SendResult)
  | recv (result : RecvResult)
  | now (reading : UInt64)
deriving DecidableEq

def Call.header (c : Call) (now : UInt64) : MessageHeader where
  id := c.id
  payloadSize := c.size
  priority := c.priority
  type := request
  sendTimestampNs := now

def Client.finish (c : Client) (hdr : MessageHeader) (answer : Option (MessageHeader × List UInt8))
    (rtt : UInt64) : Client :=
  { c with
    phase := .idle
    exchanges := c.exchanges ++ [⟨hdr, c.sendBuf.take hdr.payloadSize.toNat, answer, rtt⟩] }

def Client.call (c : Client) (args : Call) (now : UInt64) : Client :=
  { c with
    hdrBuf := Buffer.write c.hdrBuf 0 (serializeHeader (args.header now))
    phase := .sendHeader (args.header now) 0 }

@[simp] theorem Client.call_exchanges (c : Client) (args : Call) (now : UInt64) :
    (c.call args now).exchanges = c.exchanges := rfl

def Client.sendHeader (c : Client) (hdr : MessageHeader) (n : Nat) (r : SendResult) : Client :=
  let (progress, bs) := sendExact headerSize n c.hdrBuf r
  let c := { c with sent := c.sent ++ bs }
  match progress with
  | .more n => { c with phase := .sendHeader hdr n }
  | .complete =>
    if 0 < hdr.payloadSize.toNat then
      { c with
        sendBuf := Buffer.growTo c.sendBuf hdr.payloadSize.toNat 0
        phase := .sendPayload hdr 0 }
    else { c with phase := .recvHeader hdr 0 }
  | .failed => c.finish hdr none 0

def Client.sendPayload (c : Client) (hdr : MessageHeader) (n : Nat) (r : SendResult) : Client :=
  let (progress, bs) := sendExact hdr.payloadSize.toNat n c.sendBuf r
  let c := { c with sent := c.sent ++ bs }
  match progress with
  | .more n => { c with phase := .sendPayload hdr n }
  | .complete => { c with phase := .recvHeader hdr 0 }
  | .failed => c.finish hdr none 0

/-- The response header is read back. The client takes its size as it is; it
compares neither the id nor the type nor the size with the request. -/
def Client.onResponse (c : Client) (hdr : MessageHeader) : Client :=
  let resp := deserializeHeader c.respHdrBuf
  if 0 < resp.payloadSize.toNat then
    { c with
      recvBuf := Buffer.growTo c.recvBuf resp.payloadSize.toNat 0
      phase := .recvPayload hdr resp 0 }
  else { c with phase := .stamp hdr resp }

def Client.recvHeader (c : Client) (hdr : MessageHeader) (n : Nat) (r : RecvResult) : Client :=
  let (progress, buf) := recvExact headerSize n c.respHdrBuf r
  let c := { c with respHdrBuf := buf, received := c.received ++ r.bytes }
  match progress with
  | .more n => { c with phase := .recvHeader hdr n }
  | .complete => c.onResponse hdr
  | .failed => c.finish hdr none 0

def Client.recvPayload (c : Client) (hdr resp : MessageHeader) (n : Nat) (r : RecvResult) : Client :=
  let (progress, buf) := recvExact resp.payloadSize.toNat n c.recvBuf r
  let c := { c with recvBuf := buf, received := c.received ++ r.bytes }
  match progress with
  | .more n => { c with phase := .recvPayload hdr resp n }
  | .complete => { c with phase := .stamp hdr resp }
  | .failed => c.finish hdr none 0

def step (c : Client) : Event → Option Client
  | .call args now =>
    match c.phase with
    | .idle => some (c.call args now)
    | _ => none
  | .send r =>
    match c.phase with
    | .sendHeader hdr n => if r.fits (headerSize - n) then some (c.sendHeader hdr n r) else none
    | .sendPayload hdr n =>
      if r.fits (hdr.payloadSize.toNat - n) then some (c.sendPayload hdr n r) else none
    | _ => none
  | .recv r =>
    match c.phase with
    | .recvHeader hdr n => if r.fits (headerSize - n) then some (c.recvHeader hdr n r) else none
    | .recvPayload hdr resp n =>
      if r.fits (resp.payloadSize.toNat - n) then some (c.recvPayload hdr resp n r) else none
    | _ => none
  | .now t =>
    match c.phase with
    | .stamp hdr resp =>
      some (c.finish hdr (some (resp, c.recvBuf.take resp.payloadSize.toNat)) (t - hdr.sendTimestampNs))
    | _ => none

def Phase.header : Phase → Option MessageHeader
  | .idle => none
  | .sendHeader hdr _ | .sendPayload hdr _ | .recvHeader hdr _ | .recvPayload hdr _ _ | .stamp hdr _ => some hdr

/-- What one step inside the call with header `hdr` does to the record of
finished calls: nothing, or the call fails, or it returns at reading `t`. -/
inductive Inside (hdr : MessageHeader) (c : Client) (ev : Event) (c' : Client) : Prop
  | goesOn (hp : c'.phase.header = some hdr) (hx : c'.exchanges = c.exchanges)
  | fails (hp : c'.phase = .idle) (payload : List UInt8)
      (hx : c'.exchanges = c.exchanges ++ [⟨hdr, payload, none, 0⟩])
  | returns (hp : c'.phase = .idle) (payload : List UInt8) (answer : MessageHeader × List UInt8) (t : UInt64)
      (hev : ev = .now t)
      (hx : c'.exchanges = c.exchanges ++ [⟨hdr, payload, some answer, t - hdr.sendTimestampNs⟩])

theorem inside_sendHeader (hdr : MessageHeader) (c : Client) (n : Nat) (r : SendResult) (ev : Event) :
    Inside hdr c ev (c.sendHeader hdr n r) := by
  rw [Client.sendHeader]
  cases hs : (sendExact headerSize n c.hdrBuf r).1 with
  | more k =>
    simp only [hs]
    exact .goesOn rfl rfl
  | complete =>
    simp only [hs]
    split
    · exact .goesOn rfl rfl
    · exact .goesOn rfl rfl
  | failed =>
    simp only [hs]
    exact .fails rfl _ rfl

theorem inside_sendPayload (hdr : MessageHeader) (c : Client) (n : Nat) (r : SendResult) (ev : Event) :
    Inside hdr c ev (c.sendPayload hdr n r) := by
  rw [Client.sendPayload]
  cases hs : (sendExact hdr.payloadSize.toNat n c.sendBuf r).1 with
  | more k | complete =>
    simp only [hs]
    exact .goesOn rfl rfl
  | failed =>
    simp only [hs]
    exact .fails rfl _ rfl

theorem inside_recvHeader (hdr : MessageHeader) (c : Client) (n : Nat) (r : RecvResult) (ev : Event) :
    Inside hdr c ev (c.recvHeader hdr n r) := by
  rw [Client.recvHeader]
  cases hs : (recvExact headerSize n c.respHdrBuf r).1 with
  | more k =>
    simp only [hs]
    exact .goesOn rfl rfl
  | complete =>
    simp only [hs, Client.onResponse]
    split
    · exact .goesOn rfl rfl
    · exact .goesOn rfl rfl
  | failed =>
    simp only [hs]
    exact .fails rfl _ rfl

theorem inside_recvPayload (hdr resp : MessageHeader) (c : Client) (n : Nat) (r : RecvResult) (ev : Event) :
    Inside hdr c ev (c.recvPayload hdr resp n r) := by
  rw [Client.recvPayload]
  cases hs : (recvExact resp.payloadSize.toNat n c.recvBuf r).1 with
  | more k | complete =>
    simp only [hs]
    exact .goesOn rfl rfl
  | failed =>
    simp only [hs]
    exact .fails rfl _ rfl

theorem inside_of_step {hdr : MessageHeader} {c c' : Client} {ev : Event} (hh : c.phase.header = some hdr)
    (h : step c ev = some c') : Inside hdr c ev c' := by
  cases ev with
  | call args now => cases hp : c.phase <;> simp_all [step, Phase.header]
  | send r =>
    cases hp : c.phase with
    | sendHeader hdr' n =>
      obtain rfl : hdr' = hdr := by simpa [hp, Phase.header] using hh
      simp only [step, hp, Option.ite_none_right_eq_some, Option.some.injEq] at h
      exact h.2 ▸ inside_sendHeader hdr' c n r _
    | sendPayload hdr' n =>
      obtain rfl : hdr' = hdr := by simpa [hp, Phase.header] using hh
      simp only [step, hp, Option.ite_none_right_eq_some, Option.some.injEq] at h
      exact h.2 ▸ inside_sendPayload hdr' c n r _
    | idle | recvHeader hdr' n | recvPayload hdr' resp n | stamp hdr' resp => simp [step, hp] at h
  | recv r =>
    cases hp : c.phase with
    | recvHeader hdr' n =>
      obtain rfl : hdr' = hdr := by simpa [hp, Phase.header] using hh
      simp only [step, hp, Option.ite_none_right_eq_some, Option.some.injEq] at h
      exact h.2 ▸ inside_recvHeader hdr' c n r _
    | recvPayload hdr' resp n =>
      obtain rfl : hdr' = hdr := by simpa [hp, Phase.header] using hh
      simp only [step, hp, Option.ite_none_right_eq_some, Option.some.injEq] at h
      exact h.2 ▸ inside_recvPayload hdr' resp c n r _
    | idle | sendHeader hdr' n | sendPayload hdr' n | stamp hdr' resp => simp [step, hp] at h
  | now t =>
    cases hp : c.phase with
    | stamp hdr' resp =>
      obtain rfl : hdr' = hdr := by simpa [hp, Phase.header] using hh
      simp only [step, hp, Option.some.injEq] at h
      rw [← h]
      exact .returns rfl _ _ t rfl rfl
    | idle | sendHeader hdr' n | sendPayload hdr' n | recvHeader hdr' n | recvPayload hdr' resp n =>
      simp [step, hp] at h

def Client.calls (c : Client) : List MessageHeader :=
  c.exchanges.map Exchange.request ++ c.phase.header.toList

theorem calls_call {c : Client} (hc : c.phase = .idle) (args : Call) (now : UInt64) :
    (c.call args now).calls = c.calls ++ [args.header now] := by
  simp [Client.calls, Client.call, hc, Phase.header]

theorem calls_inside {hdr : MessageHeader} {c c' : Client} {ev : Event} (hh : c.phase.header = some hdr)
    (h : Inside hdr c ev c') : c'.calls = c.calls := by
  have hidle {d : Client} (hd : d.phase = .idle) : d.phase.header = none := by
    rw [hd]
    rfl
  cases h with
  | goesOn hp hx => simp only [Client.calls, hp, hx, hh]
  | fails hp _ hx | returns hp _ _ _ _ hx => simp [Client.calls, hidle hp, hx, hh]

/-- A client thread before its first call: its stack arrays and the two
buffers of its thread may hold anything. -/
def start (stack stack' : Fin headerSize → UInt8) (sendBuf recvBuf : List UInt8) : Client where
  phase := .idle
  hdrBuf := List.ofFn stack
  respHdrBuf := List.ofFn stack'
  sendBuf := sendBuf
  recvBuf := recvBuf
  exchanges := []
  sent := []
  received := []

end DcBench.DoRequest

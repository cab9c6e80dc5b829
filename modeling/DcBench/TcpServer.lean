import DcBench.Message
import DcBench.ExactTransfer
import DcBench.Lib.Transition
import Mathlib.Tactic.Simps.Basic

namespace DcBench.TcpServer

open DcBench.Lib DcBench.Message DcBench.ExactTransfer

/-- The system call or test that `connection_handler` makes next. The header
variable `hdr` lives from the end of the header read to the end of the turn. -/
inductive Phase
  | loop
  | recvHeader (received : Nat)
  | headerFailed
  | recvPayload (hdr : MessageHeader) (received : Nat)
  | sendHeader (hdr : MessageHeader) (sent : Nat)
  | sendPayload (hdr : MessageHeader) (sent : Nat)
  | left
deriving DecidableEq

/-- The server's two counters and, as history, the bytes taken from the
connection, the headers decoded (each with the stream offset of its first
byte) and the bytes sent. -/
@[ext] structure Traffic where
  requestCount : UInt64
  byteCount : UInt64
  received : List UInt8
  decoded : List (Nat × MessageHeader)
  sent : List UInt8
deriving DecidableEq

structure Handler where
  phase : Phase
  hdrBuf : List UInt8
  payloadBuf : List UInt8
  traffic : Traffic
deriving DecidableEq

/-- What the handler gets from outside: the value of `running_` at a test, the
result of a `::recv` call, the result of a `::send` call. -/
inductive Event
  | running (value : Bool)
  | recv (result : RecvResult)
  | send (result : SendResult)
deriving DecidableEq

@[simps] def Traffic.receive (t : Traffic) (bs : List UInt8) : Traffic :=
  { t with received := t.received ++ bs }

@[simps] def Traffic.decode (t : Traffic) (hdr : MessageHeader) : Traffic :=
  { t with decoded := t.decoded ++ [(t.received.length - headerSize, hdr)] }

@[simps] def Traffic.count (t : Traffic) (size : UInt32) : Traffic :=
  { t with requestCount := t.requestCount + 1, byteCount := t.byteCount + (22 + size.toUInt64) }

@[simps] def Traffic.send (t : Traffic) (bs : List UInt8) : Traffic := { t with sent := t.sent ++ bs }

/-- The request is complete: count it, turn it into a response and send it. -/
def Handler.onRequest (h : Handler) (hdr : MessageHeader) : Handler :=
  let reply := { hdr with type := response }
  { h with
    traffic := h.traffic.count hdr.payloadSize
    hdrBuf := Buffer.write h.hdrBuf 0 (serializeHeader reply)
    phase := .sendHeader reply 0 }

/-- The header is complete: reject it, read its payload or answer at once. -/
def Handler.onHeader (h : Handler) : Handler :=
  let hdr := deserializeHeader h.hdrBuf
  let h := { h with traffic := h.traffic.decode hdr }
  if maxPayloadSize < hdr.payloadSize.toNat then { h with phase := .left }
  else if 0 < hdr.payloadSize.toNat then
    { h with
      payloadBuf := Buffer.growTo h.payloadBuf hdr.payloadSize.toNat 0
      phase := .recvPayload hdr 0 }
  else h.onRequest hdr

def Handler.recvHeader (h : Handler) (n : Nat) (r : RecvResult) : Handler :=
  let (progress, buf) := recvExact headerSize n h.hdrBuf r
  let h := { h with hdrBuf := buf, traffic := h.traffic.receive r.bytes }
  match progress with
  | .more n => { h with phase := .recvHeader n }
  | .complete => h.onHeader
  | .failed => { h with phase := .headerFailed }

def Handler.recvPayload (h : Handler) (hdr : MessageHeader) (n : Nat) (r : RecvResult) : Handler :=
  let (progress, buf) := recvExact hdr.payloadSize.toNat n h.payloadBuf r
  let h := { h with payloadBuf := buf, traffic := h.traffic.receive r.bytes }
  match progress with
  | .more n => { h with phase := .recvPayload hdr n }
  | .complete => h.onRequest hdr
  | .failed => { h with phase := .left }

def Handler.sendHeader (h : Handler) (hdr : MessageHeader) (n : Nat) (r : SendResult) : Handler :=
  let (progress, bs) := sendExact headerSize n h.hdrBuf r
  let h := { h with traffic := h.traffic.send bs }
  match progress with
  | .more n => { h with phase := .sendHeader hdr n }
  | .complete => { h with phase := if 0 < hdr.payloadSize.toNat then .sendPayload hdr 0 else .loop }
  | .failed => { h with phase := .left }

def Handler.sendPayload (h : Handler) (hdr : MessageHeader) (n : Nat) (r : SendResult) : Handler :=
  let (progress, bs) := sendExact hdr.payloadSize.toNat n h.payloadBuf r
  let h := { h with traffic := h.traffic.send bs }
  match progress with
  | .more n => { h with phase := .sendPayload hdr n }
  | .complete => { h with phase := .loop }
  | .failed => { h with phase := .left }

/-- One step of `connection_handler` up to the `::close` after its loop. An
event that the next call cannot produce is not enabled. -/
def step (h : Handler) : Event → Option Handler
  | .running b =>
    match h.phase with
    | .loop => some { h with phase := if b then .recvHeader 0 else .left }
    | .headerFailed => some { h with phase := if b then .loop else .left }
    | _ => none
  | .recv r =>
    match h.phase with
    | .recvHeader n => if r.fits (headerSize - n) then some (h.recvHeader n r) else none
    | .recvPayload hdr n =>
      if r.fits (hdr.payloadSize.toNat - n) then some (h.recvPayload hdr n r) else none
    | _ => none
  | .send r =>
    match h.phase with
    | .sendHeader hdr n => if r.fits (headerSize - n) then some (h.sendHeader hdr n r) else none
    | .sendPayload hdr n =>
      if r.fits (hdr.payloadSize.toNat - n) then some (h.sendPayload hdr n r) else none
    | _ => none

/-- A handler thread at its start. Its stack array `hdr_buf` and the buffer
`payload_buf` of its thread may hold anything. -/
def start (stack : Fin headerSize → UInt8) (payloadBuf : List UInt8) (requestCount byteCount : UInt64) :
    Handler where
  phase := .loop
  hdrBuf := List.ofFn stack
  payloadBuf := payloadBuf
  traffic := ⟨requestCount, byteCount, [], [], []⟩

end DcBench.TcpServer

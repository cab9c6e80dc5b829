import DcBench.DoRequest
import DcBench.TcpServer

namespace DcBench.EchoSession

open DcBench.Lib DcBench.Message DcBench.ExactTransfer

/-- One connection with both of its ends. TCP delivers the bytes one end has
sent, in order, so what is in flight is what the other end has not yet taken. -/
structure Session where
  client : DoRequest.Client
  server : TcpServer.Handler
  todo : List DoRequest.Call

/-- One system call of either end, with the number of bytes it transfers. No call
fails, and no `::recv` of the server runs into its timeout. The client issues its
calls of `do_request` one after another. -/
inductive Label
  | call (now : UInt64)
  | clientSend (n : Nat)
  | clientRecv (n : Nat)
  | clientNow (reading : UInt64)
  | serverTest
  | serverRecv (n : Nat)
  | serverSend (n : Nat)

def Session.toServer (s : Session) : List UInt8 := s.client.sent.drop s.server.traffic.received.length

def Session.toClient (s : Session) : List UInt8 := s.server.traffic.sent.drop s.client.received.length

def Session.onClient (s : Session) (ev : DoRequest.Event) : Option Session :=
  (DoRequest.step s.client ev).map (fun c => { s with client := c })

def Session.onServer (s : Session) (ev : TcpServer.Event) : Option Session :=
  (TcpServer.step s.server ev).map (fun h => { s with server := h })

def step (s : Session) : Label → Option Session
  | .call now =>
    match s.todo with
    | [] => none
    | args :: rest => Session.onClient { s with todo := rest } (.call args now)
  | .clientSend n => s.onClient (.send (.sent n))
  | .clientRecv n =>
    if n ≤ s.toClient.length then s.onClient (.recv (.data (s.toClient.take n))) else none
  | .clientNow t => s.onClient (.now t)
  | .serverTest => s.onServer (.running true)
  | .serverRecv n =>
    if n ≤ s.toServer.length then s.onServer (.recv (.data (s.toServer.take n))) else none
  | .serverSend n => s.onServer (.send (.sent n))

/-- A fresh connection for the calls `todo`. The buffers on both sides hold
whatever earlier connections of the two threads have left in them. -/
def start (stack stack' : Fin headerSize → UInt8) (sendBuf recvBuf : List UInt8)
    (serverStack : Fin headerSize → UInt8) (payloadBuf : List UInt8) (requestCount byteCount : UInt64)
    (todo : List DoRequest.Call) : Session where
  client := DoRequest.start stack stack' sendBuf recvBuf
  server := TcpServer.start serverStack payloadBuf requestCount byteCount
  todo := todo

end DcBench.EchoSession

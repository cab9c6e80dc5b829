import DcBench.Lib.Buffer

namespace DcBench.ExactTransfer

open DcBench.Lib

/-- What one `::recv` call returns: some bytes, 0 at the end of the stream, or
-1, which the code does not split into timeouts and errors. -/
inductive RecvResult
  | data (bytes : List UInt8)
  | eof
  | error
deriving DecidableEq

inductive SendResult
  | sent (n : Nat)
  | error
deriving DecidableEq

/-- A call that asks for `room` bytes transfers at least one and at most `room`. -/
def RecvResult.fits (room : Nat) : RecvResult → Bool
  | .data bs => 0 < bs.length && bs.length ≤ room
  | .eof | .error => true

def SendResult.fits (room : Nat) : SendResult → Bool
  | .sent n => 0 < n && n ≤ room
  | .error => true

def RecvResult.bytes : RecvResult → List UInt8
  | .data bs => bs
  | .eof | .error => []

/-- Where a transfer loop stands after one more system call. -/
inductive Progress
  | more (count : Nat)
  | complete
  | failed

/-- One turn of the loop of `recv_exact`, which the client and the server share
word for word: `n <= 0` gives up, anything else is stored at `ptr + received`. -/
def recvExact (len received : Nat) (buf : List UInt8) : RecvResult → Progress × List UInt8
  | .data bs =>
    (if received + bs.length < len then .more (received + bs.length) else .complete,
      Buffer.write buf received bs)
  | .eof | .error => (.failed, buf)

/-- One turn of the loop of `send_exact`, with the bytes it puts on the wire. -/
def sendExact (len sent : Nat) (buf : List UInt8) : SendResult → Progress × List UInt8
  | .sent n =>
    (if sent + n < len then .more (sent + n) else .complete, (buf.drop sent).take n)
  | .error => (.failed, [])

end DcBench.ExactTransfer

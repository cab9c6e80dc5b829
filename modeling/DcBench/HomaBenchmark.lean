import DcBench.HomaClosedLoop
import DcBench.HomaServer

namespace DcBench.HomaBenchmark

open DcBench.Lib DcBench.Message DcBench.Workload
open DcBench.HomaServer (Parcel AnswersParcel)

/-- `HomaClient::run_closed_loop`, the `HomaServer` and the transport between
them. `sent` are the RPCs that the kernel has accepted from each worker, `got`
what each call of `recv` has returned. -/
structure State (P n : Nat) where
  clients : HomaClosedLoop.State P
  server : HomaServer.State n
  sent : Fin P → List Parcel
  got : Fin P → List (Option Parcel)

/-- A call of `send_request` that succeeds sets the id of the RPC. A call of `recv`
returns a response and the number that the kernel has put in its length field. -/
inductive Event (P n : Nat)
  | client (ev : HomaClosedLoop.Event P)
  | send (j : Fin P) (id : Option UInt64)
  | recv (j : Fin P) (reply : Option Parcel) (received : Int)
  | server (ev : HomaServer.Event n)

def recvBufSize : Nat := 4 * 1024 * 1024 + headerSize

/-- The message that a worker makes of a header: the payload is zero. -/
def wire (hdr : MessageHeader) : List UInt8 := serializeHeader hdr ++ List.replicate hdr.payloadSize.toNat 0

def taken (got : List (Option Parcel)) : List UInt64 := got.filterMap (Option.map Parcel.rpcId)

def isLocal {P : Nat} : HomaClosedLoop.Event P → Bool
  | .worker _ (.send _) | .worker _ (.recv _) => false
  | _ => true

section

variable {P n : Nat}

def State.replied (s : State P n) (r : Parcel) : Prop := ∃ w, r ∈ (s.server.workers w).replies

instance State.decidableReplied (s : State P n) (r : Parcel) : Decidable (s.replied r) :=
  inferInstanceAs (Decidable (∃ w, r ∈ (s.server.workers w).replies))

/-- With `HOMA_RECV_RESPONSE` the kernel may return the response of any RPC of the
socket, each once. The length is that of the response if the buffer holds it. -/
def State.mayReceive (s : State P n) (addr : UInt32 × UInt16) (j : Fin P) (received : Int) : Option Parcel → Prop
  | none => received < 0
  | some r => s.replied r ∧ r.src = addr ∧ r.rpcId ∈ (s.sent j).map Parcel.rpcId ∧ r.rpcId ∉ taken (s.got j) ∧
      (r.bytes.length ≤ recvBufSize → received = r.bytes.length)

instance State.decidableMayReceive (s : State P n) (addr : UInt32 × UInt16) (j : Fin P) (received : Int)
    (reply : Option Parcel) : Decidable (s.mayReceive addr j received reply) :=
  match reply with
  | none => inferInstanceAs (Decidable (received < 0))
  | some r => inferInstanceAs (Decidable (s.replied r ∧ r.src = addr ∧ r.rpcId ∈ (s.sent j).map Parcel.rpcId ∧
      r.rpcId ∉ taken (s.got j) ∧ (r.bytes.length ≤ recvBufSize → received = r.bytes.length)))

/-- A request that has been sent reaches the server at any time, once, several
times, or never. -/
def State.mayServe (s : State P n) : HomaServer.Event n → Prop
  | .recv _ (some p) => ∃ j, p ∈ s.sent j
  | _ => True

instance State.decidableMayServe (s : State P n) (ev : HomaServer.Event n) : Decidable (s.mayServe ev) :=
  match ev with
  | .recv _ (some p) => inferInstanceAs (Decidable (∃ j, p ∈ s.sent j))
  | .recv _ none => isTrue trivial
  | .stop => isTrue trivial
  | .test _ => isTrue trivial

end

/-- One step of the benchmark. Worker `j` has a socket of its own, with the
address `addr j`. -/
def step {n : Nat} (cfg : WorkloadConfig) (concurrency : UInt32) (sizes : Fin concurrency.toNat → Nat → UInt32)
    (addr : Fin concurrency.toNat → UInt32 × UInt16) (s : State concurrency.toNat n) :
    Event concurrency.toNat n → Option (State concurrency.toNat n)
  | .client ev =>
    if isLocal ev then (HomaClosedLoop.step cfg concurrency sizes s.clients ev).map (fun c => { s with clients := c })
    else none
  | .send j none =>
    (HomaClosedLoop.step cfg concurrency sizes s.clients (.worker j (.send (-1)))).map (fun c => { s with clients := c })
  | .send j (some id) =>
    if id ∈ (s.sent j).map Parcel.rpcId then none
    else
      (s.clients.workers j).phase.header.bind (fun hdr =>
        (HomaClosedLoop.step cfg concurrency sizes s.clients (.worker j (.send 0))).map (fun c =>
          { s with
            clients := c
            sent := Function.update s.sent j (s.sent j ++ [⟨addr j, id, wire hdr⟩]) }))
  | .recv j reply received =>
    if s.mayReceive (addr j) j received reply then
      (HomaClosedLoop.step cfg concurrency sizes s.clients (.worker j (.recv received))).map (fun c =>
        { s with
          clients := c
          got := Function.update s.got j (s.got j ++ [reply]) })
    else none
  | .server ev =>
    if s.mayServe ev then (HomaServer.step s.server ev).map (fun t => { s with server := t }) else none

def start (clock : UInt64) (concurrency : UInt32) (n : Nat) : State concurrency.toNat n where
  clients := HomaClosedLoop.start clock concurrency
  server := HomaServer.start n
  sent _ := []
  got _ := []

end DcBench.HomaBenchmark

import DcBench.ServerSockets
import DcBench.ServerRefinement
import DcBench.Lib.Shared
import DcBench.Lib.Simulation
import Mathlib.Data.UInt
import Mathlib.Algebra.Group.Prod

namespace DcBench.ServerSystem

open DcBench.Lib DcBench.Message DcBench.ExactTransfer

/-- `TcpServer` with all its threads. Handler `j` serves the `j`-th connection
that was accepted; before its thread is spawned it is as at its start. The two
counters are shared by all handlers. -/
structure State where
  sockets : ServerSockets.State
  handlers : Nat → TcpServer.Handler
  requestCount : UInt64
  byteCount : UInt64

/-- `socket` is an action of `accept_loop`, of `stop`, or of a handler behind its
loop; `handler` is an action of a handler inside it. -/
inductive Event
  | socket (ev : ServerSockets.Event)
  | handler (j : Nat) (ev : TcpServer.Event)

/-- A handler comes to its `::close` only by the end of its loop. -/
def State.admits (s : State) : ServerSockets.Event → Bool
  | .leave j => (s.handlers j).phase = .left
  | _ => true

/-- A test of `running_` gives the value it has. -/
def reads (running : Bool) : TcpServer.Event → Bool
  | .running value => value = running
  | .recv _ | .send _ => true

/-- The handler with the shared counters in place of its own. -/
def load (requestCount byteCount : UInt64) (h : TcpServer.Handler) : TcpServer.Handler :=
  { h with traffic := { h.traffic with requestCount := requestCount, byteCount := byteCount } }

def step (s : State) : Event → Option State
  | .socket ev =>
    if s.admits ev then (ServerSockets.step s.sockets ev).map (fun t => { s with sockets := t }) else none
  | .handler j ev =>
    if j < s.sockets.handlers.length ∧ reads s.sockets.running ev then
      (TcpServer.step (load s.requestCount s.byteCount (s.handlers j)) ev).map (fun h =>
        { s with
          handlers := Function.update s.handlers j h
          requestCount := h.traffic.requestCount
          byteCount := h.traffic.byteCount })
    else none

/-- The server has just been started. The `payload_buf` of a new thread is
empty, its `hdr_buf` holds anything. -/
def start (listenFd : Nat) (opened : List Nat) (stack : Nat → Fin headerSize → UInt8) : State where
  sockets := ServerSockets.start listenFd opened
  handlers j := TcpServer.start (stack j) [] 0 0
  requestCount := 0
  byteCount := 0

def shift (a : UInt64 × UInt64) (h : TcpServer.Handler) : TcpServer.Handler :=
  load (h.traffic.requestCount + a.1) (h.traffic.byteCount + a.2) h

theorem shift_zero (h : TcpServer.Handler) : shift 0 h = h := by
  simp only [shift, load, Prod.fst_zero, Prod.snd_zero, add_zero]

theorem shift_shift (a b : UInt64 × UInt64) (h : TcpServer.Handler) : shift a (shift b h) = shift (b + a) h := by
  simp only [shift, load, Prod.fst_add, Prod.snd_add, add_assoc]

theorem shift_sub (a : UInt64 × UInt64) (h : TcpServer.Handler) :
    shift (a - (h.traffic.requestCount, h.traffic.byteCount)) h = load a.1 a.2 h := by
  simp only [shift, Prod.fst_sub, Prod.snd_sub, add_sub_cancel]

theorem onRequest_shift (a : UInt64 × UInt64) (h : TcpServer.Handler) (hdr : MessageHeader) :
    (shift a h).onRequest hdr = shift a (h.onRequest hdr) := by
  simp only [shift, load, TcpServer.Handler.onRequest, TcpServer.Traffic.count, add_right_comm _ a.1,
    add_right_comm _ a.2]

theorem onHeader_shift (a : UInt64 × UInt64) (h : TcpServer.Handler) : (shift a h).onHeader = shift a h.onHeader := by
  have hbuf : (shift a h).hdrBuf = h.hdrBuf := rfl
  simp only [TcpServer.Handler.onHeader, hbuf]
  by_cases hmax : maxPayloadSize < (deserializeHeader h.hdrBuf).payloadSize.toNat
  · rw [if_pos hmax, if_pos hmax]
    rfl
  · rw [if_neg hmax, if_neg hmax]
    by_cases hpos : 0 < (deserializeHeader h.hdrBuf).payloadSize.toNat
    · rw [if_pos hpos, if_pos hpos]
      rfl
    · rw [if_neg hpos, if_neg hpos]
      exact onRequest_shift a { h with traffic := h.traffic.decode (deserializeHeader h.hdrBuf) } _

theorem recvHeader_shift (a : UInt64 × UInt64) (h : TcpServer.Handler) (n : Nat) (r : RecvResult) :
    (shift a h).recvHeader n r = shift a (h.recvHeader n r) := by
  have hbuf : (shift a h).hdrBuf = h.hdrBuf := rfl
  simp only [TcpServer.Handler.recvHeader, hbuf]
  cases (recvExact headerSize n h.hdrBuf r).1 with
  | more n => rfl
  | failed => rfl
  | complete =>
    exact onHeader_shift a { h with
      hdrBuf := (recvExact headerSize n h.hdrBuf r).2
      traffic := h.traffic.receive r.bytes }

theorem recvPayload_shift (a : UInt64 × UInt64) (h : TcpServer.Handler) (hdr : MessageHeader) (n : Nat)
    (r : RecvResult) : (shift a h).recvPayload hdr n r = shift a (h.recvPayload hdr n r) := by
  have hbuf : (shift a h).payloadBuf = h.payloadBuf := rfl
  simp only [TcpServer.Handler.recvPayload, hbuf]
  cases (recvExact hdr.payloadSize.toNat n h.payloadBuf r).1 with
  | more n => rfl
  | failed => rfl
  | complete =>
    exact onRequest_shift a { h with
      payloadBuf := (recvExact hdr.payloadSize.toNat n h.payloadBuf r).2
      traffic := h.traffic.receive r.bytes } hdr

theorem sendHeader_shift (a : UInt64 × UInt64) (h : TcpServer.Handler) (hdr : MessageHeader) (n : Nat)
    (r : SendResult) : (shift a h).sendHeader hdr n r = shift a (h.sendHeader hdr n r) := by
  have hbuf : (shift a h).hdrBuf = h.hdrBuf := rfl
  simp only [TcpServer.Handler.sendHeader, hbuf]
  cases (sendExact headerSize n h.hdrBuf r).1 <;> rfl

theorem sendPayload_shift (a : UInt64 × UInt64) (h : TcpServer.Handler) (hdr : MessageHeader) (n : Nat)
    (r : SendResult) : (shift a h).sendPayload hdr n r = shift a (h.sendPayload hdr n r) := by
  have hbuf : (shift a h).payloadBuf = h.payloadBuf := rfl
  simp only [TcpServer.Handler.sendPayload, hbuf]
  cases (sendExact hdr.payloadSize.toNat n h.payloadBuf r).1 <;> rfl

/-- A handler never looks at the counters. -/
theorem step_shift (a : UInt64 × UInt64) (h : TcpServer.Handler) (ev : TcpServer.Event) :
    TcpServer.step (shift a h) ev = (TcpServer.step h ev).map (shift a) := by
  have hphase : (shift a h).phase = h.phase := rfl
  cases ev with
  | running value => cases hp : h.phase <;> simp only [TcpServer.step, hphase, hp] <;> rfl
  | recv r =>
    cases hp : h.phase with
    | recvHeader n =>
      simp only [TcpServer.step, hphase, hp, recvHeader_shift]
      split <;> rfl
    | recvPayload hdr n =>
      simp only [TcpServer.step, hphase, hp, recvPayload_shift]
      split <;> rfl
    | loop | headerFailed | sendHeader hdr n | sendPayload hdr n | left =>
      simp only [TcpServer.step, hphase, hp, Option.map_none]
  | send r =>
    cases hp : h.phase with
    | sendHeader hdr n =>
      simp only [TcpServer.step, hphase, hp, sendHeader_shift]
      split <;> rfl
    | sendPayload hdr n =>
      simp only [TcpServer.step, hphase, hp, sendPayload_shift]
      split <;> rfl
    | loop | headerFailed | recvHeader n | recvPayload hdr n | left =>
      simp only [TcpServer.step, hphase, hp, Option.map_none]

def counting : Shared.Counting TcpServer.Handler TcpServer.Event (UInt64 × UInt64) where
  step := TcpServer.step
  total h := (h.traffic.requestCount, h.traffic.byteCount)
  shift := shift
  shift_zero := shift_zero
  total_shift _ _ := rfl
  shift_shift := shift_shift
  step_shift := step_shift

theorem load_eq (s : State) (j : Nat) :
    load s.requestCount s.byteCount (s.handlers j) = counting.load (s.requestCount, s.byteCount) (s.handlers j) :=
  (shift_sub (s.requestCount, s.byteCount) (s.handlers j)).symm

def handling (s : State) : (Nat → TcpServer.Handler) × (UInt64 × UInt64) := (s.handlers, s.requestCount, s.byteCount)

def handlerEvent : Event → Option (Nat × TcpServer.Event)
  | .socket _ => none
  | .handler j ev => some (j, ev)

theorem follows : Simulation.Follows step (Shared.step counting) (fun _ => handlerEvent) handling (fun _ => True) := by
  intro s e t _ h
  cases e with
  | socket ev =>
    simp only [step, Option.ite_none_right_eq_some] at h
    obtain ⟨u, -, rfl⟩ := Option.map_eq_some_iff.mp h.2
    rfl
  | handler j ev =>
    simp only [step, Option.ite_none_right_eq_some] at h
    obtain ⟨u, hu, rfl⟩ := Option.map_eq_some_iff.mp h.2
    rw [load_eq] at hu
    change Transition.run (Shared.step counting) (handling s) [(j, ev)] = _
    have hstep : counting.step (counting.load (handling s).2 ((handling s).1 j)) ev = some u := hu
    simp only [Transition.run, Shared.step, hstep, Option.map_some, Option.bind_some]
    rfl

theorem length_handlers_socket {s t : ServerSockets.State} {ev : ServerSockets.Event}
    (h : ServerSockets.step s ev = some t) : s.handlers.length ≤ t.handlers.length := by
  cases ServerSockets.move_of_step h with
  | spawn fd hs => simp
  | leave j hd hj hp | close j hd hj hp | erase j hd hj hp => simp [ServerSockets.State.setPhase, ServerSockets.State.close]
  | test | acceptFails | accept | register | stop | shutdown | lock | closeNext | unlock | joinAcceptor
  | joinHandlers => exact Nat.le_refl _

theorem mem_handlerEvents {s₀ s : State} {es : List Event} (hr : Transition.run step s₀ es = some s) :
    ∀ e ∈ es.filterMap handlerEvent, e.1 < s.sockets.handlers.length := by
  refine Transition.run_induction (motive := fun es (s : State) =>
    ∀ e ∈ es.filterMap handlerEvent, e.1 < s.sockets.handlers.length) (by simp) ?_ hr
  intro es e t u _ ih he x hx
  rw [List.filterMap_append, List.mem_append] at hx
  cases e with
  | socket ev =>
    simp only [step, Option.ite_none_right_eq_some] at he
    obtain ⟨v, hv, rfl⟩ := Option.map_eq_some_iff.mp he.2
    have hx' := hx.resolve_right (by simp [handlerEvent])
    exact (ih x hx').trans_le (length_handlers_socket hv)
  | handler j ev =>
    simp only [step, Option.ite_none_right_eq_some] at he
    obtain ⟨⟨hj, -⟩, he⟩ := he
    obtain ⟨v, -, rfl⟩ := Option.map_eq_some_iff.mp he
    obtain hx | hx := hx
    · exact ih x hx
    · obtain rfl : x = (j, ev) := by simpa [handlerEvent] using hx
      exact hj

end DcBench.ServerSystem

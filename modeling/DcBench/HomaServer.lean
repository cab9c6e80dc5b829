import DcBench.ServerRefinement
import Mathlib.Data.List.Forall2

namespace DcBench.HomaServer

open DcBench.Lib DcBench.Message

def bufSize : Nat := maxPayloadSize + headerSize

/-- What a worker does next: the test of its loop, the call of `recv`, or the
second test of `running_` after a failed call. -/
inductive Phase
  | test
  | recv
  | failed
  | exited
deriving DecidableEq

/-- A message with the address and the RPC it belongs to. -/
structure Parcel where
  src : UInt32 × UInt16
  rpcId : UInt64
  bytes : List UInt8
deriving DecidableEq

/-- One thread of `workers_`: its buffer and, as history, the messages that `recv`
has stored in it and those passed to `send_response`. -/
structure Worker where
  phase : Phase
  buf : List UInt8
  received : List Parcel
  replies : List Parcel

structure State (numThreads : Nat) where
  running : Bool
  requestCount : UInt64
  byteCount : UInt64
  workers : Fin numThreads → Worker

inductive Event (numThreads : Nat)
  | stop
  | test (j : Fin numThreads)
  | recv (j : Fin numThreads) (result : Option Parcel)

variable {n : Nat}

def Worker.test (w : Worker) (running : Bool) : Option Worker :=
  match w.phase with
  | .test => some { w with phase := if running then .recv else .exited }
  | .failed => some { w with phase := if running then .test else .exited }
  | .recv | .exited => none

def Worker.store (w : Worker) (p : Parcel) : Worker :=
  { w with
    phase := .test
    buf := Buffer.write w.buf 0 p.bytes
    received := w.received ++ [p] }

/-- Turn the request in the buffer into its reply and pass as many bytes as were
received to `send_response`. -/
def Worker.respond (w : Worker) (p : Parcel) : Worker :=
  let hdr := { deserializeHeader w.buf with type := response }
  let buf := Buffer.write w.buf 0 (serializeHeader hdr)
  { w with
    buf := buf
    replies := w.replies ++ [{ p with bytes := buf.take p.bytes.length }] }

/-- One step of the server. `recv` gets the length of the buffer, so that no
longer message is stored. -/
def step (s : State n) : Event n → Option (State n)
  | .stop => some { s with running := false }
  | .test j =>
    ((s.workers j).test s.running).map
      (fun w => { s with workers := Function.update s.workers j w })
  | .recv j result =>
    if (s.workers j).phase = .recv then
      match result with
      | none =>
        some { s with workers := Function.update s.workers j { s.workers j with phase := .failed } }
      | some p =>
        if bufSize < p.bytes.length then none
        else if p.bytes.length < headerSize then
          some { s with workers := Function.update s.workers j ((s.workers j).store p) }
        else
          some { s with
            requestCount := s.requestCount + 1
            byteCount := s.byteCount + UInt64.ofNat p.bytes.length
            workers := Function.update s.workers j (((s.workers j).store p).respond p) }
    else none

/-- The server after `start`: the buffer of each worker is zeroed. -/
def start (n : Nat) : State n where
  running := true
  requestCount := 0
  byteCount := 0
  workers _ := ⟨.test, List.replicate bufSize 0, [], []⟩

/-- A reply to `req`: the same bytes except for the type, which is that of a
response. -/
structure Answers (req reply : List UInt8) : Prop where
  length : reply.length = req.length
  type : reply[13]? = some response
  rest : ∀ i, i ≠ 13 → reply[i]? = req[i]?

theorem answers_set {req : List UInt8} (h : headerSize ≤ req.length) : Answers req (req.set 13 response) := by
  rw [headerSize] at h
  constructor
  · exact List.length_set
  · exact List.getElem?_set_self (by omega)
  · intro i hi
    exact List.getElem?_set_ne hi.symm

/-- The reply goes to the sender of the request, under the same RPC. -/
structure AnswersParcel (p r : Parcel) : Prop where
  src : r.src = p.src
  rpcId : r.rpcId = p.rpcId
  bytes : Answers p.bytes r.bytes

/-- The messages that `worker_loop` does not skip. -/
def requests (received : List Parcel) : List Parcel :=
  received.filter (fun p => headerSize ≤ p.bytes.length)

structure Echoing (w : Worker) : Prop where
  buf : w.buf.length = bufSize
  replies : List.Forall₂ AnswersParcel (requests w.received) w.replies

theorem write_setType (buf : List UInt8) (h : headerSize ≤ buf.length) :
    Buffer.write buf 0 (serializeHeader { deserializeHeader buf with type := response }) =
      buf.set 13 response := by
  have htake : (buf.take headerSize).length = headerSize := List.length_take_of_le h
  have hdes : deserializeHeader buf = deserializeHeader (buf.take headerSize) := by
    have happ := deserialize_append (buf.take headerSize) (buf.drop headerSize) htake
    rwa [List.take_append_drop] at happ
  rw [serialize_setType, hdes, serialize_deserialize _ htake, Buffer.write, List.take_zero, List.nil_append,
    List.length_set, htake, Nat.zero_add, ← List.set_append_left _ _ (by rw [htake]; decide),
    List.take_append_drop]

theorem echoing_store {w : Worker} (h : Echoing w) {p : Parcel} (hp : p.bytes.length ≤ bufSize) :
    (w.store p).buf.length = bufSize ∧ (w.store p).buf.take p.bytes.length = p.bytes := by
  have hfit : 0 + p.bytes.length ≤ w.buf.length := by rw [h.buf]; omega
  constructor
  · exact (Buffer.length_write _ _ _ hfit).trans h.buf
  · have ht := Buffer.take_write w.buf 0 p.bytes (Nat.zero_le _)
    rwa [Nat.zero_add] at ht

theorem echoing_skip {w : Worker} (h : Echoing w) {p : Parcel} (hp : p.bytes.length ≤ bufSize)
    (hl : p.bytes.length < headerSize) : Echoing (w.store p) := by
  refine ⟨(echoing_store h hp).1, ?_⟩
  have hskip : requests (w.received ++ [p]) = requests w.received := by
    rw [requests, List.filter_append, List.filter_singleton, decide_eq_false (by omega)]
    exact List.append_nil _
  exact hskip ▸ h.replies

theorem echoing_respond {w : Worker} (h : Echoing w) {p : Parcel} (hp : p.bytes.length ≤ bufSize)
    (hl : headerSize ≤ p.bytes.length) : Echoing ((w.store p).respond p) := by
  obtain ⟨hlen, htake⟩ := echoing_store h hp
  have hw := write_setType (w.store p).buf (by omega)
  constructor
  · rw [Worker.respond, hw, List.length_set]
    exact hlen
  · have hreq : requests (w.received ++ [p]) = requests w.received ++ [p] := by
      rw [requests, List.filter_append, List.filter_singleton, decide_eq_true hl]
      rfl
    have hans : Answers p.bytes ((w.store p).respond p |>.buf.take p.bytes.length) := by
      rw [Worker.respond, hw, List.take_set, htake]
      exact answers_set hl
    change List.Forall₂ _ (requests (w.received ++ [p])) _
    rw [hreq]
    exact List.rel_append h.replies (.cons ⟨rfl, rfl, hans⟩ .nil)

theorem echoing_update {s : State n} (h : ∀ j, Echoing (s.workers j)) {j : Fin n} {w : Worker} (hw : Echoing w) :
    ∀ i, Echoing (Function.update s.workers j w i) :=
  (Function.forall_update_iff s.workers (fun _ w => Echoing w)).mpr ⟨hw, fun i _ => h i⟩

theorem echoing_step {s s' : State n} {e : Event n} (h : ∀ j, Echoing (s.workers j)) (hs : step s e = some s') :
    ∀ j, Echoing (s'.workers j) := by
  cases e with
  | stop =>
    cases hs
    exact h
  | test j =>
    obtain ⟨w, hw, rfl⟩ := Option.map_eq_some_iff.mp hs
    refine echoing_update h ?_
    unfold Worker.test at hw
    split at hw <;> cases hw
    · exact ⟨(h j).buf, (h j).replies⟩
    · exact ⟨(h j).buf, (h j).replies⟩
  | recv j result =>
    simp only [step, Option.ite_none_right_eq_some] at hs
    obtain ⟨-, hs⟩ := hs
    cases result with
    | none =>
      cases hs
      exact echoing_update h ⟨(h j).buf, (h j).replies⟩
    | some p =>
      simp only [Option.ite_none_left_eq_some, Nat.not_lt] at hs
      obtain ⟨hp, hs⟩ := hs
      split at hs
      case isTrue hl =>
        cases hs
        exact echoing_update h (echoing_skip (h j) hp hl)
      case isFalse hl =>
        cases hs
        exact echoing_update h (echoing_respond (h j) hp (Nat.le_of_not_lt hl))

theorem echoing_run {s : State n} {es : List (Event n)} (hr : Transition.run step (start n) es = some s)
    (j : Fin n) : Echoing (s.workers j) := by
  refine Transition.invariant (P := fun s => ∀ j, Echoing (s.workers j)) (fun _ _ _ => echoing_step) ?_ hr j
  intro i
  exact ⟨List.length_replicate, .nil⟩

end DcBench.HomaServer

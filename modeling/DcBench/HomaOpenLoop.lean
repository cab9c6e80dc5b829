import DcBench.Message
import DcBench.Workload
import DcBench.Lib.Transition

namespace DcBench.HomaOpenLoop

open DcBench.Lib DcBench.Message DcBench.Workload

/-- The next action of the sending loop in `HomaClient::run_open_loop`. In
`sent` the kernel has the RPC and `pending` does not yet have its id. -/
inductive Sender
  | next
  | stamped (hdr : MessageHeader)
  | sent (id : UInt64) (hdr : MessageHeader)
  | account (hdr : MessageHeader)
  | stopped
deriving DecidableEq

inductive Receiver
  | test
  | recv
  | received (id : UInt64)
  | stamped (id recvTs : UInt64)
  | exited
deriving DecidableEq

structure Rpc where
  id : UInt64
  header : MessageHeader
deriving DecidableEq

/-- One search in `pending`: the response's id and receive time, the send
timestamp found, and whether a sample was recorded. -/
structure Lookup where
  id : UInt64
  recvTs : UInt64
  sendTs : Option UInt64
  recorded : Bool
deriving DecidableEq

/-- The two threads and the kernel. `rpcs` and `taken` are the RPCs submitted
and those whose response has been received; `inserted` and `lookups` are
history of the map `pending`. -/
structure State where
  clock : UInt64
  i : UInt32
  nextTime : Int
  totalBytes : UInt64
  receiving : Bool
  sender : Sender
  receiver : Receiver
  pending : UInt64 → Option UInt64
  receivedCount : UInt32
  samples : List UInt64
  rpcs : List Rpc
  taken : List UInt64
  inserted : List UInt64
  lookups : List Lookup

inductive Event
  | tick (reading : UInt64)
  | stamp
  | send (result : Option UInt64)
  | insert
  | account
  | stop
  | test
  | recv (result : Option UInt64)
  | stampRecv
  | lookup
deriving DecidableEq

def header (i : UInt32) (size : UInt32) (now : UInt64) : MessageHeader where
  id := i.toUInt64
  payloadSize := size
  priority := priorityForSize size
  type := request
  sendTimestampNs := now

def State.lookup (s : State) (cfg : WorkloadConfig) (id recvTs : UInt64) : State :=
  let sendTs := (s.pending id).getD 0
  let receivedCount := s.receivedCount + 1
  let recorded := decide (0 < sendTs ∧ cfg.warmupRequests < receivedCount)
  { s with
    receiver := .test
    pending := Function.update s.pending id none
    receivedCount := receivedCount
    samples := if recorded then s.samples ++ [recvTs - sendTs] else s.samples
    lookups := s.lookups ++ [⟨id, recvTs, s.pending id, recorded⟩] }

/-- One step of either thread. The kernel gives each RPC a fresh nonzero id and
hands out at most one response for it, at any moment after the send. -/
def step (cfg : WorkloadConfig) (gen : Nat → Turn) (s : State) : Event → Option State
  | .tick t => if s.clock ≤ t then some { s with clock := t } else none
  | .stamp =>
    let turn := gen s.i.toNat
    let nextTime := s.nextTime + 1000 * truncate turn.waitUs
    if s.sender = .next ∧ s.i < cfg.total ∧ nextTime ≤ s.clock.toNat then
      some { s with nextTime := nextTime, sender := .stamped (header s.i turn.size s.clock) }
    else none
  | .send none =>
    match s.sender with
    | .stamped hdr => some { s with sender := .account hdr }
    | _ => none
  | .send (some id) =>
    match s.sender with
    | .stamped hdr =>
      if id ≠ 0 ∧ id ∉ s.rpcs.map Rpc.id then
        some { s with sender := .sent id hdr, rpcs := s.rpcs ++ [⟨id, hdr⟩] }
      else none
    | _ => none
  | .insert =>
    match s.sender with
    | .sent id hdr =>
      some { s with
        sender := .account hdr
        pending := Function.update s.pending id (some hdr.sendTimestampNs)
        inserted := s.inserted ++ [id] }
    | _ => none
  | .account =>
    match s.sender with
    | .account hdr =>
      some { s with
        sender := .next
        i := s.i + 1
        totalBytes := s.totalBytes + (22 + hdr.payloadSize.toUInt64) }
    | _ => none
  | .stop =>
    if s.sender = .next ∧ ¬ s.i < cfg.total then some { s with sender := .stopped, receiving := false }
    else none
  | .test =>
    match s.receiver with
    | .test => some { s with receiver := if s.receiving then .recv else .exited }
    | _ => none
  | .recv none =>
    match s.receiver with
    | .recv => some { s with receiver := .test }
    | _ => none
  | .recv (some id) =>
    match s.receiver with
    | .recv =>
      if id ∈ s.rpcs.map Rpc.id ∧ id ∉ s.taken then
        some { s with receiver := .received id, taken := s.taken ++ [id] }
      else none
    | _ => none
  | .stampRecv =>
    match s.receiver with
    | .received id => some { s with receiver := .stamped id s.clock }
    | _ => none
  | .lookup =>
    match s.receiver with
    | .stamped id recvTs => some (s.lookup cfg id recvTs)
    | _ => none

def start (clock : UInt64) : State where
  clock := clock
  i := 0
  nextTime := clock.toNat
  totalBytes := 0
  receiving := true
  sender := .next
  receiver := .test
  pending := fun _ => none
  receivedCount := 0
  samples := []
  rpcs := []
  taken := []
  inserted := []
  lookups := []

inductive Move (cfg : WorkloadConfig) (gen : Nat → Turn) (s : State) : Event → State → Prop
  | tick (t : UInt64) (ht : s.clock ≤ t) : Move cfg gen s (.tick t) { s with clock := t }
  | stamp (nextTime : Int) (hs : s.sender = .next) (hi : s.i < cfg.total) :
      Move cfg gen s .stamp
        { s with nextTime := nextTime, sender := .stamped (header s.i (gen s.i.toNat).size s.clock) }
  | sendFails (hdr : MessageHeader) (hs : s.sender = .stamped hdr) :
      Move cfg gen s (.send none) { s with sender := .account hdr }
  | send (id : UInt64) (hdr : MessageHeader) (hs : s.sender = .stamped hdr) (hid : id ≠ 0)
      (hf : id ∉ s.rpcs.map Rpc.id) :
      Move cfg gen s (.send (some id)) { s with sender := .sent id hdr, rpcs := s.rpcs ++ [⟨id, hdr⟩] }
  | insert (id : UInt64) (hdr : MessageHeader) (hs : s.sender = .sent id hdr) :
      Move cfg gen s .insert
        { s with
          sender := .account hdr
          pending := Function.update s.pending id (some hdr.sendTimestampNs)
          inserted := s.inserted ++ [id] }
  | account (hdr : MessageHeader) (hs : s.sender = .account hdr) :
      Move cfg gen s .account
        { s with
          sender := .next
          i := s.i + 1
          totalBytes := s.totalBytes + (22 + hdr.payloadSize.toUInt64) }
  | stop (hs : s.sender = .next) (hi : ¬ s.i < cfg.total) :
      Move cfg gen s .stop { s with sender := .stopped, receiving := false }
  | test (r : Receiver) (hr : s.receiver = .test) (hr' : r = .recv ∨ r = .exited) :
      Move cfg gen s .test { s with receiver := r }
  | recvFails (hr : s.receiver = .recv) : Move cfg gen s (.recv none) { s with receiver := .test }
  | recv (id : UInt64) (hr : s.receiver = .recv) (hid : id ∈ s.rpcs.map Rpc.id) (ht : id ∉ s.taken) :
      Move cfg gen s (.recv (some id)) { s with receiver := .received id, taken := s.taken ++ [id] }
  | stampRecv (id : UInt64) (hr : s.receiver = .received id) :
      Move cfg gen s .stampRecv { s with receiver := .stamped id s.clock }
  | lookup (id recvTs : UInt64) (hr : s.receiver = .stamped id recvTs) :
      Move cfg gen s .lookup (s.lookup cfg id recvTs)

theorem move_of_step {cfg : WorkloadConfig} {gen : Nat → Turn} {s s' : State} {e : Event}
    (h : step cfg gen s e = some s') : Move cfg gen s e s' := by
  cases e with
  | tick t =>
    simp only [step, Option.ite_none_right_eq_some, Option.some.injEq] at h
    obtain ⟨ht, rfl⟩ := h
    exact .tick t ht
  | stamp =>
    simp only [step, Option.ite_none_right_eq_some, Option.some.injEq] at h
    obtain ⟨⟨hs, hi, -⟩, rfl⟩ := h
    exact .stamp _ hs hi
  | stop =>
    simp only [step, Option.ite_none_right_eq_some, Option.some.injEq] at h
    obtain ⟨⟨hs, hi⟩, rfl⟩ := h
    exact .stop hs hi
  | send r =>
    cases hs : s.sender with
    | stamped hdr =>
      cases r with
      | none =>
        simp only [step, hs, Option.some.injEq] at h
        subst h
        exact .sendFails hdr hs
      | some id =>
        simp only [step, hs, Option.ite_none_right_eq_some, Option.some.injEq] at h
        obtain ⟨⟨hid, hf⟩, rfl⟩ := h
        exact .send id hdr hs hid hf
    | next | sent id hdr | account hdr | stopped => cases r <;> simp [step, hs] at h
  | insert =>
    cases hs : s.sender with
    | sent id hdr =>
      simp only [step, hs, Option.some.injEq] at h
      subst h
      exact .insert id hdr hs
    | next | stamped hdr | account hdr | stopped => simp [step, hs] at h
  | account =>
    cases hs : s.sender with
    | account hdr =>
      simp only [step, hs, Option.some.injEq] at h
      subst h
      exact .account hdr hs
    | next | stamped hdr | sent id hdr | stopped => simp [step, hs] at h
  | test =>
    cases hr : s.receiver with
    | test =>
      simp only [step, hr, Option.some.injEq] at h
      subst h
      apply Move.test _ hr
      split
      · exact .inl rfl
      · exact .inr rfl
    | recv | received id | stamped id ts | exited => simp [step, hr] at h
  | recv r =>
    cases hr : s.receiver with
    | recv =>
      cases r with
      | none =>
        simp only [step, hr, Option.some.injEq] at h
        subst h
        exact .recvFails hr
      | some id =>
        simp only [step, hr, Option.ite_none_right_eq_some, Option.some.injEq] at h
        obtain ⟨⟨hid, ht⟩, rfl⟩ := h
        exact .recv id hr hid ht
    | test | received id | stamped id ts | exited => cases r <;> simp [step, hr] at h
  | stampRecv =>
    cases hr : s.receiver with
    | received id =>
      simp only [step, hr, Option.some.injEq] at h
      subst h
      exact .stampRecv id hr
    | test | recv | stamped id ts | exited => simp [step, hr] at h
  | lookup =>
    cases hr : s.receiver with
    | stamped id recvTs =>
      simp only [step, hr, Option.some.injEq] at h
      subst h
      exact .lookup id recvTs hr
    | test | recv | received id | exited => simp [step, hr] at h

end DcBench.HomaOpenLoop

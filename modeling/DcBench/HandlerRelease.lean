import DcBench.RequestStream
import DcBench.ServerRefinement
import DcBench.ServerSockets

namespace DcBench.HandlerRelease

open DcBench.Lib DcBench.Message DcBench.ExactTransfer DcBench.TcpServer DcBench.EchoMachine
open DcBench.RequestStream DcBench.ServerRefinement

/-- What the outside decides about the `k`-th action of the handler: how many
bytes more than one a transfer may have, and whether a `::send` fails. -/
structure Env where
  recv : Nat → Nat
  send : Nat → Option Nat

/-- A `::recv` from a peer that has sent `rest` and closed its side. -/
def arrive (limit room : Nat) (rest : List UInt8) : RecvResult :=
  if rest = [] then .eof else .data (rest.take (min room (limit + 1)))

def transfer (limit : Option Nat) (room : Nat) : SendResult :=
  match limit with
  | some n => .sent (min room (n + 1))
  | none => .error

/-- The answer to the next call or test of the handler. -/
def nextEvent (env : Env) (k : Nat) (running : Bool) (rest : List UInt8) : TcpServer.Phase → Event
  | .recvHeader n => .recv (arrive (env.recv k) (headerSize - n) rest)
  | .recvPayload hdr n => .recv (arrive (env.recv k) (hdr.payloadSize.toNat - n) rest)
  | .sendHeader _ n => .send (transfer (env.send k) (headerSize - n))
  | .sendPayload hdr n => .send (transfer (env.send k) (hdr.payloadSize.toNat - n))
  | .loop | .headerFailed | .left => .running running

def consume (rest : List UInt8) : Event → List UInt8
  | .recv r => rest.drop r.bytes.length
  | .running _ | .send _ => rest

/-- The thread of `connection_handler` with number `j` behind its loop. -/
def afterLoop (j : Nat) (s : ServerSockets.State) : Option ServerSockets.State :=
  s.handlers[j]?.bind (fun h =>
    match h.phase with
    | .loop => ServerSockets.step s (.leave j)
    | .close => ServerSockets.step s (.close j)
    | .erase => ServerSockets.step s (.erase j)
    | .exited => none)

/-- A handler, the part of its stream that it has not read yet, and the sockets of
the server. -/
structure World where
  handler : TcpServer.Handler
  rest : List UInt8
  sockets : ServerSockets.State

def World.next (env : Env) (j k : Nat) (w : World) : Option World :=
  if w.handler.phase = .left then (afterLoop j w.sockets).map (fun s => { w with sockets := s })
  else
    let ev := nextEvent env k w.sockets.running w.rest w.handler.phase
    (TcpServer.step w.handler ev).map (fun h => { w with handler := h, rest := consume w.rest ev })

def execute (env : Env) (j : Nat) (w : World) : Nat → Option World
  | 0 => some w
  | n + 1 => (execute env j w n).bind (World.next env j n)

/-- The thread leaves its loop, closes its descriptor `fd`, and takes it out of
`client_fds_`. -/
def Released (env : Env) (j fd : Nat) (w : World) : Prop :=
  ∃ n w', execute env j w n = some w' ∧ w'.handler.phase = .left ∧
    w'.sockets.handlers[j]? = some ⟨fd, .exited⟩ ∧ w'.sockets.ops = w.sockets.ops ++ [.closed fd] ∧
    fd ∉ w'.sockets.opened ∧ fd ∉ w'.sockets.clientFds

/-- The stream ends at a message boundary or inside a header: complete messages
that the server accepts, and then fewer bytes than a header has. -/
def EndsBeforePayload (stream : List UInt8) : Prop :=
  ∃ rs tail, stream = wire rs ++ tail ∧ tail.length < headerSize

theorem EndsBeforePayload.first {got rest : List UInt8} (h : EndsBeforePayload (got ++ rest))
    (hl : headerSize ≤ got.length) : payloadSize got ≤ maxPayloadSize ∧
      headerSize + payloadSize got ≤ (got ++ rest).length ∧
      EndsBeforePayload ((got ++ rest).drop (headerSize + payloadSize got)) := by
  obtain ⟨rs, tail, heq, htail⟩ := h
  have hpay := payloadSize_append got rest hl
  cases rs with
  | nil =>
    have hlen := congrArg List.length heq
    simp only [wire, List.flatMap_nil, List.nil_append, List.length_append] at hlen
    omega
  | cons r rs =>
    rw [wire_cons, List.append_assoc] at heq
    have hr : payloadSize (got ++ rest) = r.payload.length := by
      apply payloadSize_of_header
      rw [heq, Request.wire, List.append_assoc, deserialize_append _ _ (length_serializeHeader _), deserialize_serialize]
    have hwire : r.wire.length = headerSize + payloadSize got := by rw [length_wire, ← hpay, hr]
    refine ⟨?_, ?_, ?_⟩
    · rw [← hpay, hr]
      exact r.size_le
    · rw [heq, List.length_append]
      omega
    · rw [heq, ← hwire, List.drop_left]
      exact ⟨rs, tail, rfl, htail⟩

def requestOf (frame : List UInt8) (hl : frame.length = headerSize + payloadSize frame)
    (hs : payloadSize frame ≤ maxPayloadSize) : Request where
  header := deserializeHeader frame
  payload := frame.drop headerSize
  size_eq := by
    rw [List.length_drop, hl, Nat.add_sub_cancel_left]
    rfl
  size_le := by
    rw [List.length_drop, hl, Nat.add_sub_cancel_left]
    exact hs

theorem wire_requestOf {frame : List UInt8} (hl : frame.length = headerSize + payloadSize frame)
    (hs : payloadSize frame ≤ maxPayloadSize) : (requestOf frame hl hs).wire = frame := by
  have htake : (frame.take headerSize).length = headerSize := List.length_take_of_le (by omega)
  have hhdr : deserializeHeader frame = deserializeHeader (frame.take headerSize) := by
    rw [← deserialize_append _ (frame.drop headerSize) htake, List.take_append_drop]
  change serializeHeader (deserializeHeader frame) ++ frame.drop headerSize = frame
  rw [hhdr, serialize_deserialize _ htake, List.take_append_drop]

theorem endsBeforePayload_frame {frame rest : List UInt8} (hl : frame.length = headerSize + payloadSize frame)
    (hs : payloadSize frame ≤ maxPayloadSize) : EndsBeforePayload (frame ++ rest) ↔ EndsBeforePayload rest := by
  constructor
  · intro h
    obtain ⟨-, -, hdrop⟩ := h.first (by omega)
    rwa [← hl, List.drop_left] at hdrop
  · rintro ⟨rs, tail, rfl, htail⟩
    refine ⟨requestOf frame hl hs :: rs, tail, ?_, htail⟩
    rw [wire_cons, wire_requestOf, List.append_assoc]

/-- The event `ev` is what the outside gives to action `k`. -/
def Given (env : Env) (k : Nat) (rest : List UInt8) : Event → Prop
  | .running b => b = true
  | .recv (.data bs) => rest = bs ++ rest.drop bs.length
  | .recv .eof => rest = []
  | .recv .error => False
  | .send (.sent _) => True
  | .send .error => env.send k = none

variable {env : Env} {k room : Nat} {rest : List UInt8}

theorem given_arrive (limit : Nat) : Given env k rest (.recv (arrive limit room rest)) := by
  rw [arrive]
  split
  · assumption
  · change rest = rest.take _ ++ rest.drop (rest.take _).length
    exact (List.prefix_iff_eq_append.mp (List.take_prefix _ rest)).symm

theorem fits_arrive (limit : Nat) (hroom : 0 < room) : (arrive limit room rest).fits room = true := by
  rw [arrive]
  split
  · rfl
  · rename_i hne
    have hpos := List.length_pos_iff.mpr hne
    simp only [RecvResult.fits, List.length_take, Bool.and_eq_true, decide_eq_true_eq]
    omega

theorem fits_transfer (limit : Option Nat) (hroom : 0 < room) : (transfer limit room).fits room = true := by
  cases limit with
  | none => rfl
  | some n =>
    simp only [transfer, SendResult.fits, Bool.and_eq_true, decide_eq_true_eq]
    omega

theorem given_transfer : Given env k rest (.send (transfer (env.send k) room)) := by
  cases h : env.send k with
  | none => exact h
  | some n => trivial

theorem given_nextEvent (p : TcpServer.Phase) : Given env k rest (nextEvent env k true rest p) := by
  cases p with
  | recvHeader n | recvPayload hdr n => exact given_arrive _
  | sendHeader hdr n | sendPayload hdr n => exact given_transfer
  | loop | headerFailed | left => rfl

theorem step_nextEvent {h : Handler} (hw : Wf h) (hp : h.phase ≠ .left) (env : Env) (k : Nat) (running : Bool)
    (rest : List UInt8) :
    ∃ h', TcpServer.step h (nextEvent env k running rest h.phase) = some h' ∧ Wf h' ∧
      Move (view h) (nextEvent env k running rest h.phase) (view h') := by
  have hsome : (TcpServer.step h (nextEvent env k running rest h.phase)).isSome := by
    obtain ⟨hl, hph⟩ := id hw
    cases hcase : h.phase with
    | loop | headerFailed => simp only [TcpServer.step, nextEvent, hcase, Option.isSome_some]
    | recvHeader n =>
      rw [hcase] at hph
      simp only [TcpServer.step, nextEvent, hcase, fits_arrive _ (Nat.sub_pos_of_lt hph), if_true, Option.isSome_some]
    | recvPayload hdr n =>
      rw [hcase] at hph
      simp only [TcpServer.step, nextEvent, hcase, fits_arrive _ (Nat.sub_pos_of_lt hph.2.1), if_true, Option.isSome_some]
    | sendHeader hdr n | sendPayload hdr n =>
      rw [hcase] at hph
      simp only [TcpServer.step, nextEvent, hcase, fits_transfer _ (Nat.sub_pos_of_lt hph.2.1), if_true,
        Option.isSome_some]
    | left => exact absurd hcase hp
  obtain ⟨h', hstep⟩ := Option.isSome_iff_exists.mp hsome
  obtain ⟨hwf, hview⟩ := step_spec h hw (nextEvent env k running rest h.phase)
  rw [hstep] at hview
  exact ⟨h', hstep, hwf h' hstep, move_of_step hview.symm⟩

/-- What holds while the handler reads a stream for which the answer `whole` to
`EndsBeforePayload` is already known. -/
def Reads (env : Env) (whole : Prop) (rest : List UInt8) : EchoMachine.Phase → Prop
  | .idle | .reply _ _ => EndsBeforePayload rest ↔ whole
  | .reading got => (EndsBeforePayload (got ++ rest) ↔ whole) ∧
      (headerSize ≤ got.length → payloadSize got ≤ maxPayloadSize ∧ got.length < headerSize + payloadSize got)
  | .headerFailed => rest = [] ∧ whole
  | .left => whole → ∃ k, env.send k = none

variable {whole : Prop}

theorem reads_onBytes {t : Traffic} {got : List UInt8} (hs : payloadSize got ≤ maxPayloadSize)
    (hle : got.length ≤ headerSize + payloadSize got)
    (h : EndsBeforePayload (got ++ rest) ↔ whole) : Reads env whole rest (onBytes t got).phase := by
  rw [onBytes]
  by_cases hlt : got.length < headerSize + payloadSize got
  · rw [if_pos hlt]
    exact ⟨h, fun _ => ⟨hs, hlt⟩⟩
  · rw [if_neg hlt]
    exact (endsBeforePayload_frame (by omega) hs).symm.trans h

/-- One action of the handler. The end of the stream sends it back to the loop
from inside a header, and out of the loop from inside a payload. -/
theorem reads_of_move {e e' : Echo} {ev : Event} (h : Reads env whole rest e.phase) (hg : Given env k rest ev)
    (hm : Move e ev e') : Reads env whole (consume rest ev) e'.phase := by
  cases hm with
  | enter t => exact ⟨h, fun hl => absurd hl (by decide)⟩
  | retry t =>
    obtain ⟨rfl, hwhole⟩ := h
    exact iff_of_true ⟨[], [], rfl, by decide⟩ hwhole
  | stop p t hp => cases hg
  | header t got bs hb hl =>
    refine ⟨?_, fun hge => absurd hl (Nat.not_lt.mpr hge)⟩
    rw [consume, List.append_assoc]
    exact hg ▸ h.1
  | oversize t got bs hlt hl hs =>
    intro hwhole
    have hcat : got ++ bs ++ consume rest (.recv (.data bs)) = got ++ rest := by
      rw [List.append_assoc]
      exact congrArg _ hg.symm
    have hfirst := h.1.mpr hwhole
    rw [← hcat] at hfirst
    exact absurd hs (Nat.not_lt.mpr (hfirst.first hl.ge).1)
  | accept t got bs hlt hl hs =>
    apply reads_onBytes hs (by omega)
    rw [consume, List.append_assoc]
    exact hg ▸ h.1
  | payload t got bs hb hge hl =>
    have hpay := payloadSize_append got bs hge
    apply reads_onBytes (hpay ▸ (h.2 hge).1) (hpay ▸ hl)
    rw [consume, List.append_assoc]
    exact hg ▸ h.1
  | cut t got r hr hlt =>
    obtain rfl | rfl := hr
    · obtain rfl : rest = [] := hg
      exact ⟨rfl, h.1.mp ⟨[], got, by simp [wire], hlt⟩⟩
    · exact hg.elim
  | broken t got r hr hge =>
    obtain rfl | rfl := hr
    · intro hwhole
      obtain rfl : rest = [] := hg
      have hlen := ((h.1.mpr hwhole).first hge).2.1
      rw [List.append_nil] at hlen
      exact absurd (h.2 hge).2 (Nat.not_lt.mpr hlen)
    · exact hg.elim
  | sendSome t frame m n hn hf =>
    split
    · exact h
    · exact h
  | sendError t frame m => exact fun _ => ⟨k, hg⟩

/-- A bound on the number of actions before the handler leaves, when the end of
the stream does not meet it inside a header. -/
def budget (rest : List UInt8) : EchoMachine.Phase → Nat
  | .idle => 4 * rest.length + 1
  | .reading got => 4 * rest.length + 2 * got.length
  | .headerFailed => 0
  | .reply frame sent => 4 * rest.length + (frame.length - sent) + 2
  | .left => 0

theorem budget_onBytes (t : Traffic) {got bs : List UInt8} (hb : 0 < bs.length) (hg : rest = bs ++ rest.drop bs.length) :
    budget (rest.drop bs.length) (onBytes t (got ++ bs)).phase < 4 * rest.length + 2 * got.length := by
  have hlen := congrArg List.length hg
  have hcat : (got ++ bs).length = got.length + bs.length := List.length_append
  rw [List.length_append] at hlen
  rw [onBytes]
  split
  · simp only [budget]
    omega
  · simp only [budget, answer, List.length_set]
    omega

theorem budget_of_move {e e' : Echo} {ev : Event} (h : Reads env False rest e.phase) (hg : Given env k rest ev)
    (hm : Move e ev e') : budget (consume rest ev) e'.phase < budget rest e.phase := by
  cases hm with
  | enter t => simp [budget, consume]
  | retry t => exact h.2.elim
  | stop p t hp => cases hg
  | header t got bs hb hl =>
    have hlen := congrArg List.length hg
    simp only [budget, consume, RecvResult.bytes, List.length_append] at hlen ⊢
    omega
  | oversize t got bs hlt hl hs =>
    have hlen := congrArg List.length hg
    simp only [budget, List.length_append] at hlen hl ⊢
    omega
  | accept t got bs hlt hl hs =>
    have hb : 0 < bs.length := by
      rw [List.length_append] at hl
      omega
    exact budget_onBytes _ hb hg
  | payload t got bs hb hge hl => exact budget_onBytes _ hb hg
  | cut t got r hr hlt =>
    obtain rfl | rfl := hr
    · obtain rfl : rest = [] := hg
      exact (h.1.mp ⟨[], got, by simp [wire], hlt⟩).elim
    · exact hg.elim
  | broken t got r hr hge =>
    have hpos : 0 < headerSize := by decide
    simp only [budget]
    omega
  | sendSome t frame m n hn hf =>
    simp only [consume]
    split <;> simp only [budget] <;> omega
  | sendError t frame m =>
    simp only [budget]
    omega

variable {j fd : Nat} {w : World}

/-- The thread is in its loop, no other thread stops the server, and what `Reads`
says holds of its handler. -/
structure InLoop (env : Env) (whole : Prop) (sockets : ServerSockets.State) (w : World) : Prop where
  wf : Wf w.handler
  reads : Reads env whole w.rest (view w.handler).phase
  sockets : w.sockets = sockets

theorem inLoop_next {sockets : ServerSockets.State} (hrun : sockets.running = true) (h : InLoop env whole sockets w)
    (hp : w.handler.phase ≠ .left) :
    ∃ w', World.next env j k w = some w' ∧ InLoop env whole sockets w' ∧
      (¬ whole → budget w'.rest (view w'.handler).phase < budget w.rest (view w.handler).phase) := by
  obtain ⟨h', hstep, hwf, hmove⟩ := step_nextEvent h.wf hp env k w.sockets.running w.rest
  have hgiven : Given env k w.rest (nextEvent env k w.sockets.running w.rest w.handler.phase) := by
    rw [h.sockets, hrun]
    exact given_nextEvent _
  refine ⟨{ w with handler := h', rest := consume w.rest (nextEvent env k w.sockets.running w.rest w.handler.phase) },
    ?_, ⟨hwf, reads_of_move h.reads hgiven hmove, h.sockets⟩, fun hno => ?_⟩
  · rw [World.next, if_neg hp]
    simp only [hstep, Option.map_some]
  · obtain rfl : whole = False := eq_false hno
    exact budget_of_move h.reads hgiven hmove

theorem execute_succ {n : Nat} {w' w'' : World} (h : execute env j w n = some w')
    (h' : World.next env j n w' = some w'') : execute env j w (n + 1) = some w'' := by
  rw [execute, h, Option.bind_some, h']

theorem leaves {sockets : ServerSockets.State} (hrun : sockets.running = true) {start : World} {n : Nat}
    (hexec : execute env j start n = some w) (h : InLoop env False sockets w) :
    ∃ n' w', execute env j start n' = some w' ∧ w'.handler.phase = .left ∧ w'.sockets = sockets := by
  induction hb : budget w.rest (view w.handler).phase using Nat.strong_induction_on generalizing n w with
  | _ b ih =>
    by_cases hp : w.handler.phase = .left
    · exact ⟨n, w, hexec, hp, h.sockets⟩
    · obtain ⟨w', hnext, hin, hless⟩ := inLoop_next (k := n) hrun h hp
      exact ih _ (hb ▸ hless id) (execute_succ hexec hnext) hin rfl

/-- A stream that ends before a payload keeps the handler in its loop as long as
its replies are sent. -/
theorem stays {sockets : ServerSockets.State} (hrun : sockets.running = true) (hsend : ∀ k, env.send k ≠ none)
    (h : InLoop env True sockets w) (n : Nat) :
    ∃ w', execute env j w n = some w' ∧ InLoop env True sockets w' ∧ w'.handler.phase ≠ .left := by
  have hleft {w' : World} (h' : InLoop env True sockets w') : w'.handler.phase ≠ .left := by
    intro hp
    have hreads := h'.reads
    simp only [view, hp, Reads] at hreads
    obtain ⟨k, hk⟩ := hreads trivial
    exact hsend k hk
  induction n with
  | zero => exact ⟨w, rfl, h, hleft h⟩
  | succ n ih =>
    obtain ⟨w', hexec, hin, hp⟩ := ih
    obtain ⟨w'', hnext, hin', -⟩ := inLoop_next (k := n) hrun hin hp
    exact ⟨w'', execute_succ hexec hnext, hin', hleft hin'⟩

theorem set_getElem {s : ServerSockets.State} {h h' : ServerSockets.Handler} (hj : s.handlers[j]? = some h) :
    (s.handlers.set j h')[j]? = some h' := by
  obtain ⟨hlt, -⟩ := List.getElem?_eq_some_iff.mp hj
  exact List.getElem?_set_self hlt

theorem released_of_left {n : Nat} {w' : World} (hexec : execute env j w n = some w') (hp : w'.handler.phase = .left)
    (hs : w'.sockets = w.sockets) (hj : w.sockets.handlers[j]? = some ⟨fd, .loop⟩) (hstop : w.sockets.stopper = .outside) :
    Released env j fd w := by
  have hlock : w.sockets.locked = false := by rw [ServerSockets.State.locked, hstop]
  let s₁ := w.sockets.setPhase j ⟨fd, .loop⟩ .close
  let s₂ := (s₁.close fd).setPhase j ⟨fd, .close⟩ .erase
  let s₃ := { s₂.setPhase j ⟨fd, .erase⟩ .exited with clientFds := s₂.clientFds.filter (fun m => m ≠ fd) }
  have hj₁ : s₁.handlers[j]? = some ⟨fd, .close⟩ := set_getElem hj
  have hj₂ : s₂.handlers[j]? = some ⟨fd, .erase⟩ := set_getElem (s := s₁.close fd) hj₁
  have hj₃ : s₃.handlers[j]? = some ⟨fd, .exited⟩ := set_getElem hj₂
  have h₁ : afterLoop j w.sockets = some s₁ := by
    simp only [afterLoop, hj, Option.bind_some, ServerSockets.step, ServerSockets.handlerStep]
    rfl
  have h₂ : afterLoop j s₁ = some s₂ := by
    simp only [afterLoop, hj₁, Option.bind_some, ServerSockets.step, ServerSockets.handlerStep]
    rfl
  have h₃ : afterLoop j s₂ = some s₃ := by
    have hlock₂ : s₂.locked = false := hlock
    simp only [afterLoop, hj₂, Option.bind_some, ServerSockets.step, ServerSockets.handlerStep, hlock₂,
      Bool.false_eq_true, if_false]
    rfl
  have hnext {m : Nat} {s t : ServerSockets.State} (h : afterLoop j s = some t) :
      World.next env j m { w' with sockets := s } = some { w' with sockets := t } := by
    rw [World.next, if_pos hp, h]
    rfl
  have hstart : execute env j w n = some { w' with sockets := w.sockets } := hs ▸ hexec
  refine ⟨n + 3, { w' with sockets := s₃ },
    execute_succ (execute_succ (execute_succ hstart (hnext h₁)) (hnext h₂)) (hnext h₃), hp, hj₃, rfl, ?_, ?_⟩
  · exact fun hmem => by simpa using (List.mem_filter.mp hmem).2
  · exact fun hmem => by simpa using (List.mem_filter.mp hmem).2

/-- The thread at its start, for a client that sends `stream` and closes. -/
def World.start (stack : Fin headerSize → UInt8) (payloadBuf : List UInt8) (requestCount byteCount : UInt64)
    (stream : List UInt8) (sockets : ServerSockets.State) : World :=
  ⟨TcpServer.start stack payloadBuf requestCount byteCount, stream, sockets⟩

variable {stack : Fin headerSize → UInt8} {payloadBuf stream : List UInt8} {requestCount byteCount : UInt64}
  {sockets : ServerSockets.State}

theorem inLoop_start (h : EndsBeforePayload stream ↔ whole) :
    InLoop env whole sockets (World.start stack payloadBuf requestCount byteCount stream sockets) :=
  ⟨wf_start _ _ _ _, h, rfl⟩

theorem released_of_not_endsBeforePayload (hrun : sockets.running = true) (hstop : sockets.stopper = .outside)
    (hj : sockets.handlers[j]? = some ⟨fd, .loop⟩) (h : ¬ EndsBeforePayload stream) :
    Released env j fd (World.start stack payloadBuf requestCount byteCount stream sockets) := by
  have hin : InLoop env False sockets (World.start stack payloadBuf requestCount byteCount stream sockets) :=
    inLoop_start (iff_false_intro h)
  obtain ⟨n, w', hexec, hp, hs⟩ := leaves (j := j) (n := 0) hrun rfl hin
  exact released_of_left hexec hp hs hj hstop

theorem not_released_of_endsBeforePayload (hrun : sockets.running = true) (hsend : ∀ k, env.send k ≠ none)
    (h : EndsBeforePayload stream) :
    ¬ Released env j fd (World.start stack payloadBuf requestCount byteCount stream sockets) := by
  rintro ⟨n, w', hexec, hp, -⟩
  obtain ⟨w'', hexec', -, hp'⟩ := stays (j := j) hrun hsend (inLoop_start (iff_true_intro h)) n
  rw [hexec] at hexec'
  cases hexec'
  exact hp' hp

/-- A finished connection is released unless its stream ends at a message boundary
or inside a header. There the end of the stream is taken for a timeout, and the
handler tries again for ever, whatever the fragmentation. -/
theorem released_iff (stack : Fin headerSize → UInt8) (payloadBuf : List UInt8) (requestCount byteCount : UInt64)
    (stream : List UInt8) (recv : Nat → Nat) {sockets : ServerSockets.State} {j fd : Nat}
    (hrun : sockets.running = true) (hstop : sockets.stopper = .outside)
    (hj : sockets.handlers[j]? = some ⟨fd, .loop⟩) :
    let w := World.start stack payloadBuf requestCount byteCount stream sockets
    ((∀ send, Released ⟨recv, send⟩ j fd w) ↔ ¬ EndsBeforePayload stream) ∧
      ∀ send, (∀ k, send k ≠ none) → (Released ⟨recv, send⟩ j fd w ↔ ¬ EndsBeforePayload stream) := by
  intro w
  have hrel (send : Nat → Option Nat) (h : ¬ EndsBeforePayload stream) : Released ⟨recv, send⟩ j fd w :=
    released_of_not_endsBeforePayload hrun hstop hj h
  have hnot (send : Nat → Option Nat) (hsend : ∀ k, send k ≠ none) (h : EndsBeforePayload stream) :
      ¬ Released ⟨recv, send⟩ j fd w :=
    not_released_of_endsBeforePayload hrun hsend h
  refine ⟨⟨fun hall h => ?_, fun h send => hrel send h⟩, fun send hsend => ⟨fun hr h => hnot send hsend h hr, hrel send⟩⟩
  exact hnot (fun _ => some 0) (fun _ => Option.some_ne_none 0) h (hall _)

def oneConnection : ServerSockets.State where
  running := true
  listenFd := some 3
  opened := [4, 3]
  clientFds := [4]
  acceptor := .accept
  handlers := [⟨4, .loop⟩]
  stopper := .outside
  ops := [.accepted 4]

/-- A header that announces one payload byte, and the end of the stream after
it. -/
theorem released_inside_payload :
    Released ⟨fun _ => 0, fun _ => some 0⟩ 0 4
      (World.start (fun _ => 0) [] 0 0 (serializeHeader ⟨1, 1, 7, request, 1000⟩) oneConnection) := by
  have hj : oneConnection.handlers[0]? = some ⟨4, .loop⟩ := rfl
  apply (released_iff (fun _ => 0) [] 0 0 (serializeHeader ⟨1, 1, 7, request, 1000⟩) (fun _ => 0) rfl rfl hj).1.mpr
  intro h
  rw [← List.append_nil (serializeHeader _)] at h
  obtain ⟨-, hlen, -⟩ := h.first (by decide)
  exact absurd hlen (by decide)

/-- A client that closes after a complete request without payload: the handler
never leaves its loop. -/
theorem not_released_at_boundary :
    let w := World.start (fun _ => 0) [] 0 0 (serializeHeader ⟨1, 0, 7, request, 1000⟩) oneConnection
    ¬ Released ⟨fun _ => 0, fun _ => some 0⟩ 0 4 w ∧
      ∀ n, ∃ w', execute ⟨fun _ => 0, fun _ => some 0⟩ 0 w n = some w' ∧ w'.handler.phase ≠ .left := by
  intro w
  have hends : EndsBeforePayload (serializeHeader ⟨1, 0, 7, request, 1000⟩) :=
    ⟨[⟨⟨1, 0, 7, request, 1000⟩, [], rfl, by decide⟩], [], rfl, by decide⟩
  have hin : InLoop ⟨fun _ => 0, fun _ => some 0⟩ True oneConnection w := inLoop_start (iff_true_intro hends)
  refine ⟨not_released_of_endsBeforePayload rfl (fun _ => Option.some_ne_none 0) hends, fun n => ?_⟩
  obtain ⟨w', hexec, -, hp⟩ := stays (j := 0) rfl (fun _ => Option.some_ne_none 0) hin n
  exact ⟨w', hexec, hp⟩

end DcBench.HandlerRelease

import DcBench.SessionEcho
import DcBench.ServerSystem

namespace DcBench.Connections

open DcBench.Lib DcBench.Message DcBench.ExactTransfer
open DcBench.DoRequest (Call Client)
open DcBench.EchoSession (Session Label)

/-- The network delivers the bytes in order, in pieces of any length. A call
neither fails nor times out. -/
def delivers (flight : List UInt8) : RecvResult → Bool
  | .data bs => bs.isPrefixOf flight
  | .eof | .error => false

def transmits : SendResult → Bool
  | .sent _ => true
  | .error => false

def clientMay (flight : List UInt8) : DoRequest.Event → Bool
  | .recv r => delivers flight r
  | .send r => transmits r
  | .call _ _ | .now _ => true

/-- The server runs as long as the clients do, and none of its receives times
out: `accept_loop` gives every socket a receive timeout of one second, so each of
them must find a byte within that time. -/
def handlerMay (flight : List UInt8) : TcpServer.Event → Bool
  | .running value => value
  | .recv r => delivers flight r
  | .send r => transmits r

theorem delivers_data {flight bs : List UInt8} (h : delivers flight (.data bs) = true) :
    bs.length ≤ flight.length ∧ flight.take bs.length = bs := by
  have hpre := List.isPrefixOf_iff_prefix.mp h
  exact ⟨hpre.length_le, (List.prefix_iff_eq_take.mp hpre).symm⟩

theorem delivers_take (flight : List UInt8) (n : Nat) : delivers flight (.data (flight.take n)) = true :=
  List.isPrefixOf_iff_prefix.mpr (List.take_prefix n flight)

def shift (a : UInt64 × UInt64) (s : Session) : Session := { s with server := ServerSystem.shift a s.server }

theorem step_shift (a : UInt64 × UInt64) (s : Session) (l : Label) :
    EchoSession.step (shift a s) l = (EchoSession.step s l).map (shift a) := by
  have hclient (s : Session) (ev : DoRequest.Event) : (shift a s).onClient ev = (s.onClient ev).map (shift a) := by
    simp only [Session.onClient, Option.map_map]
    rfl
  have hserver (ev : TcpServer.Event) : (shift a s).onServer ev = (s.onServer ev).map (shift a) := by
    simp only [Session.onServer, shift, ServerSystem.step_shift, Option.map_map]
    rfl
  have hto : (shift a s).toServer = s.toServer := rfl
  have hfrom : (shift a s).toClient = s.toClient := rfl
  cases l with
  | call now =>
    have htodo : (shift a s).todo = s.todo := rfl
    cases ht : s.todo with
    | nil => simp only [EchoSession.step, htodo, ht, Option.map_none]
    | cons args rest =>
      simp only [EchoSession.step, htodo, ht]
      exact hclient { s with todo := rest } (.call args now)
  | clientSend n => exact hclient s _
  | clientNow t => exact hclient s _
  | serverTest => exact hserver _
  | serverSend n => exact hserver _
  | clientRecv n =>
    simp only [EchoSession.step, hfrom]
    split
    · exact hclient s _
    · rfl
  | serverRecv n =>
    simp only [EchoSession.step, hto]
    split
    · exact hserver _
    · rfl

def counting : Shared.Counting Session Label (UInt64 × UInt64) where
  step := EchoSession.step
  total s := (s.server.traffic.requestCount, s.server.traffic.byteCount)
  shift := shift
  shift_zero s := by rw [shift, ServerSystem.shift_zero]
  total_shift _ _ := rfl
  shift_shift a b s := by simp only [shift, ServerSystem.shift_shift]
  step_shift := step_shift

theorem load_counting (a : UInt64 × UInt64) (x : Session) :
    counting.load a x = { x with server := ServerSystem.load a.1 a.2 x.server } := by
  change shift (a - (x.server.traffic.requestCount, x.server.traffic.byteCount)) x = _
  rw [shift, ServerSystem.shift_sub]

abbrev Sessions (P : Nat) := (Fin P → Session) × (UInt64 × UInt64)

/-- Both ends of every connection between a client and the server: the calls
that are still to be made on it, and the counters that the handlers share. -/
structure Ends (P : Nat) where
  client : Fin P → Client
  todo : Fin P → List Call
  handler : Fin P → TcpServer.Handler
  requestCount : UInt64
  byteCount : UInt64

variable {P : Nat}

def Ends.toServer (e : Ends P) (j : Fin P) : List UInt8 :=
  (e.client j).sent.drop (e.handler j).traffic.received.length

def Ends.toClient (e : Ends P) (j : Fin P) : List UInt8 :=
  (e.handler j).traffic.sent.drop (e.client j).received.length

/-- A call takes the first of the calls that are still to be made. -/
def remaining (ev : DoRequest.Event) (todo : List Call) : List Call :=
  match ev with
  | .call _ _ => todo.tail
  | .send _ | .recv _ | .now _ => todo

def Ends.onClient (e : Ends P) (j : Fin P) (ev : DoRequest.Event) (c : Client) : Ends P :=
  { e with
    client := Function.update e.client j c
    todo := Function.update e.todo j (remaining ev (e.todo j)) }

def Ends.onHandler (e : Ends P) (j : Fin P) (h : TcpServer.Handler) : Ends P :=
  { e with
    handler := Function.update e.handler j h
    requestCount := h.traffic.requestCount
    byteCount := h.traffic.byteCount }

/-- The system call of a session that an event of its client is. -/
def clientLabel : DoRequest.Event → Option Label
  | .call _ now => some (.call now)
  | .send (.sent n) => some (.clientSend n)
  | .recv (.data bs) => some (.clientRecv bs.length)
  | .now t => some (.clientNow t)
  | .send .error | .recv .eof | .recv .error => none

def handlerLabel : TcpServer.Event → Option Label
  | .running _ => some .serverTest
  | .recv (.data bs) => some (.serverRecv bs.length)
  | .send (.sent n) => some (.serverSend n)
  | .send .error | .recv .eof | .recv .error => none

/-- The sessions that the connections are. A handler's own copy of the counters
is of no account. -/
structure Tracks (e : Ends P) (t : Sessions P) : Prop where
  counters : t.2 = (e.requestCount, e.byteCount)
  client : ∀ j, (t.1 j).client = e.client j
  todo : ∀ j, (t.1 j).todo = e.todo j
  server : ∀ j rc bc, ServerSystem.load rc bc (t.1 j).server = ServerSystem.load rc bc (e.handler j)

theorem clientLabel_isSome (ev : DoRequest.Event) (flight : List UInt8) (hmay : clientMay flight ev = true) :
    (clientLabel ev).isSome = true := by
  cases ev with
  | call args now | now t => rfl
  | send r =>
    cases r with
    | sent n => rfl
    | error => cases hmay
  | recv r =>
    cases r with
    | data bs => rfl
    | eof | error => cases hmay

theorem handlerLabel_isSome (ev : TcpServer.Event) (flight : List UInt8) (hmay : handlerMay flight ev = true) :
    (handlerLabel ev).isSome = true := by
  cases ev with
  | running value => rfl
  | send r =>
    cases r with
    | sent n => rfl
    | error => cases hmay
  | recv r =>
    cases r with
    | data bs => rfl
    | eof | error => cases hmay

theorem session_client {s : Session} {ev : DoRequest.Event} {c : Client} (hmay : clientMay s.toClient ev = true)
    (hnext : ∀ args now, ev = .call args now → s.todo.head? = some args) (hs : DoRequest.step s.client ev = some c) :
    ∃ l, clientLabel ev = some l ∧ EchoSession.step s l = some { s with client := c, todo := remaining ev s.todo } := by
  have hon : s.onClient ev = some { s with client := c } := by rw [Session.onClient, hs, Option.map_some]
  cases ev with
  | call args now =>
    obtain ⟨rest, htodo⟩ := List.head?_eq_some_iff.mp (hnext args now rfl)
    refine ⟨_, rfl, ?_⟩
    simp only [EchoSession.step, htodo, Session.onClient, hs, Option.map_some]
    rfl
  | send r =>
    cases r with
    | sent n => exact ⟨_, rfl, hon⟩
    | error => cases hmay
  | recv r =>
    cases r with
    | data bs =>
      obtain ⟨hle, htake⟩ := delivers_data hmay
      refine ⟨_, rfl, ?_⟩
      rw [EchoSession.step, if_pos hle, htake]
      exact hon
    | eof | error => cases hmay
  | now t => exact ⟨_, rfl, hon⟩

theorem session_handler {s : Session} {ev : TcpServer.Event} {h : TcpServer.Handler}
    (hmay : handlerMay s.toServer ev = true) (hs : TcpServer.step s.server ev = some h) :
    ∃ l, handlerLabel ev = some l ∧ EchoSession.step s l = some { s with server := h } := by
  have hon : s.onServer ev = some { s with server := h } := by rw [Session.onServer, hs, Option.map_some]
  cases ev with
  | running value =>
    obtain rfl : value = true := hmay
    exact ⟨_, rfl, hon⟩
  | send r =>
    cases r with
    | sent n => exact ⟨_, rfl, hon⟩
    | error => cases hmay
  | recv r =>
    cases r with
    | data bs =>
      obtain ⟨hle, htake⟩ := delivers_data hmay
      refine ⟨_, rfl, ?_⟩
      rw [EchoSession.step, if_pos hle, htake]
      exact hon
    | eof | error => cases hmay

variable {e : Ends P} {t : Sessions P} {j : Fin P}

theorem Tracks.load (h : Tracks e t) (j : Fin P) : counting.load t.2 (t.1 j) =
    ⟨e.client j, ServerSystem.load e.requestCount e.byteCount (e.handler j), e.todo j⟩ := by
  rw [load_counting, h.counters, h.server j, h.client j, h.todo j]

theorem run_session {l : Label} {x : Session} (hx : EchoSession.step (counting.load t.2 (t.1 j)) l = some x) :
    Transition.run (Shared.step counting) t [(j, l)] =
      some (Function.update t.1 j x, x.server.traffic.requestCount, x.server.traffic.byteCount) := by
  have hstep : counting.step (counting.load t.2 (t.1 j)) l = some x := hx
  simp only [Transition.run, Shared.step, hstep, Option.map_some, Option.bind_some]
  rfl

theorem Tracks.run (h : Tracks e t) {l : Label} {x : Session} {e' : Ends P}
    (hl : EchoSession.step ⟨e.client j, ServerSystem.load e.requestCount e.byteCount (e.handler j), e.todo j⟩ l = some x)
    (hclient : e'.client = Function.update e.client j x.client) (htodo : e'.todo = Function.update e.todo j x.todo)
    (hserver : ∀ rc bc, ServerSystem.load rc bc x.server = ServerSystem.load rc bc (e'.handler j))
    (hothers : ∀ k, k ≠ j → e'.handler k = e.handler k)
    (hcounters : (x.server.traffic.requestCount, x.server.traffic.byteCount) = (e'.requestCount, e'.byteCount)) :
    ∃ u, Transition.run (Shared.step counting) t [(j, l)] = some u ∧ Tracks e' u := by
  rw [← h.load j] at hl
  refine ⟨_, run_session hl, hcounters, ?_, ?_, ?_⟩
  · intro k
    by_cases hk : k = j
    · subst hk
      simp only [hclient, Function.update_self]
    · simp only [hclient, Function.update_of_ne hk]
      exact h.client k
  · intro k
    by_cases hk : k = j
    · subst hk
      simp only [htodo, Function.update_self]
    · simp only [htodo, Function.update_of_ne hk]
      exact h.todo k
  · intro k rc bc
    by_cases hk : k = j
    · subst hk
      simp only [Function.update_self]
      exact hserver rc bc
    · simp only [hothers k hk, Function.update_of_ne hk]
      exact h.server k rc bc

theorem Tracks.client_step (h : Tracks e t) {ev : DoRequest.Event} {c : Client}
    (hmay : clientMay (e.toClient j) ev = true)
    (hnext : ∀ args now, ev = .call args now → (e.todo j).head? = some args)
    (hs : DoRequest.step (e.client j) ev = some c) :
    ∃ u, Transition.run (Shared.step counting) t ((clientLabel ev).map (Prod.mk j)).toList = some u ∧
      Tracks (e.onClient j ev c) u := by
  obtain ⟨l, hlabel, hl⟩ := session_client
    (s := ⟨e.client j, ServerSystem.load e.requestCount e.byteCount (e.handler j), e.todo j⟩) hmay hnext hs
  rw [hlabel]
  exact h.run hl rfl rfl (fun _ _ => rfl) (fun _ _ => rfl) rfl

/-- What a step of a worker is on its connection: nothing, or a step of
`do_request`. -/
inductive Shown (c c' : Client) (todo todo' : List Call) : Option DoRequest.Event → Prop
  | quiet (hclient : c' = c) (htodo : todo' = todo) : Shown c c' todo todo' none
  | inside (ev : DoRequest.Event) (hstep : DoRequest.step c ev = some c')
      (hnext : ∀ args now, ev = .call args now → todo.head? = some args) (htodo : todo' = remaining ev todo) :
      Shown c c' todo todo' (some ev)

theorem Tracks.shown_step (h : Tracks e t) {c : Client} {todo : List Call} {shown : Option DoRequest.Event}
    (hmay : ∀ ev, shown = some ev → clientMay (e.toClient j) ev = true)
    (hshown : Shown (e.client j) c (e.todo j) todo shown) :
    ∃ u, Transition.run (Shared.step counting) t ((shown.bind clientLabel).map (Prod.mk j)).toList = some u ∧
      Tracks { e with client := Function.update e.client j c, todo := Function.update e.todo j todo } u := by
  cases hshown with
  | quiet hclient htodo =>
    rw [hclient, htodo, Function.update_eq_self, Function.update_eq_self]
    exact ⟨t, rfl, h⟩
  | inside ev hstep hnext htodo =>
    rw [htodo]
    exact h.client_step (hmay ev rfl) hnext hstep

theorem Tracks.handler_step (h : Tracks e t) {ev : TcpServer.Event} {hd : TcpServer.Handler}
    (hmay : handlerMay (e.toServer j) ev = true)
    (hs : TcpServer.step (ServerSystem.load e.requestCount e.byteCount (e.handler j)) ev = some hd) :
    ∃ u, Transition.run (Shared.step counting) t ((handlerLabel ev).map (Prod.mk j)).toList = some u ∧
      Tracks (e.onHandler j hd) u := by
  obtain ⟨l, hlabel, hl⟩ := session_handler
    (s := ⟨e.client j, ServerSystem.load e.requestCount e.byteCount (e.handler j), e.todo j⟩) hmay hs
  rw [hlabel]
  refine h.run hl (Function.update_eq_self j e.client).symm (Function.update_eq_self j e.todo).symm ?_ ?_ rfl
  · intro rc bc
    simp only [Ends.onHandler, Function.update_self]
  · intro k hk
    exact Function.update_of_ne hk _ _

end DcBench.Connections

import DcBench.Lib.Transition

namespace DcBench.ServerSockets

open DcBench.Lib

inductive Acceptor
  | test
  | accept
  | failed
  | register (fd : Nat)
  | spawn (fd : Nat)
  | exited
deriving DecidableEq, Repr

/-- The next action of a `connection_handler`: inside its loop, `::close`, the
removal from `client_fds_`. -/
inductive Phase
  | loop
  | close
  | erase
  | exited
deriving DecidableEq, Repr

structure Handler where
  fd : Nat
  phase : Phase
deriving DecidableEq, Repr

/-- The next action of `TcpServer::stop`. In `closing` it holds `fds_mu_`, and
the list is what is left of its loop over `client_fds_`. -/
inductive Stopper
  | outside
  | shutdown
  | lock
  | closing (fds : List Nat)
  | joinAcceptor
  | joinHandlers
  | returned
deriving DecidableEq, Repr

inductive Op
  | accepted (fd : Nat)
  | closed (fd : Nat)
deriving DecidableEq, Repr

def Op.fd : Op → Nat
  | .accepted fd => fd
  | .closed fd => fd

/-- The server with its threads. `opened` is the descriptor table of the
process; `ops` is history. -/
structure State where
  running : Bool
  listenFd : Option Nat
  opened : List Nat
  clientFds : List Nat
  acceptor : Acceptor
  handlers : List Handler
  stopper : Stopper
  ops : List Op
deriving DecidableEq

inductive Event
  | test
  | accept (result : Option Nat)
  | register
  | spawn
  | leave (j : Nat)
  | close (j : Nat)
  | erase (j : Nat)
  | stop
  | shutdown
  | lock
  | closeNext
  | unlock
  | join
deriving DecidableEq, Repr

namespace State

variable (s : State)

def locked : Bool :=
  match s.stopper with
  | .closing _ => true
  | _ => false

/-- `::close` of a connection's descriptor. The number is free again, whoever
it belonged to. -/
def close (fd : Nat) : State :=
  { s with opened := s.opened.filter (fun n => n ≠ fd), ops := s.ops ++ [.closed fd] }

def setPhase (j : Nat) (h : Handler) (phase : Phase) : State :=
  { s with handlers := s.handlers.set j { h with phase := phase } }

end State

/-- One step of `connection_handler`. Its loop ends after any iteration: on an
I/O failure, a header over the limit, or when `running_` is false. -/
def handlerStep (s : State) (j : Nat) (h : Handler) : Phase → Event → Option State
  | .loop, .leave _ => some (s.setPhase j h .close)
  | .close, .close _ => some ((s.close h.fd).setPhase j h .erase)
  | .erase, .erase _ =>
    if s.locked then none
    else some { s.setPhase j h .exited with clientFds := s.clientFds.filter (fun n => n ≠ h.fd) }
  | _, _ => none

/-- One step of the process. `accept` gives a number that is not open, and
fails once the listener has been shut down. -/
def step (s : State) : Event → Option State
  | .test =>
    match s.acceptor with
    | .test => some { s with acceptor := if s.running then .accept else .exited }
    | .failed => some { s with acceptor := if s.running then .test else .exited }
    | _ => none
  | .accept none => if s.acceptor = .accept then some { s with acceptor := .failed } else none
  | .accept (some fd) =>
    if s.acceptor = .accept ∧ s.listenFd.isSome ∧ fd ∉ s.opened then
      some { s with acceptor := .register fd, opened := fd :: s.opened, ops := s.ops ++ [.accepted fd] }
    else none
  | .register =>
    match s.acceptor with
    | .register fd =>
      if s.locked then none else some { s with acceptor := .spawn fd, clientFds := s.clientFds ++ [fd] }
    | _ => none
  | .spawn =>
    match s.acceptor with
    | .spawn fd => some { s with acceptor := .test, handlers := s.handlers ++ [⟨fd, .loop⟩] }
    | _ => none
  | .leave j => s.handlers[j]?.bind (fun h => handlerStep s j h h.phase (.leave j))
  | .close j => s.handlers[j]?.bind (fun h => handlerStep s j h h.phase (.close j))
  | .erase j => s.handlers[j]?.bind (fun h => handlerStep s j h h.phase (.erase j))
  | .stop =>
    if s.stopper = .outside ∧ s.running then some { s with stopper := .shutdown, running := false } else none
  | .shutdown =>
    if s.stopper = .shutdown then
      some { s with
        stopper := .lock
        listenFd := none
        opened := s.opened.filter (fun n => some n ≠ s.listenFd) }
    else none
  | .lock => if s.stopper = .lock then some { s with stopper := .closing s.clientFds } else none
  | .closeNext =>
    match s.stopper with
    | .closing (fd :: fds) => some { s.close fd with stopper := .closing fds }
    | _ => none
  | .unlock => if s.stopper = .closing [] then some { s with stopper := .joinAcceptor, clientFds := [] } else none
  | .join =>
    match s.stopper with
    | .joinAcceptor => if s.acceptor = .exited then some { s with stopper := .joinHandlers } else none
    | .joinHandlers =>
      if ∀ h ∈ s.handlers, h.phase = .exited then some { s with stopper := .returned } else none
    | _ => none

/-- The server has just been started; `opened` is whatever the process has open,
the listener among it. -/
def start (listenFd : Nat) (opened : List Nat) : State where
  running := true
  listenFd := some listenFd
  opened := listenFd :: opened
  clientFds := []
  acceptor := .test
  handlers := []
  stopper := .outside
  ops := []

inductive Move (s : State) : Event → State → Prop
  | test (a : Acceptor) (hs : s.acceptor = .test ∨ s.acceptor = .failed)
      (ha : a = .accept ∨ a = .test ∨ a = .exited) : Move s .test { s with acceptor := a }
  | acceptFails (hs : s.acceptor = .accept) : Move s (.accept none) { s with acceptor := .failed }
  | accept (fd : Nat) (hs : s.acceptor = .accept) (hl : s.listenFd.isSome) (hf : fd ∉ s.opened) :
      Move s (.accept (some fd))
        { s with acceptor := .register fd, opened := fd :: s.opened, ops := s.ops ++ [.accepted fd] }
  | register (fd : Nat) (hs : s.acceptor = .register fd) (hk : s.locked = false) :
      Move s .register { s with acceptor := .spawn fd, clientFds := s.clientFds ++ [fd] }
  | spawn (fd : Nat) (hs : s.acceptor = .spawn fd) :
      Move s .spawn { s with acceptor := .test, handlers := s.handlers ++ [⟨fd, .loop⟩] }
  | leave (j : Nat) (h : Handler) (hj : s.handlers[j]? = some h) (hp : h.phase = .loop) :
      Move s (.leave j) (s.setPhase j h .close)
  | close (j : Nat) (h : Handler) (hj : s.handlers[j]? = some h) (hp : h.phase = .close) :
      Move s (.close j) ((s.close h.fd).setPhase j h .erase)
  | erase (j : Nat) (h : Handler) (hj : s.handlers[j]? = some h) (hp : h.phase = .erase) (hk : s.locked = false) :
      Move s (.erase j)
        { s.setPhase j h .exited with clientFds := s.clientFds.filter (fun n => n ≠ h.fd) }
  | stop (hs : s.stopper = .outside) : Move s .stop { s with stopper := .shutdown, running := false }
  | shutdown (opened : List Nat) (hs : s.stopper = .shutdown)
      (ho : ∀ n ∈ s.opened, some n ≠ s.listenFd → n ∈ opened) :
      Move s .shutdown { s with stopper := .lock, listenFd := none, opened := opened }
  | lock (hs : s.stopper = .lock) : Move s .lock { s with stopper := .closing s.clientFds }
  | closeNext (fd : Nat) (fds : List Nat) (hs : s.stopper = .closing (fd :: fds)) :
      Move s .closeNext { s.close fd with stopper := .closing fds }
  | unlock (hs : s.stopper = .closing []) : Move s .unlock { s with stopper := .joinAcceptor, clientFds := [] }
  | joinAcceptor (hs : s.stopper = .joinAcceptor) (ha : s.acceptor = .exited) :
      Move s .join { s with stopper := .joinHandlers }
  | joinHandlers (hs : s.stopper = .joinHandlers) (hh : ∀ h ∈ s.handlers, h.phase = .exited) :
      Move s .join { s with stopper := .returned }

variable {s t : State} {e : Event}

theorem move_of_handler {j : Nat} (he : e = .leave j ∨ e = .close j ∨ e = .erase j)
    (hs : s.handlers[j]?.bind (fun h => handlerStep s j h h.phase e) = some t) : Move s e t := by
  obtain ⟨h, hj, hs⟩ := Option.bind_eq_some_iff.mp hs
  cases hp : h.phase with
  | loop =>
    rw [hp] at hs
    obtain rfl | rfl | rfl := he <;> cases hs
    exact .leave j h hj hp
  | close =>
    rw [hp] at hs
    obtain rfl | rfl | rfl := he <;> cases hs
    exact .close j h hj hp
  | erase =>
    rw [hp] at hs
    obtain rfl | rfl | rfl := he
    · cases hs
    · cases hs
    · obtain ⟨hk, heq⟩ := Option.ite_none_left_eq_some.mp hs
      cases heq
      exact .erase j h hj hp (Bool.eq_false_iff.mpr hk)
  | exited =>
    rw [hp] at hs
    obtain rfl | rfl | rfl := he <;> cases hs

theorem move_of_step (h : step s e = some t) : Move s e t := by
  cases e with
  | test =>
    simp only [step] at h
    split at h
    · rename_i hs
      cases h
      apply Move.test _ (.inl hs)
      split
      · exact .inl rfl
      · exact .inr (.inr rfl)
    · rename_i hs
      cases h
      apply Move.test _ (.inr hs)
      split
      · exact .inr (.inl rfl)
      · exact .inr (.inr rfl)
    · cases h
  | accept result =>
    cases result with
    | none =>
      obtain ⟨hs, heq⟩ := Option.ite_none_right_eq_some.mp h
      cases heq
      exact .acceptFails hs
    | some fd =>
      obtain ⟨⟨hs, hl, hf⟩, heq⟩ := Option.ite_none_right_eq_some.mp h
      cases heq
      exact .accept fd hs hl hf
  | register =>
    cases hs : s.acceptor with
    | register fd =>
      simp only [step, hs] at h
      obtain ⟨hk, heq⟩ := Option.ite_none_left_eq_some.mp h
      cases heq
      exact .register fd hs (Bool.eq_false_iff.mpr hk)
    | test | accept | failed | spawn fd | exited => simp [step, hs] at h
  | spawn =>
    cases hs : s.acceptor with
    | spawn fd =>
      simp only [step, hs] at h
      cases h
      exact .spawn fd hs
    | test | accept | failed | register fd | exited => simp [step, hs] at h
  | leave j => exact move_of_handler (.inl rfl) h
  | close j => exact move_of_handler (.inr (.inl rfl)) h
  | erase j => exact move_of_handler (.inr (.inr rfl)) h
  | stop =>
    obtain ⟨⟨hs, -⟩, heq⟩ := Option.ite_none_right_eq_some.mp h
    cases heq
    exact .stop hs
  | shutdown =>
    obtain ⟨hs, heq⟩ := Option.ite_none_right_eq_some.mp h
    cases heq
    apply Move.shutdown _ hs
    intro n hn hl
    exact List.mem_filter.mpr ⟨hn, decide_eq_true hl⟩
  | lock =>
    obtain ⟨hs, heq⟩ := Option.ite_none_right_eq_some.mp h
    cases heq
    exact .lock hs
  | closeNext =>
    simp only [step] at h
    split at h
    · rename_i fd fds hs
      cases h
      exact .closeNext fd fds hs
    · cases h
  | unlock =>
    obtain ⟨hs, heq⟩ := Option.ite_none_right_eq_some.mp h
    cases heq
    exact .unlock hs
  | join =>
    simp only [step] at h
    split at h
    · rename_i hs
      obtain ⟨ha, heq⟩ := Option.ite_none_right_eq_some.mp h
      cases heq
      exact .joinAcceptor hs ha
    · rename_i hs
      obtain ⟨hh, heq⟩ := Option.ite_none_right_eq_some.mp h
      cases heq
      exact .joinHandlers hs hh
    · cases h

end DcBench.ServerSockets

import DcBench.ServerSystem
import DcBench.CloseOnce
import DcBench.Lib.Ranking

namespace DcBench.ServerShutdown

open DcBench.Lib DcBench.Message DcBench.ExactTransfer DcBench.ServerSystem

/-- How many more system calls and tests a handler can make before it leaves its
loop, when `running_` is false. -/
def budget : TcpServer.Phase → Nat
  | .left => 0
  | .loop | .headerFailed => 1
  | .sendPayload hdr n => hdr.payloadSize.toNat - n + 1
  | .sendHeader hdr n => headerSize - n + hdr.payloadSize.toNat + 1
  | .recvPayload hdr n => hdr.payloadSize.toNat - n + headerSize + hdr.payloadSize.toNat + 1
  | .recvHeader n => headerSize - n + headerSize + 2 * maxPayloadSize + 1

theorem budget_onRequest (h : TcpServer.Handler) (hdr : MessageHeader) :
    budget (h.onRequest hdr).phase = headerSize + hdr.payloadSize.toNat + 1 := rfl

theorem budget_onHeader (h : TcpServer.Handler) :
    budget h.onHeader.phase ≤ headerSize + 2 * maxPayloadSize + 1 := by
  rw [TcpServer.Handler.onHeader]
  dsimp only
  split
  · exact Nat.zero_le _
  · split
    · change _ - 0 + headerSize + _ + 1 ≤ _
      omega
    · rw [budget_onRequest]
      omega

theorem budget_step {h h' : TcpServer.Handler} {ev : TcpServer.Event} (hev : ev ≠ .running true)
    (hs : TcpServer.step h ev = some h') : budget h'.phase < budget h.phase := by
  cases ev with
  | running value =>
    cases value with
    | true => exact absurd rfl hev
    | false =>
      cases hp : h.phase <;> simp only [TcpServer.step, hp, Option.some.injEq, reduceCtorEq] at hs
      all_goals
        subst hs
        exact Nat.zero_lt_one
  | recv r =>
    cases hp : h.phase with
    | recvHeader n =>
      simp only [TcpServer.step, hp, Option.ite_none_right_eq_some, Option.some.injEq] at hs
      obtain ⟨hfits, rfl⟩ := hs
      cases r with
      | eof | error => simp [TcpServer.Handler.recvHeader, recvExact, budget, headerSize]
      | data bs =>
        simp only [RecvResult.fits, Bool.and_eq_true, decide_eq_true_eq] at hfits
        by_cases hlt : n + bs.length < headerSize
        · simp only [TcpServer.Handler.recvHeader, recvExact, hlt, if_true, budget]
          omega
        · simp only [TcpServer.Handler.recvHeader, recvExact, hlt, if_false]
          refine (budget_onHeader _).trans_lt ?_
          simp only [budget]
          omega
    | recvPayload hdr n =>
      simp only [TcpServer.step, hp, Option.ite_none_right_eq_some, Option.some.injEq] at hs
      obtain ⟨hfits, rfl⟩ := hs
      cases r with
      | eof | error => simp [TcpServer.Handler.recvPayload, recvExact, budget, headerSize]
      | data bs =>
        simp only [RecvResult.fits, Bool.and_eq_true, decide_eq_true_eq] at hfits
        by_cases hlt : n + bs.length < hdr.payloadSize.toNat
        · simp only [TcpServer.Handler.recvPayload, recvExact, hlt, if_true, budget]
          omega
        · simp only [TcpServer.Handler.recvPayload, recvExact, hlt, if_false]
          rw [budget_onRequest]
          simp only [budget]
          omega
    | loop | headerFailed | sendHeader hdr n | sendPayload hdr n | left => simp [TcpServer.step, hp] at hs
  | send r =>
    cases hp : h.phase with
    | sendHeader hdr n =>
      simp only [TcpServer.step, hp, Option.ite_none_right_eq_some, Option.some.injEq] at hs
      obtain ⟨hfits, rfl⟩ := hs
      cases r with
      | error => simp [TcpServer.Handler.sendHeader, sendExact, budget]
      | sent k =>
        simp only [SendResult.fits, Bool.and_eq_true, decide_eq_true_eq] at hfits
        by_cases hlt : n + k < headerSize
        · simp only [TcpServer.Handler.sendHeader, sendExact, hlt, if_true, budget]
          omega
        · simp only [TcpServer.Handler.sendHeader, sendExact, hlt, if_false]
          split
          · simp only [budget]
            omega
          · simp only [budget]
            omega
    | sendPayload hdr n =>
      simp only [TcpServer.step, hp, Option.ite_none_right_eq_some, Option.some.injEq] at hs
      obtain ⟨hfits, rfl⟩ := hs
      cases r with
      | error => simp [TcpServer.Handler.sendPayload, sendExact, budget]
      | sent k =>
        simp only [SendResult.fits, Bool.and_eq_true, decide_eq_true_eq] at hfits
        by_cases hlt : n + k < hdr.payloadSize.toNat
        · simp only [TcpServer.Handler.sendPayload, sendExact, hlt, if_true, budget]
          omega
        · simp only [TcpServer.Handler.sendPayload, sendExact, hlt, if_false, budget]
          omega
    | loop | headerFailed | recvHeader n | recvPayload hdr n | left => simp [TcpServer.step, hp] at hs

theorem step_left {h : TcpServer.Handler} (hp : h.phase = .left) (ev : TcpServer.Event) : TcpServer.step h ev = none := by
  cases ev <;> simp [TcpServer.step, hp]

/-- The handler waits until its peer reads. -/
def sending : TcpServer.Phase → Bool
  | .sendHeader _ _ | .sendPayload _ _ => true
  | _ => false

/-- The handler's next call or test, if it is not in `::send`, returns by
itself: `accept_loop` gives every socket a receive timeout. -/
theorem step_isSome {h : TcpServer.Handler} (hp : h.phase ≠ .left) :
    ∃ ev, reads false ev = true ∧ (TcpServer.step h ev).isSome = true ∧
      ∀ r, ev = .send r → r = .error ∧ sending h.phase = true := by
  cases hph : h.phase with
  | left => exact absurd hph hp
  | loop | headerFailed =>
    exact ⟨.running false, rfl, by simp [TcpServer.step, hph], fun r hr => (by cases hr)⟩
  | recvHeader n =>
    exact ⟨.recv .error, rfl, by simp [TcpServer.step, hph, RecvResult.fits], fun r hr => (by cases hr)⟩
  | recvPayload hdr n =>
    exact ⟨.recv .error, rfl, by simp [TcpServer.step, hph, RecvResult.fits], fun r hr => (by cases hr)⟩
  | sendHeader hdr n | sendPayload hdr n =>
    exact ⟨.send .error, rfl, by simp [TcpServer.step, hph, SendResult.fits],
      fun r hr => ⟨(TcpServer.Event.send.inj hr).symm, rfl⟩⟩

/-- The handler is not on its way to a reply: it is about to test `running_`, or
through with its loop. -/
def quiet : TcpServer.Phase → Bool
  | .loop | .headerFailed | .left => true
  | _ => false

theorem quiet_step {h h' : TcpServer.Handler} {ev : TcpServer.Event} (hq : quiet h.phase = true)
    (hev : ev ≠ .running true) (hs : TcpServer.step h ev = some h') : quiet h'.phase = true := by
  cases ev with
  | recv r | send r => cases hp : h.phase <;> simp_all [TcpServer.step, quiet]
  | running value =>
    cases value with
    | true => exact absurd rfl hev
    | false =>
      cases hp : h.phase <;> simp only [TcpServer.step, hp, Option.some.injEq, reduceCtorEq] at hs
      all_goals
        subst hs
        rfl

/-- What holds of the server at all times. -/
structure Inv (s : ServerSystem.State) : Prop where
  running : s.sockets.running = true ↔ s.sockets.stopper = .outside
  listening : s.sockets.listenFd.isSome = true → s.sockets.stopper = .outside ∨ s.sockets.stopper = .shutdown
  fresh : ∀ j, s.sockets.handlers.length ≤ j → (s.handlers j).phase = .loop
  left : ∀ j h, s.sockets.handlers[j]? = some h → h.phase ≠ .loop → (s.handlers j).phase = .left
  joined : CloseOnce.Joined s.sockets

theorem inv_start (listenFd : Nat) (opened : List Nat) (stack : Nat → Fin headerSize → UInt8) :
    Inv (ServerSystem.start listenFd opened stack) where
  running := iff_of_true rfl rfl
  listening _ := .inl rfl
  fresh _ _ := rfl
  left j h hj _ := by simp [ServerSystem.start, ServerSockets.start] at hj
  joined := (CloseOnce.inv_start listenFd opened).joined

theorem Inv.setPhase {s : ServerSystem.State} (h : Inv s) {sockets : ServerSockets.State} {j : Nat}
    {hd : ServerSockets.Handler} {phase : ServerSockets.Phase}
    (hleft : (s.handlers j).phase = .left)
    (hhandlers : sockets.handlers = s.sockets.handlers.set j { hd with phase := phase })
    (hrun : sockets.running = s.sockets.running) (hstop : sockets.stopper = s.sockets.stopper)
    (hlisten : sockets.listenFd = s.sockets.listenFd) (hjoined : CloseOnce.Joined sockets) : Inv { s with sockets := sockets } where
  running := by
    rw [hrun, hstop]
    exact h.running
  listening := by
    rw [hlisten, hstop]
    exact h.listening
  fresh k hk := by
    rw [hhandlers, List.length_set] at hk
    exact h.fresh k hk
  left k hd' hk hp := by
    rw [hhandlers, List.getElem?_set] at hk
    split at hk
    · obtain rfl : j = k := ‹_›
      exact hleft
    · exact h.left k hd' hk hp
  joined := hjoined

theorem inv_socket {s : ServerSystem.State} (h : Inv s) {ev : ServerSockets.Event} {t : ServerSockets.State}
    (hallowed : s.admits ev = true) (hs : ServerSockets.step s.sockets ev = some t) : Inv { s with sockets := t } := by
  have hmove := ServerSockets.move_of_step hs
  have hjoined := CloseOnce.joined_move h.joined hmove
  cases hmove with
  | test a hs ha => exact ⟨h.running, h.listening, h.fresh, h.left, hjoined⟩
  | acceptFails hs => exact ⟨h.running, h.listening, h.fresh, h.left, hjoined⟩
  | accept fd hs hl hf => exact ⟨h.running, h.listening, h.fresh, h.left, hjoined⟩
  | register fd hs hk => exact ⟨h.running, h.listening, h.fresh, h.left, hjoined⟩
  | stop hst => exact ⟨by simp, fun _ => .inr rfl, h.fresh, h.left, hjoined⟩
  | shutdown opened hst ho =>
    refine ⟨h.running.trans ?_, fun hl => absurd hl Bool.false_ne_true, h.fresh, h.left, hjoined⟩
    simp [hst]
  | lock hst | closeNext fd fds hst | unlock hst | joinAcceptor hst ha | joinHandlers hst hh =>
    refine ⟨h.running.trans ?_, fun hl => absurd (h.listening hl) ?_, h.fresh, h.left, hjoined⟩
    · simp [hst]
    · simp [hst]
  | spawn fd hs =>
    refine ⟨h.running, h.listening, ?_, ?_, hjoined⟩
    · intro j hj
      rw [List.length_append] at hj
      exact h.fresh j (by omega)
    · intro j hd hj hp
      rw [List.getElem?_append] at hj
      split at hj
      · exact h.left j hd hj hp
      · cases hk : j - s.sockets.handlers.length with
        | zero =>
          rw [hk, List.getElem?_cons_zero, Option.some.injEq] at hj
          exact absurd (by rw [← hj]) hp
        | succ k => simp [hk] at hj
  | leave j hd hj hp => exact h.setPhase (of_decide_eq_true hallowed) rfl rfl rfl rfl hjoined
  | close j hd hj hp => exact h.setPhase (h.left j hd hj (by simp [hp])) rfl rfl rfl rfl hjoined
  | erase j hd hj hp hk => exact h.setPhase (h.left j hd hj (by simp [hp])) rfl rfl rfl rfl hjoined

theorem inv_step (s : ServerSystem.State) (e : ServerSystem.Event) (t : ServerSystem.State) (h : Inv s)
    (hs : ServerSystem.step s e = some t) : Inv t := by
  cases e with
  | socket ev =>
    simp only [ServerSystem.step, Option.ite_none_right_eq_some] at hs
    obtain ⟨hallowed, hs⟩ := hs
    obtain ⟨u, hu, rfl⟩ := Option.map_eq_some_iff.mp hs
    exact inv_socket h hallowed hu
  | handler j ev =>
    simp only [ServerSystem.step, Option.ite_none_right_eq_some] at hs
    obtain ⟨⟨hj, -⟩, hs⟩ := hs
    obtain ⟨u, hu, rfl⟩ := Option.map_eq_some_iff.mp hs
    refine ⟨h.running, h.listening, ?_, ?_, h.joined⟩
    · intro k hk
      have hne : k ≠ j := fun he => by
        subst he
        exact absurd hj (Nat.not_lt.mpr hk)
      simp only [Function.update_of_ne hne]
      exact h.fresh k hk
    · intro k hd hk hp
      by_cases hkj : k = j
      · subst hkj
        have hleft : (load s.requestCount s.byteCount (s.handlers k)).phase = .left := h.left k hd hk hp
        rw [step_left hleft] at hu
        cases hu
      · simp only [Function.update_of_ne hkj]
        exact h.left k hd hk hp

def acceptorRank : ServerSockets.Acceptor → Nat
  | .exited => 0
  | .test | .failed => 1
  | .spawn _ => 6
  | .register _ => 8
  | .accept => 9

def phaseRank (h : ServerSockets.Handler) : Nat :=
  match h.phase with
  | .exited => 0
  | .erase => 1
  | .close => 2
  | .loop => 3

/-- `n` is the number of descriptors in `client_fds_`. -/
def stopperRank (n : Nat) : ServerSockets.Stopper → Nat
  | .outside | .returned => 0
  | .joinHandlers => 1
  | .joinAcceptor => 2
  | .closing fds => 3 + fds.length
  | .lock => 4 + n
  | .shutdown => 5 + n

/-- How many more steps all threads together can make once `stop` is on its way:
those of `accept_loop`, of `stop`, and of each handler in its loop and behind it. -/
def rank (s : ServerSystem.State) : Nat :=
  acceptorRank s.sockets.acceptor + stopperRank s.sockets.clientFds.length s.sockets.stopper +
    (s.sockets.handlers.map phaseRank).sum +
    ∑ j ∈ Finset.range s.sockets.handlers.length, budget (s.handlers j).phase

theorem rank_setPhase {s : ServerSystem.State} {sockets : ServerSockets.State} {j : Nat} {hd : ServerSockets.Handler}
    {phase : ServerSockets.Phase} (hj : s.sockets.handlers[j]? = some hd)
    (hhandlers : sockets.handlers = s.sockets.handlers.set j { hd with phase := phase })
    (hacc : sockets.acceptor = s.sockets.acceptor) (hstop : sockets.stopper = s.sockets.stopper)
    (hfds : sockets.clientFds.length ≤ s.sockets.clientFds.length)
    (hlt : phaseRank { hd with phase := phase } < phaseRank hd) : rank { s with sockets := sockets } < rank s := by
  have hsum := Partition.sum_map_set phaseRank { hd with phase := phase } hj
  have hstopper : stopperRank sockets.clientFds.length s.sockets.stopper ≤
      stopperRank s.sockets.clientFds.length s.sockets.stopper := by
    cases s.sockets.stopper <;> simp only [stopperRank] <;> omega
  simp only [rank, hhandlers, hacc, hstop, List.length_set]
  omega

theorem rank_socket {s : ServerSystem.State} (h : Inv s) (hstop : s.sockets.stopper ≠ .outside)
    {ev : ServerSockets.Event} {t : ServerSockets.State} (hs : ServerSockets.step s.sockets ev = some t) :
    rank { s with sockets := t } < rank s := by
  have hrun : s.sockets.running = false := by
    rw [Bool.eq_false_iff, Ne, h.running]
    exact hstop
  cases ServerSockets.move_of_step hs with
  | test a ha ha' =>
    have hexit : a = .exited := by
      obtain ha | ha := ha <;> simp only [ServerSockets.step, ha, hrun, Option.some.injEq] at hs <;>
        exact (congrArg ServerSockets.State.acceptor hs).symm
    subst hexit
    have hpos : acceptorRank .exited < acceptorRank s.sockets.acceptor := by
      obtain ha | ha := ha <;> rw [ha] <;> exact Nat.zero_lt_one
    simp only [rank]
    omega
  | acceptFails ha =>
    simp only [rank, ha, acceptorRank]
    omega
  | accept fd ha hl hf =>
    simp only [rank, ha, acceptorRank]
    omega
  | register fd ha hk =>
    have hfds : stopperRank (s.sockets.clientFds ++ [fd]).length s.sockets.stopper ≤
        stopperRank s.sockets.clientFds.length s.sockets.stopper + 1 := by
      rw [List.length_append, List.length_singleton]
      cases s.sockets.stopper <;> simp only [stopperRank] <;> omega
    simp only [rank, ha, acceptorRank]
    omega
  | spawn fd ha =>
    have hfresh := h.fresh s.sockets.handlers.length (Nat.le_refl _)
    simp only [rank, ha, acceptorRank, List.map_append, List.map_cons, List.map_nil, List.sum_append, List.sum_cons,
      List.sum_nil, List.length_append, List.length_singleton, Finset.sum_range_succ, hfresh, budget, phaseRank]
    omega
  | leave j hd hj hp => exact rank_setPhase hj rfl rfl rfl (Nat.le_refl _) (by simp [phaseRank, hp])
  | close j hd hj hp => exact rank_setPhase hj rfl rfl rfl (Nat.le_refl _) (by simp [phaseRank, hp])
  | erase j hd hj hp hk =>
    exact rank_setPhase hj rfl rfl rfl (List.length_filter_le _ _) (by simp [phaseRank, hp])
  | stop hst => exact absurd hst hstop
  | shutdown opened hst ho =>
    simp only [rank, hst, stopperRank]
    omega
  | lock hst =>
    simp only [rank, hst, stopperRank]
    omega
  | closeNext fd fds hst =>
    simp only [rank, hst, stopperRank, ServerSockets.State.close, List.length_cons]
    omega
  | unlock hst =>
    simp only [rank, hst, stopperRank, List.length_nil]
    omega
  | joinAcceptor hst ha =>
    simp only [rank, hst, stopperRank]
    omega
  | joinHandlers hst hh =>
    simp only [rank, hst, stopperRank]
    omega

theorem stopper_step {s t : ServerSystem.State} {e : ServerSystem.Event} (hstop : s.sockets.stopper ≠ .outside)
    (hs : ServerSystem.step s e = some t) : t.sockets.stopper ≠ .outside := by
  cases e with
  | handler j ev =>
    simp only [ServerSystem.step, Option.ite_none_right_eq_some] at hs
    obtain ⟨u, -, rfl⟩ := Option.map_eq_some_iff.mp hs.2
    exact hstop
  | socket ev =>
    simp only [ServerSystem.step, Option.ite_none_right_eq_some] at hs
    obtain ⟨u, hu, rfl⟩ := Option.map_eq_some_iff.mp hs.2
    cases ServerSockets.move_of_step hu with
    | test | acceptFails | accept | register | spawn | leave | close | erase => exact hstop
    | stop | shutdown | lock | closeNext | unlock | joinAcceptor | joinHandlers => simp

theorem rank_step {s t : ServerSystem.State} {e : ServerSystem.Event} (h : Inv s)
    (hstop : s.sockets.stopper ≠ .outside) (hs : ServerSystem.step s e = some t) : rank t < rank s := by
  cases e with
  | socket ev =>
    simp only [ServerSystem.step, Option.ite_none_right_eq_some] at hs
    obtain ⟨u, hu, rfl⟩ := Option.map_eq_some_iff.mp hs.2
    exact rank_socket h hstop hu
  | handler j ev =>
    simp only [ServerSystem.step, Option.ite_none_right_eq_some] at hs
    obtain ⟨⟨hj, hread⟩, hs⟩ := hs
    obtain ⟨u, hu, rfl⟩ := Option.map_eq_some_iff.mp hs
    have hev : ev ≠ .running true := by
      rintro rfl
      exact hstop (h.running.mp (of_decide_eq_true hread).symm)
    have hlt := budget_step hev hu
    change budget u.phase < budget (s.handlers j).phase at hlt
    have hsum := Partition.sum_update_add (fun _ (h : TcpServer.Handler) => budget h.phase) s.handlers u
      (Finset.mem_range.mpr hj)
    simp only [rank]
    omega

theorem socket_isSome {s : ServerSystem.State} {ev : ServerSockets.Event} (hallowed : s.admits ev = true)
    (h : (ServerSockets.step s.sockets ev).isSome = true) : (ServerSystem.step s (.socket ev)).isSome = true := by
  rw [ServerSystem.step, if_pos hallowed, Option.isSome_map]
  exact h

/-- `stop` has closed the socket, which it shuts down first. -/
def Closed (s : ServerSystem.State) (j : Nat) : Prop :=
  ∀ hd, s.sockets.handlers[j]? = some hd → hd.fd ∉ s.sockets.opened

/-- The call or test returns whatever the peers do: `::recv` has a timeout,
`::accept` fails when the listener has been shut down, and `::send` fails on a
socket that has been. -/
def Returns (s : ServerSystem.State) : ServerSystem.Event → Prop
  | .socket (.accept result) => result = none ∧ s.sockets.listenFd = none
  | .socket _ => True
  | .handler j (.send result) => result = .error ∧ Closed s j
  | .handler _ _ => True

/-- A handler waits in `::send` on a socket that nobody has closed. -/
def Blocked (s : ServerSystem.State) (j : Nat) : Prop :=
  ∃ hd, s.sockets.handlers[j]? = some hd ∧ hd.phase = .loop ∧ sending (s.handlers j).phase = true ∧
    hd.fd ∈ s.sockets.opened

theorem handler_goes_on {s : ServerSystem.State} (h : Inv s) (hstop : s.sockets.stopper ≠ .outside)
    (hlock : s.sockets.locked = false) {j : Nat} {hd : ServerSockets.Handler} (hj : s.sockets.handlers[j]? = some hd)
    (hp : hd.phase ≠ .exited) (hblocked : ¬ Blocked s j) :
    ∃ e, Returns s e ∧ (ServerSystem.step s e).isSome = true := by
  cases hph : hd.phase with
  | exited => exact absurd hph hp
  | close =>
    exact ⟨.socket (.close j), trivial,
      socket_isSome rfl (by simp [ServerSockets.step, hj, hph, ServerSockets.handlerStep])⟩
  | erase =>
    exact ⟨.socket (.erase j), trivial,
      socket_isSome rfl (by simp [ServerSockets.step, hj, hph, ServerSockets.handlerStep, hlock])⟩
  | loop =>
    by_cases hleft : (s.handlers j).phase = .left
    · exact ⟨.socket (.leave j), trivial, socket_isSome (decide_eq_true hleft)
        (by simp [ServerSockets.step, hj, hph, ServerSockets.handlerStep])⟩
    · have hload : (load s.requestCount s.byteCount (s.handlers j)).phase ≠ .left := hleft
      obtain ⟨ev, hread, hsome, hsend⟩ := step_isSome hload
      have hrun : s.sockets.running = false := by
        rw [Bool.eq_false_iff, Ne, h.running]
        exact hstop
      have hlt : j < s.sockets.handlers.length := (List.getElem?_eq_some_iff.mp hj).1
      refine ⟨.handler j ev, ?_, ?_⟩
      · cases ev with
        | running value | recv r => exact trivial
        | send r =>
          obtain ⟨hr, hsending⟩ := hsend r rfl
          refine ⟨hr, ?_⟩
          intro hd' hj' hopen
          rw [hj] at hj'
          cases hj'
          exact hblocked ⟨hd, hj, hph, hsending, hopen⟩
      · rw [ServerSystem.step, if_pos ⟨hlt, by rw [hrun]; exact hread⟩, Option.isSome_map]
        exact hsome

theorem goes_on {s : ServerSystem.State} (h : Inv s) (hstop : s.sockets.stopper ≠ .outside)
    (hret : s.sockets.stopper ≠ .returned) (hblocked : s.sockets.stopper = .joinHandlers → ∀ j, ¬ Blocked s j) :
    ∃ e, Returns s e ∧ (ServerSystem.step s e).isSome = true := by
  cases hst : s.sockets.stopper with
  | outside => exact absurd hst hstop
  | returned => exact absurd hst hret
  | shutdown => exact ⟨.socket .shutdown, trivial, socket_isSome rfl (by simp [ServerSockets.step, hst])⟩
  | lock => exact ⟨.socket .lock, trivial, socket_isSome rfl (by simp [ServerSockets.step, hst])⟩
  | closing fds =>
    cases fds with
    | nil => exact ⟨.socket .unlock, trivial, socket_isSome rfl (by simp [ServerSockets.step, hst])⟩
    | cons fd fds => exact ⟨.socket .closeNext, trivial, socket_isSome rfl (by simp [ServerSockets.step, hst])⟩
  | joinAcceptor =>
    have hlock : s.sockets.locked = false := by simp [ServerSockets.State.locked, hst]
    cases hacc : s.sockets.acceptor with
    | exited => exact ⟨.socket .join, trivial, socket_isSome rfl (by simp [ServerSockets.step, hst, hacc])⟩
    | test | failed => exact ⟨.socket .test, trivial, socket_isSome rfl (by simp [ServerSockets.step, hacc])⟩
    | accept =>
      have hlisten : s.sockets.listenFd = none := by
        rw [← Option.not_isSome_iff_eq_none]
        intro hl
        simpa [hst] using h.listening hl
      exact ⟨.socket (.accept none), ⟨rfl, hlisten⟩, socket_isSome rfl (by simp [ServerSockets.step, hacc])⟩
    | register fd => exact ⟨.socket .register, trivial, socket_isSome rfl (by simp [ServerSockets.step, hacc, hlock])⟩
    | spawn fd => exact ⟨.socket .spawn, trivial, socket_isSome rfl (by simp [ServerSockets.step, hacc])⟩
  | joinHandlers =>
    have hlock : s.sockets.locked = false := by simp [ServerSockets.State.locked, hst]
    by_cases hall : ∀ hd ∈ s.sockets.handlers, hd.phase = .exited
    · refine ⟨.socket .join, trivial, socket_isSome rfl ?_⟩
      simp only [ServerSockets.step, hst]
      rw [if_pos hall]
      rfl
    · push Not at hall
      obtain ⟨hd, hmem, hp⟩ := hall
      obtain ⟨j, hj⟩ := List.mem_iff_getElem?.mp hmem
      exact handler_goes_on h hstop hlock hj hp (hblocked hst j)

/-- When `stop` takes the lock, the connection of every handler in its loop is
in `client_fds_`. -/
def Registered (s : ServerSystem.State) (e : ServerSystem.Event) : Prop :=
  e = .socket .lock → ∀ hd ∈ s.sockets.handlers, hd.phase = .loop → hd.fd ∈ s.sockets.clientFds

/-- `stop` has taken the list of descriptors. -/
def locking : ServerSockets.Stopper → Bool
  | .outside | .shutdown | .lock => false
  | .closing _ | .joinAcceptor | .joinHandlers | .returned => true

/-- From then on, a handler on its way to a reply has a closed socket or one that
`stop` is about to close. -/
def Shut (s : ServerSystem.State) : Prop :=
  locking s.sockets.stopper = true → ∀ j hd, s.sockets.handlers[j]? = some hd → hd.phase = .loop →
    quiet (s.handlers j).phase = false → hd.fd ∈ s.sockets.opened → hd.fd ∈ CloseOnce.rest s.sockets.stopper

theorem Shut.setPhase {s : ServerSystem.State} (h : Shut s) {sockets : ServerSockets.State} {j : Nat}
    {hd : ServerSockets.Handler} {phase : ServerSockets.Phase} (hp : phase ≠ .loop)
    (hhandlers : sockets.handlers = s.sockets.handlers.set j { hd with phase := phase })
    (hstop : sockets.stopper = s.sockets.stopper) (hopened : ∀ n ∈ sockets.opened, n ∈ s.sockets.opened) :
    Shut { s with sockets := sockets } := by
  intro hlock k hd' hk hp' hq hopen
  rw [hstop] at hlock ⊢
  rw [hhandlers, List.getElem?_set] at hk
  split at hk
  · split at hk
    · cases hk
      exact absurd hp' hp
    · cases hk
  · exact h hlock k hd' hk hp' hq (hopened _ hopen)

theorem shut_socket {s : ServerSystem.State} (hI : Inv s) (h : Shut s) {ev : ServerSockets.Event}
    (hreg : Registered s (.socket ev)) {t : ServerSockets.State} (hs : ServerSockets.step s.sockets ev = some t) :
    Shut { s with sockets := t } := by
  cases ServerSockets.move_of_step hs with
  | test | acceptFails | register => exact h
  | accept fd ha hl hf =>
    intro hlock
    obtain hst | hst := hI.listening hl <;> simp [hst, locking] at hlock
  | spawn fd ha =>
    intro hlock j hd hj hp hq hopen
    rw [List.getElem?_append] at hj
    split at hj
    · exact h hlock j hd hj hp hq hopen
    · -- a handler that starts now finds `running_` false
      rw [hI.fresh j (by omega)] at hq
      cases hq
  | leave j hd hj hp | erase j hd hj hp => exact h.setPhase (by simp) rfl rfl (fun n hn => hn)
  | close j hd hj hp => exact h.setPhase (by simp) rfl rfl (fun n hn => (List.mem_filter.mp hn).1)
  | stop hst | shutdown opened hst ho => exact fun hlock => absurd hlock Bool.false_ne_true
  | lock hst =>
    intro _ j hd hj hp _ _
    exact hreg rfl hd (List.mem_of_getElem? hj) hp
  | closeNext fd fds hst =>
    intro _ j hd hj hp hq hopen
    obtain ⟨hopen, hne⟩ := List.mem_filter.mp hopen
    have hmem := h (by rw [hst]; rfl) j hd hj hp hq hopen
    rw [hst] at hmem
    exact (List.mem_cons.mp hmem).resolve_left (of_decide_eq_true hne)
  | unlock hst | joinAcceptor hst ha | joinHandlers hst hh =>
    intro _ j hd hj hp hq hopen
    have hmem := h (by rw [hst]; rfl) j hd hj hp hq hopen
    rwa [hst] at hmem

theorem shut_step (s : ServerSystem.State) (e : ServerSystem.Event) (t : ServerSystem.State) (h : Inv s ∧ Shut s)
    (hreg : Registered s e) (hs : ServerSystem.step s e = some t) : Inv t ∧ Shut t := by
  obtain ⟨hI, h⟩ := h
  refine ⟨inv_step s e t hI hs, ?_⟩
  cases e with
  | socket ev =>
    simp only [ServerSystem.step, Option.ite_none_right_eq_some] at hs
    obtain ⟨u, hu, rfl⟩ := Option.map_eq_some_iff.mp hs.2
    exact shut_socket hI h hreg hu
  | handler j ev =>
    simp only [ServerSystem.step, Option.ite_none_right_eq_some] at hs
    obtain ⟨⟨-, hread⟩, hs⟩ := hs
    obtain ⟨u, hu, rfl⟩ := Option.map_eq_some_iff.mp hs
    intro hlock k hd hk hp hq hopen
    apply h hlock k hd hk hp ?_ hopen
    by_cases hkj : k = j
    · subst hkj
      simp only [Function.update_self] at hq
      rw [Bool.eq_false_iff] at hq ⊢
      intro hquiet
      apply hq (quiet_step (h := load s.requestCount s.byteCount (s.handlers k)) hquiet ?_ hu)
      rintro rfl
      have hout := hI.running.mp (of_decide_eq_true hread).symm
      have hlock' : locking s.sockets.stopper = true := hlock
      rw [hout] at hlock'
      cases hlock'
    · simpa only [Function.update_of_ne hkj] using hq

theorem Shut.not_blocked {s : ServerSystem.State} (h : Shut s) (hst : s.sockets.stopper = .joinHandlers) (j : Nat) :
    ¬ Blocked s j := by
  rintro ⟨hd, hj, hp, hsending, hopen⟩
  have hq : quiet (s.handlers j).phase = false := by
    cases hph : (s.handlers j).phase <;> simp_all [sending, quiet]
  have hmem := h (by rw [hst]; rfl) j hd hj hp hq hopen
  rw [hst] at hmem
  cases hmem

theorem at_rest {s : ServerSystem.State} (h : Inv s) (hret : s.sockets.stopper = .returned) (e : ServerSystem.Event) :
    ServerSystem.step s e = none := by
  have hacc := h.joined.acceptor (.inr hret)
  have hexit := h.joined.handlers hret
  have hhandler {j : Nat} {hd : ServerSockets.Handler} (hj : s.sockets.handlers[j]? = some hd) : hd.phase = .exited :=
    hexit hd (List.mem_of_getElem? hj)
  cases hs : ServerSystem.step s e with
  | none => rfl
  | some t =>
    cases e with
    | handler j ev =>
      simp only [ServerSystem.step, Option.ite_none_right_eq_some] at hs
      obtain ⟨⟨hj, -⟩, hs⟩ := hs
      obtain ⟨u, hu, -⟩ := Option.map_eq_some_iff.mp hs
      obtain ⟨hd, hget⟩ : ∃ hd, s.sockets.handlers[j]? = some hd := ⟨_, List.getElem?_eq_getElem hj⟩
      have hleft : (load s.requestCount s.byteCount (s.handlers j)).phase = .left :=
        h.left j hd hget (by simp [hhandler hget])
      rw [step_left hleft] at hu
      cases hu
    | socket ev =>
      simp only [ServerSystem.step, Option.ite_none_right_eq_some] at hs
      obtain ⟨u, hu, -⟩ := Option.map_eq_some_iff.mp hs.2
      cases ServerSockets.move_of_step hu with
      | test a ha => simp [hacc] at ha
      | acceptFails ha | accept fd ha | register fd ha | spawn fd ha => simp [hacc] at ha
      | leave j hd hj hp | close j hd hj hp | erase j hd hj hp => simp [hhandler hj] at hp
      | stop hst | shutdown opened hst | lock hst | closeNext fd fds hst | unlock hst | joinAcceptor hst
      | joinHandlers hst => simp [hret] at hst

/-- `TcpServer::stop` returns. Once it has been called, all threads together make
at most `rank` further steps, whatever the peers send and whichever calls fail.
As long as it has not returned, some thread has a call or test that returns by
itself, unless `stop` waits for a handler that is blocked in `::send` on an open
socket; there is none if all connections were registered when `stop` took the
lock. When `stop` has returned no thread is left, so that the two counters are
final. -/
theorem stop_returns (listenFd : Nat) (opened : List Nat) (stack : Nat → Fin headerSize → UInt8)
    {es fs : List ServerSystem.Event} {s t : ServerSystem.State}
    (hr : Transition.run ServerSystem.step (ServerSystem.start listenFd opened stack) es = some s)
    (hstop : s.sockets.stopper ≠ .outside) (hf : Transition.run ServerSystem.step s fs = some t) :
    fs.length + rank t ≤ rank s ∧
    (t.sockets.stopper ≠ .returned → (∃ e, Returns t e ∧ (ServerSystem.step t e).isSome = true) ∨
      t.sockets.stopper = .joinHandlers ∧ ∃ j, Blocked t j) ∧
    (Transition.Along ServerSystem.step Registered (ServerSystem.start listenFd opened stack) (es ++ fs) →
      t.sockets.stopper ≠ .returned → ∃ e, Returns t e ∧ (ServerSystem.step t e).isSome = true) ∧
    (t.sockets.stopper = .returned → ∀ e, ServerSystem.step t e = none) := by
  have hinv := Transition.invariant inv_step (inv_start listenFd opened stack) hr
  have hboth : ∀ s e t, (Inv s ∧ s.sockets.stopper ≠ .outside) → ServerSystem.step s e = some t →
      Inv t ∧ t.sockets.stopper ≠ .outside :=
    fun s e t h hs => ⟨inv_step s e t h.1 hs, stopper_step h.2 hs⟩
  obtain ⟨hI, hout⟩ := Transition.invariant hboth ⟨hinv, hstop⟩ hf
  refine ⟨?_, ?_, ?_, fun hret e => at_rest hI hret e⟩
  · exact Ranking.length_add_rank_le hboth (fun s e t h hs => rank_step h.1 h.2 hs) ⟨hinv, hstop⟩ hf
  · intro hret
    by_cases hblocked : t.sockets.stopper = .joinHandlers ∧ ∃ j, Blocked t j
    · exact .inr hblocked
    · apply Or.inl
      apply goes_on hI hout hret
      intro hst j hj
      exact hblocked ⟨hst, j, hj⟩
  · intro hreg hret
    have hshut : Shut (ServerSystem.start listenFd opened stack) := fun hlock => absurd hlock Bool.false_ne_true
    have hrun := Transition.run_append_some.mpr ⟨s, hr, hf⟩
    obtain ⟨-, ht⟩ := Transition.invariant_along shut_step ⟨inv_start listenFd opened stack, hshut⟩ hrun hreg
    exact goes_on hI hout hret ht.not_blocked

/-- The number 4 is given to a second connection before the first handler erases
it from the list. Then `stop` does not close it and waits for its `::send`. -/
example : (Transition.run ServerSystem.step (ServerSystem.start 3 [0, 1, 2] (fun _ _ => 0))
      [.socket .test, .socket (.accept (some 4)), .socket .register, .socket .spawn, .handler 0 (.running true),
        .handler 0 (.recv (.data (List.replicate headerSize 255))), .socket (.leave 0), .socket (.close 0),
        .socket .test, .socket (.accept (some 4)), .socket .register, .socket .spawn, .socket (.erase 0),
        .handler 1 (.running true), .handler 1 (.recv (.data (List.replicate headerSize 0))), .socket .stop,
        .socket .shutdown, .socket .lock, .socket .unlock, .socket .test, .socket .join]).map (fun t =>
      (t.sockets.stopper, t.sockets.handlers[1]?, sending (t.handlers 1).phase, t.sockets.opened)) =
      some (.joinHandlers, some ⟨4, .loop⟩, true, [4, 0, 1, 2]) := by decide +kernel

/-- `stop` is called while the handler sends a reply. -/
def stopped : List ServerSystem.Event :=
  [.socket .test, .socket (.accept (some 4)), .socket .register, .socket .spawn, .handler 0 (.running true),
    .handler 0 (.recv (.data (List.replicate headerSize 0))), .socket .stop, .socket .shutdown]

def joining : List ServerSystem.Event :=
  [.socket .lock, .socket .closeNext, .socket .unlock, .socket .test, .socket .join]

def ended : List ServerSystem.Event :=
  [.handler 0 (.send .error), .socket (.leave 0), .socket (.close 0), .socket (.erase 0), .socket .join]

theorem registered_of_ne {es : List ServerSystem.Event} (h : ServerSystem.Event.socket .lock ∉ es)
    (s : ServerSystem.State) : Transition.Along ServerSystem.step Registered s es := by
  apply Transition.along_of_forall
  rintro e he s rfl
  exact absurd he h

theorem stopped_returns : ∃ s t u,
    Transition.run ServerSystem.step (ServerSystem.start 3 [0, 1, 2] (fun _ _ => 0)) stopped = some s ∧
    Transition.run ServerSystem.step s joining = some t ∧ Transition.run ServerSystem.step t ended = some u ∧
    t.sockets.stopper = .joinHandlers ∧ sending (t.handlers 0).phase = true ∧ u.sockets.stopper = .returned ∧
    (∀ fs v, Transition.run ServerSystem.step s fs = some v → fs.length + rank v ≤ rank s) ∧
    (∃ e, Returns t e ∧ (ServerSystem.step t e).isSome = true) ∧ ∀ e, ServerSystem.step u e = none := by
  have hrun : (Transition.run ServerSystem.step (ServerSystem.start 3 [0, 1, 2] (fun _ _ => 0)) stopped).map
      (fun s => (s.sockets.stopper, s.sockets.handlers, s.sockets.clientFds)) = some (.lock, [⟨4, .loop⟩], [4]) := by
    decide +kernel
  have hjoin : (Transition.run ServerSystem.step (ServerSystem.start 3 [0, 1, 2] (fun _ _ => 0)) (stopped ++ joining)).map
      (fun t => (t.sockets.stopper, sending (t.handlers 0).phase)) = some (.joinHandlers, true) := by decide +kernel
  have hend : (Transition.run ServerSystem.step (ServerSystem.start 3 [0, 1, 2] (fun _ _ => 0))
      (stopped ++ (joining ++ ended))).map (fun u => u.sockets.stopper) = some .returned := by decide +kernel
  obtain ⟨s, hs, hlock⟩ := Option.map_eq_some_iff.mp hrun
  obtain ⟨t, ht, hsending⟩ := Option.map_eq_some_iff.mp hjoin
  obtain ⟨u, hu, hreturned⟩ := Option.map_eq_some_iff.mp hend
  simp only [Transition.run_append, hs, Option.bind_some] at ht
  simp only [Transition.run_append, hs, ht, Option.bind_some] at hu
  simp only [Prod.mk.injEq] at hlock hsending
  obtain ⟨hstop, hhandlers, hfds⟩ := hlock
  have hout : s.sockets.stopper ≠ .outside := by rw [hstop]; simp
  have hreg : Registered s (.socket .lock) := by
    intro _ hd hmem _
    rw [hhandlers, List.mem_singleton] at hmem
    rw [hmem, hfds]
    exact List.mem_singleton_self 4
  have halong : Transition.Along ServerSystem.step Registered (ServerSystem.start 3 [0, 1, 2] (fun _ _ => 0))
      (stopped ++ joining) :=
    (Transition.along_append hs).mpr ⟨registered_of_ne (by simp [stopped]) _, hreg,
      fun v _ => registered_of_ne (by simp) v⟩
  refine ⟨s, t, u, hs, ht, hu, hsending.1, hsending.2, hreturned,
    fun fs v hf => (stop_returns 3 [0, 1, 2] _ hs hout hf).1,
    (stop_returns 3 [0, 1, 2] _ hs hout ht).2.2.1 halong (by rw [hsending.1]; simp), ?_⟩
  have hsu := Transition.run_append_some.mpr ⟨t, ht, hu⟩
  exact (stop_returns 3 [0, 1, 2] _ hs hout hsu).2.2.2 hreturned

end DcBench.ServerShutdown

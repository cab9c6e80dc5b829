import DcBench.ServerSockets
import Mathlib.Data.List.Perm.Basic

namespace DcBench.CloseOnce

open DcBench.Lib DcBench.ServerSockets

variable {s t : State} {e : Event} {n : Nat} {ops : List Op}

/-- Every descriptor that `accept` returned has been passed to `::close` once:
on each number the two calls alternate, and the last one is `::close`. -/
def ClosedOnce (ops : List Op) : Prop :=
  ∀ n, ∃ k, ops.filter (fun op => op.fd = n) = (List.replicate k [.accepted n, .closed n]).flatten

def accepted? : Op → Option Nat
  | .accepted fd => some fd
  | .closed _ => none

def closed? : Op → Option Nat
  | .accepted _ => none
  | .closed fd => some fd

def accepts (ops : List Op) : Nat := (ops.filterMap accepted?).length

def closes (ops : List Op) : Nat := (ops.filterMap closed?).length

/-- The descriptor that `accept_loop` has not yet handed to a thread. -/
def held : Acceptor → List Nat
  | .register fd => [fd]
  | .spawn fd => [fd]
  | _ => []

/-- The handler has not yet closed its descriptor. -/
def live (h : Handler) : Bool := h.phase = .loop || h.phase = .close

/-- What `stop` has still to close. -/
def rest : Stopper → List Nat
  | .closing fds => fds
  | _ => []

/-- The calls of `::close` made, and those the threads are bound to make. -/
def due (s : State) : Nat :=
  closes s.ops + (held s.acceptor).length + s.handlers.countP live + (rest s.stopper).length

@[simp] theorem accepts_accepted (fd : Nat) : accepts (ops ++ [.accepted fd]) = accepts ops + 1 := by
  simp [accepts, accepted?]

@[simp] theorem accepts_closed (fd : Nat) : accepts (ops ++ [.closed fd]) = accepts ops := by
  simp [accepts, accepted?]

@[simp] theorem closes_accepted (fd : Nat) : closes (ops ++ [.accepted fd]) = closes ops := by
  simp [closes, closed?]

@[simp] theorem closes_closed (fd : Nat) : closes (ops ++ [.closed fd]) = closes ops + 1 := by
  simp [closes, closed?]

theorem countP_setPhase {p : Handler → Bool} {j : Nat} {h : Handler} (hj : s.handlers[j]? = some h) (phase : Phase) :
    (s.setPhase j h phase).handlers.countP p + (if p h then 1 else 0) =
      s.handlers.countP p + if p { h with phase := phase } then 1 else 0 := by
  obtain ⟨hlt, hget⟩ := List.getElem?_eq_some_iff.mp hj
  have hpos : p h = true → 0 < s.handlers.countP p := by
    intro hp
    exact List.countP_pos_iff.mpr ⟨h, hget ▸ List.getElem_mem hlt, hp⟩
  rw [State.setPhase, List.countP_set hlt, hget]
  split
  · have := hpos ‹_›
    omega
  · omega

theorem live_setPhase (h : Handler) (phase : Phase) :
    live { h with phase := phase } = (decide (phase = .loop) || decide (phase = .close)) := rfl

theorem held_test {a : Acceptor} (hs : s.acceptor = .test ∨ s.acceptor = .failed)
    (ha : a = .accept ∨ a = .test ∨ a = .exited) : held a = held s.acceptor := by
  obtain hs | hs := hs <;> obtain rfl | rfl | rfl := ha <;> simp [hs, held]

/-- The books: a step that is not the locking of `fds_mu_` by `stop` adds as
many closes, made or due, as it adds accepts. -/
theorem due_move (hm : Move s e t) :
    due t + accepts s.ops = due s + accepts t.ops + if e = .lock then s.clientFds.length else 0 := by
  cases hm with
  | test a hs ha =>
    simp only [due, held_test hs ha, reduceCtorEq, if_false, Nat.add_zero]
  | acceptFails hs => simp only [due, hs, held, reduceCtorEq, if_false, Nat.add_zero]
  | accept fd hs hl hf =>
    simp only [due, hs, held, accepts_accepted, closes_accepted, List.length_cons, List.length_nil, reduceCtorEq,
      if_false]
    omega
  | register fd hs hk => simp only [due, hs, held, reduceCtorEq, if_false, Nat.add_zero]
  | spawn fd hs =>
    simp only [due, hs, held, List.countP_append, List.countP_singleton, live, List.length_cons, List.length_nil,
      decide_true, Bool.true_or, if_true, reduceCtorEq, if_false]
    omega
  | leave j h hj hp =>
    have hcount := countP_setPhase (p := live) hj .close
    rw [live_setPhase, live, hp] at hcount
    change _ + _ = _ + _ at hcount
    have hc : (s.setPhase j h .close).handlers.countP live = s.handlers.countP live := Nat.add_right_cancel hcount
    rw [due, due, hc]
    rfl
  | close j h hj hp =>
    have hcount := countP_setPhase (p := live) hj .erase
    rw [live_setPhase, live, hp] at hcount
    have hc : (s.setPhase j h .erase).handlers.countP live + 1 = s.handlers.countP live := hcount
    have ho : closes ((s.close h.fd).setPhase j h .erase).ops = closes s.ops + 1 := closes_closed h.fd
    have ha : accepts ((s.close h.fd).setPhase j h .erase).ops = accepts s.ops := accepts_closed h.fd
    rw [due, due, ho, ha, ← hc]
    simp only [reduceCtorEq, if_false, Nat.add_zero]
    change closes s.ops + 1 + (held s.acceptor).length + (s.setPhase j h .erase).handlers.countP live +
      (rest s.stopper).length + _ = _
    omega
  | erase j h hj hp hk =>
    have hcount := countP_setPhase (p := live) hj .exited
    rw [live_setPhase, live, hp] at hcount
    have hc : (s.setPhase j h .exited).handlers.countP live = s.handlers.countP live := hcount
    rw [due, due, ← hc]
    rfl
  | stop hs => simp only [due, hs, rest, reduceCtorEq, if_false, Nat.add_zero]
  | shutdown opened hs ho => simp only [due, hs, rest, reduceCtorEq, if_false, Nat.add_zero]
  | lock hs =>
    simp only [due, hs, rest, List.length_nil, if_true]
    omega
  | closeNext fd fds hs =>
    simp only [due, hs, rest, State.close, accepts_closed, closes_closed, List.length_cons, reduceCtorEq, if_false]
    omega
  | unlock hs => simp only [due, hs, rest, reduceCtorEq, if_false, Nat.add_zero]
  | joinAcceptor hs ha => simp only [due, hs, rest, reduceCtorEq, if_false, Nat.add_zero]
  | joinHandlers hs hh => simp only [due, hs, rest, reduceCtorEq, if_false, Nat.add_zero]

def Paired (n : Nat) (ops : List Op) : Prop :=
  ∃ k, ops.filter (fun op => op.fd = n) = (List.replicate k [.accepted n, .closed n]).flatten

def HalfPaired (n : Nat) (ops : List Op) : Prop :=
  ∃ k, ops.filter (fun op => op.fd = n) = (List.replicate k [.accepted n, .closed n]).flatten ++ [.accepted n]

theorem filter_other (ops : List Op) (op : Op) (h : op.fd ≠ n) :
    (ops ++ [op]).filter (fun op => op.fd = n) = ops.filter (fun op => op.fd = n) := by
  simp [h]

theorem filter_same (ops : List Op) (op : Op) (h : op.fd = n) :
    (ops ++ [op]).filter (fun op => op.fd = n) = ops.filter (fun op => op.fd = n) ++ [op] := by
  simp [h]

theorem Paired.accepted (h : Paired n ops) : HalfPaired n (ops ++ [.accepted n]) := by
  obtain ⟨k, hk⟩ := h
  exact ⟨k, by rw [filter_same (n := n) ops (.accepted n) rfl, hk]⟩

theorem HalfPaired.closed (h : HalfPaired n ops) : Paired n (ops ++ [.closed n]) := by
  obtain ⟨k, hk⟩ := h
  refine ⟨k + 1, ?_⟩
  rw [filter_same (n := n) ops (.closed n) rfl, hk, List.replicate_succ', List.flatten_concat, List.append_assoc]
  rfl

def owns (n : Nat) (h : Handler) : Bool := live h && decide (h.fd = n)

/-- The threads that are still to close the number `n`. -/
def holders (s : State) (n : Nat) : Nat := (held s.acceptor).count n + s.handlers.countP (owns n)

/-- `stop` has nothing to close, and each number belongs to at most one thread.
That thread has it from the last `accept` that returned it. -/
structure Sole (s : State) : Prop where
  stopper : rest s.stopper = []
  fds : ∀ n, holders s n = 0 ∧ Paired n s.ops ∨
    holders s n = 1 ∧ (s.listenFd.isSome → n ∈ s.opened) ∧ HalfPaired n s.ops

theorem Sole.frame (h : Sole s) (hstop : rest t.stopper = []) (hops : t.ops = s.ops)
    (hh : ∀ n, holders t n = holders s n)
    (ho : t.listenFd.isSome → s.listenFd.isSome ∧ ∀ n ∈ s.opened, n ∈ t.opened) : Sole t := by
  refine ⟨hstop, ?_⟩
  intro n
  rw [hops, hh n]
  obtain hn | ⟨hn, hopen, hhalf⟩ := h.fds n
  · exact .inl hn
  · refine .inr ⟨hn, ?_, hhalf⟩
    intro hl
    obtain ⟨hl', hsub⟩ := ho hl
    exact hsub n (hopen hl')

theorem Sole.keep (h : Sole s) (hstop : rest t.stopper = []) (hops : t.ops = s.ops)
    (hh : ∀ n, holders t n = holders s n) (hl : t.listenFd = s.listenFd) (ho : t.opened = s.opened) : Sole t := by
  apply h.frame hstop hops hh
  rw [hl, ho]
  exact fun hl => ⟨hl, fun n hn => hn⟩

theorem Sole.accept (h : Sole s) {fd : Nat} (hs : s.acceptor = .accept) (hl : s.listenFd.isSome)
    (hf : fd ∉ s.opened) :
    Sole { s with acceptor := .register fd, opened := fd :: s.opened, ops := s.ops ++ [.accepted fd] } := by
  refine ⟨h.stopper, ?_⟩
  intro n
  by_cases hn : fd = n
  · subst hn
    have hfree : holders s fd = 0 ∧ Paired fd s.ops := by
      obtain hfree | ⟨-, hopen, -⟩ := h.fds fd
      · exact hfree
      · exact absurd (hopen hl) hf
    refine .inr ⟨?_, fun _ => List.mem_cons_self, hfree.2.accepted⟩
    have hzero := hfree.1
    simp only [holders, hs, held, List.count_nil, Nat.zero_add] at hzero
    simp only [holders, held, List.count_singleton_self, hzero]
  · have hh : holders { s with acceptor := .register fd, opened := fd :: s.opened, ops := s.ops ++ [.accepted fd] } n =
        holders s n := by
      simp only [holders, hs, held, List.count_nil, List.count_singleton, beq_iff_eq, hn, if_false]
    have hops := filter_other s.ops (.accepted fd) hn
    rw [hh, Paired, HalfPaired, hops]
    obtain hfree | ⟨hone, hopen, hhalf⟩ := h.fds n
    · exact .inl hfree
    · exact .inr ⟨hone, fun hl => List.mem_cons_of_mem _ (hopen hl), hhalf⟩

theorem owns_setPhase (n : Nat) (h : Handler) (phase : Phase) :
    owns n { h with phase := phase } = ((decide (phase = .loop) || decide (phase = .close)) && decide (h.fd = n)) := rfl

theorem Sole.close (h : Sole s) {j : Nat} {hd : Handler} (hj : s.handlers[j]? = some hd) (hp : hd.phase = .close) :
    Sole ((s.close hd.fd).setPhase j hd .erase) := by
  refine ⟨h.stopper, ?_⟩
  intro n
  have hcount := countP_setPhase (p := owns n) hj .erase
  rw [owns_setPhase, owns, live, hp] at hcount
  have hh : holders ((s.close hd.fd).setPhase j hd .erase) n =
      (held s.acceptor).count n + (s.setPhase j hd .erase).handlers.countP (owns n) := rfl
  by_cases hn : hd.fd = n
  · subst hn
    simp only [decide_true, Bool.and_true] at hcount
    have hc : (s.setPhase j hd .erase).handlers.countP (owns hd.fd) + 1 = s.handlers.countP (owns hd.fd) := hcount
    obtain ⟨hzero, -⟩ | ⟨hone, -, hhalf⟩ := h.fds hd.fd
    · rw [holders] at hzero
      omega
    · rw [holders] at hone
      exact .inl ⟨by rw [hh]; omega, hhalf.closed⟩
  · simp only [hn, decide_false, Bool.and_false] at hcount
    have hc : (s.setPhase j hd .erase).handlers.countP (owns n) = s.handlers.countP (owns n) := hcount
    have hops := filter_other s.ops (.closed hd.fd) hn
    rw [hh, hc]
    change holders s n = 0 ∧ Paired n (s.ops ++ [.closed hd.fd]) ∨ _
    rw [Paired, HalfPaired, State.setPhase, State.close, hops]
    obtain hfree | ⟨hone, hopen, hhalf⟩ := h.fds n
    · exact .inl hfree
    · refine .inr ⟨hone, ?_, hhalf⟩
      intro hl
      exact List.mem_filter.mpr ⟨hopen hl, decide_eq_true (Ne.symm hn)⟩

theorem holders_setPhase {j : Nat} {hd : Handler} {phase : Phase} (hj : s.handlers[j]? = some hd)
    (hl : live { hd with phase := phase } = live hd) (n : Nat) : holders (s.setPhase j hd phase) n = holders s n := by
  have hcount := countP_setPhase (p := owns n) hj phase
  have howns : owns n { hd with phase := phase } = owns n hd := by rw [owns, owns, hl]
  rw [howns] at hcount
  rw [holders, holders, Nat.add_right_cancel hcount]
  rfl

/-- When `stop` takes the lock, no descriptor is registered. -/
def NothingToClose (s : State) (e : Event) : Prop := e = .lock → s.clientFds = []

theorem sole_move (h : Sole s) (hg : NothingToClose s e) (hm : Move s e t) : Sole t := by
  have hstop := h.stopper
  cases hm with
  | test a hs ha => exact h.keep hstop rfl (fun n => by rw [holders, held_test hs ha]; rfl) rfl rfl
  | acceptFails hs =>
    exact h.keep hstop rfl (fun n => by rw [holders, holders, hs]; rfl) rfl rfl
  | accept fd hs hl hf => exact h.accept hs hl hf
  | register fd hs hk =>
    exact h.keep hstop rfl (fun n => by rw [holders, holders, hs]; rfl) rfl rfl
  | spawn fd hs =>
    refine h.keep hstop rfl ?_ rfl rfl
    intro n
    simp only [holders, hs, held, List.count_nil, List.countP_append, List.countP_singleton, owns, live, decide_true,
      Bool.true_or, Bool.true_and, decide_eq_true_eq, List.count_singleton, beq_iff_eq]
    omega
  | leave j hd hj hp =>
    refine h.keep hstop rfl ?_ rfl rfl
    apply holders_setPhase hj
    rw [live_setPhase, live, hp]
    rfl
  | close j hd hj hp => exact h.close hj hp
  | erase j hd hj hp hk =>
    refine h.keep hstop rfl ?_ rfl rfl
    apply holders_setPhase hj
    rw [live_setPhase, live, hp]
    rfl
  | stop hs => exact h.keep rfl rfl (fun _ => rfl) rfl rfl
  | shutdown opened hs ho => exact h.frame rfl rfl (fun _ => rfl) nofun
  | lock hs => exact h.keep (hg rfl) rfl (fun _ => rfl) rfl rfl
  | closeNext fd fds hs =>
    rw [hs] at hstop
    cases hstop
  | unlock hs => exact h.keep rfl rfl (fun _ => rfl) rfl rfl
  | joinAcceptor hs ha => exact h.keep rfl rfl (fun _ => rfl) rfl rfl
  | joinHandlers hs hh => exact h.keep rfl rfl (fun _ => rfl) rfl rfl

/-- What `stop` has joined stays ended. -/
structure Joined (s : State) : Prop where
  acceptor : s.stopper = .joinHandlers ∨ s.stopper = .returned → s.acceptor = .exited
  handlers : s.stopper = .returned → ∀ h ∈ s.handlers, h.phase = .exited

theorem Joined.setPhase (h : Joined s) {j : Nat} {hd : Handler} (phase : Phase) (hj : s.handlers[j]? = some hd)
    (hp : hd.phase ≠ .exited) : Joined (s.setPhase j hd phase) := by
  refine ⟨h.acceptor, ?_⟩
  intro hs
  exact absurd (h.handlers hs hd (List.mem_of_getElem? hj)) hp

theorem joined_move (h : Joined s) (hm : Move s e t) : Joined t := by
  have hacc (hs : s.acceptor ≠ .exited) : s.stopper ≠ .joinHandlers ∧ s.stopper ≠ .returned :=
    ⟨fun hj => hs (h.acceptor (.inl hj)), fun hr => hs (h.acceptor (.inr hr))⟩
  have hrun (hs : s.acceptor ≠ .exited) {t : State} (ht : t.stopper = s.stopper) : Joined t := by
    obtain ⟨hj, hr⟩ := hacc hs
    rw [← ht] at hj hr
    exact ⟨fun ho => (ho.elim hj hr).elim, fun ho => (hr ho).elim⟩
  cases hm with
  | test a hs ha =>
    refine hrun ?_ rfl
    obtain hs | hs := hs <;> rw [hs] <;> exact nofun
  | acceptFails hs => exact hrun (hs ▸ nofun) rfl
  | accept fd hs hl hf => exact hrun (hs ▸ nofun) rfl
  | register fd hs hk => exact hrun (hs ▸ nofun) rfl
  | spawn fd hs => exact hrun (hs ▸ nofun) rfl
  | leave j hd hj hp => exact h.setPhase _ hj (hp ▸ nofun)
  | close j hd hj hp =>
    have hclose : Joined (s.close hd.fd) := ⟨h.acceptor, h.handlers⟩
    exact hclose.setPhase _ hj (hp ▸ nofun)
  | erase j hd hj hp hk =>
    obtain ⟨ha, hh⟩ := h.setPhase .exited hj (hp ▸ nofun)
    exact ⟨ha, hh⟩
  | stop hs | shutdown opened hs ho | lock hs | closeNext fd fds hs | unlock hs => exact ⟨nofun, nofun⟩
  | joinAcceptor hs ha => exact ⟨fun _ => ha, nofun⟩
  | joinHandlers hs hh => exact ⟨fun _ => h.acceptor (.inl hs), fun _ => hh⟩

def Balanced (s : State) : Prop := due s = accepts s.ops

/-- The invariant of all runs. A state whose books balance has each number in
one hand. -/
structure Inv (s : State) : Prop where
  joined : Joined s
  covered : accepts s.ops ≤ due s
  sole : Balanced s → Sole s

theorem balanced_step (h : Inv s) (hs : step s e = some t) : Balanced t ↔ Balanced s ∧ NothingToClose s e := by
  have hdue := due_move (move_of_step hs)
  have hcov := h.covered
  rw [Balanced, Balanced, NothingToClose]
  by_cases he : e = .lock
  · rw [if_pos he] at hdue
    rw [← List.length_eq_zero_iff]
    constructor
    · intro hb
      exact ⟨by omega, fun _ => by omega⟩
    · rintro ⟨hb, hg⟩
      have := hg he
      omega
  · rw [if_neg he] at hdue
    rw [and_iff_left (fun hl => absurd hl he)]
    omega

theorem inv_step (h : Inv s) (hs : step s e = some t) : Inv t := by
  have hm := move_of_step hs
  have hdue := due_move hm
  have hcov := h.covered
  refine ⟨joined_move h.joined hm, by omega, ?_⟩
  intro hb
  obtain ⟨hb, hg⟩ := (balanced_step h hs).mp hb
  exact sole_move (h.sole hb) hg hm

theorem inv_start (listenFd : Nat) (opened : List Nat) : Inv (start listenFd opened) := by
  refine ⟨⟨?_, nofun⟩, Nat.zero_le _, ?_⟩
  · rintro (hs | hs) <;> cases hs
  · intro _
    exact ⟨rfl, fun n => .inl ⟨rfl, 0, rfl⟩⟩

theorem count_accepted (n : Nat) (ops : List Op) : (ops.filterMap accepted?).count n = ops.count (.accepted n) := by
  rw [List.count, List.countP_filterMap, List.count]
  apply List.countP_congr
  intro op _
  cases op <;> simp [accepted?]

theorem count_closed (n : Nat) (ops : List Op) : (ops.filterMap closed?).count n = ops.count (.closed n) := by
  rw [List.count, List.countP_filterMap, List.count]
  apply List.countP_congr
  intro op _
  cases op <;> simp [closed?]

theorem count_pairs (n k : Nat) :
    (List.replicate k [Op.accepted n, .closed n]).flatten.count (.accepted n) = k ∧
      (List.replicate k [Op.accepted n, .closed n]).flatten.count (.closed n) = k := by
  induction k with
  | zero => exact ⟨rfl, rfl⟩
  | succ k ih =>
    rw [List.replicate_succ, List.flatten_cons, List.count_append, List.count_append, ih.1, ih.2]
    constructor
    · simp [Nat.add_comm]
    · simp [Nat.add_comm]

theorem accepts_eq_closes (h : ClosedOnce ops) : accepts ops = closes ops := by
  apply List.Perm.length_eq
  rw [List.perm_iff_count]
  intro n
  obtain ⟨k, hk⟩ := h n
  obtain ⟨ha, hc⟩ := count_pairs n k
  rw [← hk, List.count_filter (by simp [Op.fd])] at ha hc
  rw [count_accepted, count_closed, ha, hc]

/-- Once `stop` has returned, every connection has been closed exactly once if
and only if none was registered when `stop` took the lock. -/
theorem closedOnce_iff_nothingToClose (listenFd : Nat) (opened : List Nat) (es : List Event) (s : State)
    (hr : Transition.run step (start listenFd opened) es = some s) (hret : s.stopper = .returned) :
    ClosedOnce s.ops ↔ Transition.Along step NothingToClose (start listenFd opened) es := by
  have hinv : Inv s := Transition.invariant (fun _ _ _ h hs => inv_step h hs) (inv_start listenFd opened) hr
  have hacc : s.acceptor = .exited := hinv.joined.acceptor (.inr hret)
  have hexit := hinv.joined.handlers hret
  have hlive (p : Handler → Bool) (hp : ∀ h, p h = true → live h = true) : s.handlers.countP p = 0 := by
    rw [List.countP_eq_zero]
    intro h hh hph
    have := hp h hph
    simp [live, hexit h hh] at this
  have hdue : due s = closes s.ops := by
    rw [due, hacc, hret, hlive live (fun _ => id)]
    rfl
  have hbal : Balanced s ↔ Transition.Along step NothingToClose (start listenFd opened) es :=
    Transition.iff_along (I := Inv) (P := Balanced) (fun _ _ _ h hs => inv_step h hs)
      (fun _ _ _ h hs => balanced_step h hs) (inv_start listenFd opened) rfl hr
  rw [← hbal]
  constructor
  · intro h
    rw [Balanced, hdue, accepts_eq_closes h]
  · intro hb n
    obtain ⟨-, hpair⟩ | ⟨hone, -, -⟩ := (hinv.sole hb).fds n
    · exact hpair
    · have howns : s.handlers.countP (owns n) = 0 := hlive _ (fun h hh => (Bool.and_eq_true_iff.mp hh).1)
      rw [holders, hacc, howns] at hone
      cases hone

/-- The client goes away before `stop` is called. -/
def hungUp : List Event :=
  [.test, .accept (some 4), .register, .spawn, .leave 0, .close 0, .erase 0, .stop, .shutdown, .lock, .unlock, .test,
    .join, .join]

theorem hungUp_closedOnce : ∃ s, Transition.run step (start 3 []) hungUp = some s ∧ s.stopper = .returned ∧
    s.ops = [.accepted 4, .closed 4] ∧ ClosedOnce s.ops := by
  have hrun : (Transition.run step (start 3 []) hungUp).map (fun s => (s.stopper, s.ops)) =
      some (.returned, [.accepted 4, .closed 4]) := by decide +kernel
  obtain ⟨s, hs, heq⟩ := Option.map_eq_some_iff.mp hrun
  obtain ⟨hret, hops⟩ := Prod.mk.inj heq
  refine ⟨s, hs, hret, hops, (closedOnce_iff_nothingToClose 3 [] hungUp s hs hret).mpr ?_⟩
  simp [hungUp, Transition.Along, NothingToClose, step, start, handlerStep, State.setPhase, State.close, State.locked]

/-- The client is still connected when `stop` is called. -/
def connected : List Event :=
  [.test, .accept (some 4), .register, .spawn, .stop, .shutdown, .lock, .closeNext, .unlock, .leave 0, .close 0,
    .erase 0, .test, .join, .join]

/-- Both `stop` and the handler close the descriptor of a connection that is
open when `stop` is called. -/
theorem connected_not_closedOnce : ∃ s, Transition.run step (start 3 []) connected = some s ∧
    s.stopper = .returned ∧ s.ops = [.accepted 4, .closed 4, .closed 4] ∧ ¬ ClosedOnce s.ops := by
  have hrun : (Transition.run step (start 3 []) connected).map (fun s => (s.stopper, s.ops)) =
      some (.returned, [.accepted 4, .closed 4, .closed 4]) := by decide +kernel
  obtain ⟨s, hs, heq⟩ := Option.map_eq_some_iff.mp hrun
  obtain ⟨hret, hops⟩ := Prod.mk.inj heq
  refine ⟨s, hs, hret, hops, ?_⟩
  intro h
  have hcount := accepts_eq_closes h
  rw [hops] at hcount
  exact absurd hcount (by decide)

end DcBench.CloseOnce

import DcBench.ServerSockets

namespace DcBench.LiveRegistered

open DcBench.Lib DcBench.ServerSockets

variable {s t : State} {e : Event} {n : Nat}

def Live (h : Handler) : Prop := h.phase = .loop ∨ h.phase = .close

def Registered (s : State) : Prop := ∀ h ∈ s.handlers, Live h → h.fd ∈ s.clientFds

/-- The connection that `accept_loop` is about to start a handler for is in the
list. -/
def Handing (s : State) : Prop := ∀ fd, s.acceptor = .spawn fd → fd ∈ s.clientFds

/-- A handler that removes its number from the list has it alone: no other live
connection carries it, nor the one that is about to get its handler. -/
def Unshared (s : State) (e : Event) : Prop :=
  ∀ j h, e = .erase j → s.handlers[j]? = some h →
    (∀ h' ∈ s.handlers, Live h' → h'.fd ≠ h.fd) ∧ s.acceptor ≠ .spawn h.fd

theorem unshared_of_ne (he : ∀ j, e ≠ .erase j) : Unshared s e := fun j _ hj => absurd hj (he j)

theorem handing_of_ne (ha : ∀ fd, s.acceptor ≠ .spawn fd) : Handing s := fun fd hs => absurd hs (ha fd)

theorem registered_setPhase {j : Nat} {h : Handler} {phase : Phase} (hreg : Registered s)
    (hj : s.handlers[j]? = some h) (hl : Live { h with phase := phase } → Live h) :
    Registered (s.setPhase j h phase) := by
  intro h' hmem hlive
  obtain hmem | rfl := List.mem_or_eq_of_mem_set hmem
  · exact hreg h' hmem hlive
  · exact hreg h (List.mem_of_getElem? hj) (hl hlive)

theorem mem_setPhase {j : Nat} {h h' : Handler} {phase : Phase} (hj : s.handlers[j]? = some h) (hmem : h' ∈ s.handlers)
    (hne : h' ≠ h) : h' ∈ (s.setPhase j h phase).handlers := by
  obtain ⟨i, hi⟩ := List.mem_iff_getElem?.mp hmem
  have hij : j ≠ i := by
    rintro rfl
    rw [hj] at hi
    exact hne (Option.some.inj hi).symm
  apply List.mem_of_getElem? (i := i)
  rw [State.setPhase, List.getElem?_set_ne hij, hi]

theorem registered_erase {j : Nat} {h : Handler} (hreg : Registered s) (hj : s.handlers[j]? = some h)
    (hp : h.phase = .erase) :
    Registered { s.setPhase j h .exited with clientFds := s.clientFds.filter (fun n => n ≠ h.fd) } ↔
      ∀ h' ∈ s.handlers, Live h' → h'.fd ≠ h.fd := by
  constructor
  · intro ht h' hmem hlive
    have hne : h' ≠ h := by
      rintro rfl
      rw [Live, hp] at hlive
      obtain hlive | hlive := hlive <;> cases hlive
    have hfd := ht h' (mem_setPhase hj hmem hne) hlive
    exact of_decide_eq_true (List.mem_filter.mp hfd).2
  · intro hother h' hmem hlive
    obtain hmem | rfl := List.mem_or_eq_of_mem_set hmem
    · exact List.mem_filter.mpr ⟨hreg h' hmem hlive, decide_eq_true (hother h' hmem hlive)⟩
    · obtain hlive | hlive := hlive <;> cases hlive

theorem handing_erase {j : Nat} {h : Handler} :
    Handing { s.setPhase j h .exited with clientFds := s.clientFds.filter (fun n => n ≠ h.fd) } ↔
      Handing s ∧ s.acceptor ≠ .spawn h.fd := by
  constructor
  · intro ht
    refine ⟨fun fd hs => (List.mem_filter.mp (ht fd hs)).1, ?_⟩
    intro hs
    exact of_decide_eq_true (List.mem_filter.mp (ht h.fd hs)).2 rfl
  · rintro ⟨hs, hne⟩ fd ha
    refine List.mem_filter.mpr ⟨hs fd ha, decide_eq_true ?_⟩
    rintro rfl
    exact hne ha

theorem stopper_move (hout : s.stopper = .outside) (he : e ≠ .stop) (hm : Move s e t) : t.stopper = .outside := by
  cases hm with
  | test | acceptFails | accept | register | spawn | leave | close | erase => exact hout
  | stop hs => exact absurd rfl he
  | shutdown opened hs ho | lock hs | closeNext fd fds hs | unlock hs | joinAcceptor hs ha | joinHandlers hs hh =>
    rw [hout] at hs
    cases hs

/-- What a step before `stop` does to the registrations: only a removal can lose
one, and an unregistered connection stays so when it gets its handler. -/
theorem registered_move (hreg : Registered s) (hout : s.stopper = .outside) (he : e ≠ .stop) (hm : Move s e t) :
    Registered t ∧ Handing t ↔ Handing s ∧ Unshared s e := by
  cases hm with
  | test a hs ha =>
    refine iff_of_true ⟨hreg, handing_of_ne ?_⟩ ⟨handing_of_ne ?_, unshared_of_ne nofun⟩
    · obtain rfl | rfl | rfl := ha <;> exact nofun
    · obtain hs | hs := hs <;> rw [hs] <;> exact nofun
  | acceptFails hs =>
    refine iff_of_true ⟨hreg, handing_of_ne ?_⟩ ⟨handing_of_ne ?_, unshared_of_ne nofun⟩
    · exact nofun
    · rw [hs]
      exact nofun
  | accept fd hs hl hf =>
    refine iff_of_true ⟨hreg, handing_of_ne ?_⟩ ⟨handing_of_ne ?_, unshared_of_ne nofun⟩
    · exact nofun
    · rw [hs]
      exact nofun
  | register fd hs hk =>
    refine iff_of_true ⟨?_, ?_⟩ ⟨handing_of_ne (hs ▸ nofun), unshared_of_ne nofun⟩
    · intro h hmem hlive
      exact List.mem_append_left _ (hreg h hmem hlive)
    · rintro _ ⟨⟩
      exact List.mem_append_right _ List.mem_cons_self
  | spawn fd hs =>
    have hhand : Handing { s with acceptor := .test, handlers := s.handlers ++ [⟨fd, .loop⟩] } := handing_of_ne nofun
    rw [and_iff_left hhand, and_iff_left (unshared_of_ne (e := .spawn) nofun)]
    constructor
    · intro ht fd' hs'
      rw [hs] at hs'
      cases hs'
      exact ht ⟨fd, .loop⟩ (List.mem_append_right _ List.mem_cons_self) (.inl rfl)
    · intro hhand h hmem hlive
      obtain hmem | hmem := List.mem_append.mp hmem
      · exact hreg h hmem hlive
      · cases List.mem_singleton.mp hmem
        exact hhand fd hs
  | leave j h hj hp =>
    rw [and_iff_right (registered_setPhase hreg hj (fun _ => .inl hp)),
      and_iff_left (unshared_of_ne (e := .leave j) nofun)]
    rfl
  | close j h hj hp =>
    have ht : Registered ((s.close h.fd).setPhase j h .erase) :=
      registered_setPhase (s := s.close h.fd) hreg hj (fun _ => .inr hp)
    rw [and_iff_right ht, and_iff_left (unshared_of_ne (e := .close j) nofun)]
    rfl
  | erase j h hj hp hk =>
    rw [registered_erase hreg hj hp, handing_erase]
    constructor
    · rintro ⟨hother, hhand, hne⟩
      refine ⟨hhand, ?_⟩
      rintro _ h' ⟨⟩ hj'
      rw [hj] at hj'
      cases hj'
      exact ⟨hother, hne⟩
    · rintro ⟨hhand, hg⟩
      obtain ⟨hother, hne⟩ := hg j h rfl hj
      exact ⟨hother, hhand, hne⟩
  | stop hs => exact absurd rfl he
  | shutdown opened hs ho | lock hs | closeNext fd fds hs | unlock hs | joinAcceptor hs ha | joinHandlers hs hh =>
    rw [hout] at hs
    cases hs

/-- In every state the events pass through, the live connections are
registered. -/
def StaysRegistered (s : State) (es : List Event) : Prop :=
  ∀ fs t, fs <+: es → Transition.run step s fs = some t → Registered t

theorem staysRegistered_concat {u : State} {es : List Event} (hr : Transition.run step s es = some t)
    (hu : step t e = some u) : StaysRegistered s (es ++ [e]) ↔ StaysRegistered s es ∧ Registered u := by
  have hru : Transition.run step s (es ++ [e]) = some u := by
    rw [Transition.run_append_some]
    exact ⟨t, hr, by rw [Transition.run_cons, hu]; rfl⟩
  constructor
  · intro h
    exact ⟨fun fs v hp => h fs v (hp.trans (List.prefix_append es [e])), h _ u List.prefix_rfl hru⟩
  · rintro ⟨h, hreg⟩ fs v hp hv
    obtain rfl | hp := List.prefix_concat_iff.mp hp
    · rw [hru] at hv
      cases hv
      exact hreg
    · exact h fs v hp hv

/-- Before `stop`, the live connections stay registered exactly as long as no
handler removes a number that another connection has meanwhile been given. The
connection that has no handler yet counts with the live ones. -/
theorem staysRegistered_iff_unshared (listenFd : Nat) (opened : List Nat) (es : List Event) (t : State)
    (hr : Transition.run step (start listenFd opened) es = some t) (hstop : Event.stop ∉ es) :
    StaysRegistered (start listenFd opened) es ∧ Handing t ↔
      Transition.Along step Unshared (start listenFd opened) es := by
  suffices h : t.stopper = .outside ∧ (StaysRegistered (start listenFd opened) es ∧ Handing t ↔
      Transition.Along step Unshared (start listenFd opened) es) from h.2
  revert hstop
  refine Transition.run_induction (motive := fun es t => Event.stop ∉ es → t.stopper = .outside ∧
    (StaysRegistered (start listenFd opened) es ∧ Handing t ↔
      Transition.Along step Unshared (start listenFd opened) es)) ?_ ?_ hr
  · intro _
    refine ⟨rfl, iff_of_true ⟨?_, handing_of_ne nofun⟩ trivial⟩
    intro fs t hp ht
    rw [List.prefix_nil.mp hp] at ht
    cases ht
    exact nofun
  · intro es e t u hrun ih hstep hstop
    rw [List.mem_append, not_or, List.mem_singleton] at hstop
    obtain ⟨hout, ih⟩ := ih hstop.1
    have hnow (h : StaysRegistered (start listenFd opened) es) : Registered t := h es t List.prefix_rfl hrun
    have hmove (h : Registered t) := registered_move h hout (Ne.symm hstop.2) (move_of_step hstep)
    refine ⟨stopper_move hout (Ne.symm hstop.2) (move_of_step hstep), ?_⟩
    rw [Transition.along_concat e hrun, ← ih, staysRegistered_concat hrun hstep, and_assoc, and_assoc]
    exact and_congr_right (fun h => hmove (hnow h))

/-- The handler of the first connection is through before the next `accept`. -/
def inTurn : List Event :=
  [.test, .accept (some 4), .register, .spawn, .leave 0, .close 0, .erase 0, .test, .accept (some 4), .register, .spawn]

theorem inTurn_staysRegistered : ∃ t, Transition.run step (start 3 [0, 1, 2]) inTurn = some t ∧ Event.stop ∉ inTurn ∧
    t.handlers = [⟨4, .exited⟩, ⟨4, .loop⟩] ∧ StaysRegistered (start 3 [0, 1, 2]) inTurn := by
  have hrun : (Transition.run step (start 3 [0, 1, 2]) inTurn).map State.handlers =
      some [⟨4, .exited⟩, ⟨4, .loop⟩] := by decide +kernel
  obtain ⟨t, ht, hh⟩ := Option.map_eq_some_iff.mp hrun
  have hstop : Event.stop ∉ inTurn := by decide
  refine ⟨t, ht, hstop, hh, ((staysRegistered_iff_unshared 3 [0, 1, 2] inTurn t ht hstop).mpr ?_).1⟩
  simp [inTurn, Transition.Along, Unshared, Live, step, start, handlerStep, State.setPhase, State.close, State.locked]

/-- `accept` returns the lowest number that is not open. -/
def Lowest (s : State) (e : Event) : Prop := ∀ n, e = .accept (some n) → ∀ m < n, m ∈ s.opened

/-- The first handler has closed its descriptor, the number is given to a new
connection, and only then the first handler removes it from the list. -/
def reused : List Event :=
  [.test, .accept (some 4), .register, .spawn, .leave 0, .close 0, .test, .accept (some 4), .register, .spawn, .erase 0]

/-- The second connection is live, and the list is empty. -/
theorem reused_not_registered : ∃ t, Transition.run step (start 3 [0, 1, 2]) reused = some t ∧
    Transition.Along step Lowest (start 3 [0, 1, 2]) reused ∧ Event.stop ∉ reused ∧
    t.handlers = [⟨4, .exited⟩, ⟨4, .loop⟩] ∧ t.clientFds = [] ∧ ¬ Registered t := by
  have hrun : (Transition.run step (start 3 [0, 1, 2]) reused).map (fun t => (t.handlers, t.clientFds)) =
      some ([⟨4, .exited⟩, ⟨4, .loop⟩], []) := by decide +kernel
  obtain ⟨t, ht, heq⟩ := Option.map_eq_some_iff.mp hrun
  obtain ⟨hh, hfds⟩ := Prod.mk.inj heq
  refine ⟨t, ht, ?_, by decide, hh, hfds, ?_⟩
  · simp [reused, Transition.Along, Lowest, step, start, handlerStep, State.setPhase, State.close, State.locked]
    omega
  · intro hreg
    have hmem := hreg ⟨4, .loop⟩ (by simp [hh]) (.inl rfl)
    rw [hfds] at hmem
    cases hmem

end DcBench.LiveRegistered

import DcBench.OrchestrateMoves

namespace DcBench.ServerCleanup

open DcBench.Lib DcBench.Orchestrate DcBench.OrchestrateMoves

variable {config : ExperimentConfig} {s t u : State} {es : List Event} {e : Event}

/-- The outcome of a remote step made with `check=True` before the stop. -/
def start? : Event → Option Ssh
  | .startServer r => some r
  | .startClient r => some r
  | _ => none

/-- The server and every client could be started. -/
def StartsOk (es : List Event) : Prop := ∀ e ∈ es, ∀ r, start? e = some r → r = .ok

def Issued (es : List Event) : Prop := ∃ reached, .pkill reached ∈ es

def Reached (es : List Event) : Prop := ∀ reached, .pkill reached ∈ es → reached = true

def Exited (t : State) : Prop := t.call.map Call.over = some true

def pastStop : Phase → Bool
  | .makeOutputDir => true
  | .makeClientDir _ => true
  | .copyCsv _ => true
  | .copyServerLog => true
  | .returned => true
  | _ => false

theorem startsOk_concat : StartsOk (es ++ [e]) ↔ StartsOk es ∧ ∀ r, start? e = some r → r = .ok := by
  rw [StartsOk, List.forall_mem_append, List.forall_mem_singleton]
  rfl

theorem issued_concat : Issued (es ++ [e]) ↔ Issued es ∨ ∃ reached, e = .pkill reached := by
  simp only [Issued, List.mem_append, List.mem_singleton, exists_or]
  apply or_congr_right
  apply exists_congr
  intro reached
  exact eq_comm

/-- The stop command is behind exactly in the phases after it. An exception
comes from a failed start, or from a step after the stop. -/
structure Control (phase : Phase) (es : List Event) : Prop where
  startsOk : phase ≠ .raised → StartsOk es
  issued : phase ≠ .raised → (Issued es ↔ pastStop phase = true)
  raised : phase = .raised → (Issued es ↔ StartsOk es)

theorem startsOk_quiet (hs : start? e = none) : StartsOk (es ++ [e]) ↔ StartsOk es := by
  rw [startsOk_concat, hs]
  exact and_iff_left nofun

theorem issued_quiet (hp : ∀ reached, e ≠ .pkill reached) : Issued (es ++ [e]) ↔ Issued es := by
  rw [issued_concat]
  apply or_iff_left
  rintro ⟨reached, he⟩
  exact hp reached he

variable {phase phase' : Phase}

theorem Control.quiet (h : Control phase es) (hphase : phase ≠ .raised) (hs : start? e = none)
    (hp : ∀ reached, e ≠ .pkill reached) (hnext : phase' ≠ .raised) (hpast : pastStop phase' = pastStop phase) :
    Control phase' (es ++ [e]) := by
  refine ⟨?_, ?_, fun hr => absurd hr hnext⟩
  · intro _
    exact (startsOk_quiet hs).mpr (h.startsOk hphase)
  · intro _
    rw [issued_quiet hp, hpast]
    exact h.issued hphase

theorem Control.checked (h : Control phase es) (phase' : Phase) (ok : Bool) (hpast : pastStop phase = true) (hs : start? e = none)
    (hp : ∀ reached, e ≠ .pkill reached) (hnext : pastStop phase' = true) :
    Control (if ok then phase' else .raised) (es ++ [e]) := by
  have hphase : phase ≠ .raised := by
    rintro rfl
    cases hpast
  cases ok with
  | true =>
    refine h.quiet hphase hs hp ?_ (hnext.trans hpast.symm)
    rintro rfl
    cases hnext
  | false =>
    refine ⟨fun hr => absurd rfl hr, fun hr => absurd rfl hr, ?_⟩
    intro _
    rw [startsOk_quiet hs, issued_quiet hp]
    exact iff_of_true ((h.issued hphase).mpr hpast) (h.startsOk hphase)

theorem Control.start (h : Control phase es) (hphase : phase ≠ .raised) (hpast : pastStop phase = false) {r : Ssh}
    (hs : start? e = some r) (hnext : phase' ≠ .raised) (hnext' : pastStop phase' = false) :
    Control (if decide (r = .ok) then phase' else .raised) (es ++ [e]) := by
  have hp : ∀ reached, e ≠ .pkill reached := by
    rintro reached rfl
    cases hs
  have hissued : ¬ Issued (es ++ [e]) := by
    rw [issued_quiet hp, h.issued hphase, hpast]
    exact Bool.false_ne_true
  by_cases hr : r = .ok
  · subst hr
    refine ⟨?_, ?_, fun hr => absurd hr hnext⟩
    · intro _
      rw [startsOk_concat, hs]
      exact ⟨h.startsOk hphase, fun r hr => (Option.some.inj hr).symm⟩
    · intro _
      exact iff_of_false hissued (fun ht => Bool.false_ne_true (hnext'.symm.trans ht))
  · rw [decide_eq_false hr]
    refine ⟨fun hr => absurd rfl hr, fun hr => absurd rfl hr, ?_⟩
    intro _
    refine iff_of_false hissued ?_
    rw [startsOk_concat]
    rintro ⟨-, hok⟩
    exact hr (hok r hs)

theorem pastStop_copying (config : ExperimentConfig) (i : Nat) : pastStop (config.copying i) = true := by
  rw [ExperimentConfig.copying]
  split
  · rfl
  · rw [ExperimentConfig.finishing]
    split <;> rfl

theorem pastStop_polling (config : ExperimentConfig) (i : Nat) : pastStop (config.polling i) = false ∧ config.polling i ≠ .raised := by
  rw [ExperimentConfig.polling]
  split <;> exact ⟨rfl, nofun⟩

theorem pastStop_starting (config : ExperimentConfig) (i : Nat) : pastStop (config.starting i) = false ∧ config.starting i ≠ .raised := by
  rw [ExperimentConfig.starting]
  split
  · exact ⟨rfl, nofun⟩
  · exact pastStop_polling config 0

theorem control_advance {c : Call} (h : Control c.phase es) (hc : t.call = some c)
    (ha : Advance c t c.phase e u) : ∃ phase, u.call = some { c with phase := phase } ∧ Control phase (es ++ [e]) := by
  obtain ⟨n, config, phase⟩ := c
  cases ha with
  | startServer r => exact ⟨_, call_enter, h.start nofun rfl rfl nofun rfl⟩
  | detectIp =>
    obtain ⟨hpast, hne⟩ := pastStop_starting config 0
    exact ⟨_, call_enter, h.quiet nofun rfl nofun hne hpast⟩
  | startClient hn r =>
    obtain ⟨hpast, hne⟩ := pastStop_starting config _
    exact ⟨_, call_enter, h.start nofun rfl rfl hne hpast⟩
  | found hn hg => exact ⟨_, hc, h.quiet nofun rfl nofun nofun rfl⟩
  | finished hn reached hg => exact ⟨_, call_enter, h.quiet nofun rfl nofun nofun rfl⟩
  | catLog =>
    obtain ⟨hpast, hne⟩ := pastStop_polling config _
    exact ⟨_, call_enter, h.quiet nofun rfl nofun hne hpast⟩
  | pkill reached =>
    refine ⟨_, call_enter, ?_, ?_, nofun⟩
    · intro _
      exact (startsOk_quiet rfl).mpr (h.startsOk nofun)
    · intro _
      exact iff_of_true (issued_concat.mpr (.inr ⟨reached, rfl⟩)) rfl
  | outputDir ok => exact ⟨_, call_enter, h.checked _ ok rfl rfl nofun (pastStop_copying config 0)⟩
  | clientDir ok => exact ⟨_, call_enter, h.checked _ ok rfl rfl nofun rfl⟩
  | copied hn ho => exact ⟨_, call_enter, h.checked _ true rfl rfl nofun (pastStop_copying config _)⟩
  | truncated hn ho => exact ⟨_, call_enter, h.checked .returned false rfl rfl nofun rfl⟩
  | failed => exact ⟨_, call_enter, h.checked .returned false rfl rfl nofun rfl⟩
  | serverLog ok => exact ⟨_, call_enter, h.checked _ ok rfl rfl nofun rfl⟩

/-- The servers of a call: it has started at most one, and a stop command that
reaches the node ends it. -/
structure Own (config : ExperimentConfig) (n : Nat) (es : List Event) (t : State) : Prop where
  node : ∀ q ∈ t.servers, q.experiment = n → q = ⟨n, config.protocol, config.server⟩
  gone : Issued es → Reached es → ∀ q ∈ t.servers, q.experiment ≠ n

theorem Own.quiet {n : Nat} (h : Own config n es t) (hp : ∀ reached, e ≠ .pkill reached)
    (hservers : u.servers = t.servers) : Own config n (es ++ [e]) u := by
  refine ⟨by rw [hservers]; exact h.node, ?_⟩
  intro hissued hreached
  rw [hservers]
  exact h.gone ((issued_quiet hp).mp hissued) (fun reached hmem => hreached reached (List.mem_append_left _ hmem))

@[simp] theorem servers_enter {c : Call} : (t.enter c phase).servers = t.servers := rfl

@[simp] theorem servers_launch {q : Client} {ran : Bool} : (t.launch q ran).servers = t.servers := by
  cases ran <;> rfl

@[simp] theorem servers_store {path : List String} {o : Origin} : (t.store path o).servers = t.servers := rfl

theorem mem_servers_serve {c : Call} {ran : Bool} {q : Server} (h : q ∈ (t.serve c ran).servers) :
    q ∈ t.servers ∨ q = ⟨c.experiment, c.config.protocol, c.config.server⟩ := by
  cases ran with
  | false => exact .inl h
  | true => simpa [State.serve] using h

theorem mem_servers_pkill {c : Call} {reached : Bool} {q : Server} (h : q ∈ (t.pkill c reached).servers) :
    q ∈ t.servers ∧ (reached = true → ¬ (q.protocol = c.config.protocol ∧
      q.node.hostname = c.config.server.hostname)) := by
  cases reached with
  | false => exact ⟨h, nofun⟩
  | true =>
    obtain ⟨hmem, hother⟩ := List.mem_filter.mp h
    refine ⟨hmem, fun _ heq => ?_⟩
    simp [heq] at hother

theorem own_advance {c : Call} (h : Own c.config c.experiment es t) (hctl : Control c.phase es)
    (ha : Advance c t c.phase e u) : Own c.config c.experiment (es ++ [e]) u := by
  obtain ⟨n, config, phase⟩ := c
  cases ha with
  | startServer r =>
    have hissued : ¬ Issued (es ++ [.startServer r]) := by
      intro hi
      exact Bool.false_ne_true ((hctl.issued nofun).mp ((issued_quiet (e := .startServer r) nofun).mp hi))
    refine ⟨?_, fun hi => absurd hi hissued⟩
    intro q hq hn
    obtain hq | rfl := mem_servers_serve hq
    · exact h.node q hq hn
    · rfl
  | pkill reached =>
    refine ⟨fun q hq => h.node q (mem_servers_pkill hq).1, ?_⟩
    intro _ hreached q hq hn
    obtain ⟨hmem, hother⟩ := mem_servers_pkill hq
    obtain rfl := h.node q hmem hn
    exact hother (hreached reached (by simp)) ⟨rfl, rfl⟩
  | startClient hn r => exact h.quiet nofun servers_launch
  | _ => exact h.quiet nofun rfl

/-- The servers too belong to the calls up to now. -/
structure NumberedServers (s : State) : Prop where
  numbered : Numbered s
  servers : ∀ q ∈ s.servers, q.experiment < s.experiments

theorem servers_advance {c : Call} (ha : Advance c t phase e u) {q : Server} (hq : q ∈ u.servers) :
    q ∈ t.servers ∨ q.experiment = c.experiment := by
  cases ha with
  | startServer r =>
    obtain hq | rfl := mem_servers_serve hq
    · exact .inl hq
    · exact .inr rfl
  | pkill reached => exact .inl (mem_servers_pkill hq).1
  | _ => exact .inl (by simpa using hq)

theorem numberedServers_step (h : NumberedServers s) (hs : step s e = some t) : NumberedServers t := by
  refine ⟨numbered_step h.numbered hs, ?_⟩
  cases move_of_step hs with
  | run hi => exact fun q hq => Nat.lt_succ_of_lt (h.servers q hq)
  | dumpCsv hq => exact h.servers
  | exit running leaving hsub => exact h.servers
  | @advance c _ _ hc ha =>
    intro q hq
    rw [ha.experiments_eq]
    obtain hq | hq := servers_advance ha hq
    · exact h.servers q hq
    · rw [hq]
      exact h.numbered.call c hc

/-- Inside a call, entered in the state `s`. -/
structure InCall (config : ExperimentConfig) (s : State) (es : List Event) (t : State) : Prop where
  call : ∃ phase, t.call = some ⟨s.experiments, config, phase⟩ ∧ Control phase es
  own : Own config s.experiments es t

theorem Control.background (h : Control phase es) (hs : start? e = none) (hp : ∀ reached, e ≠ .pkill reached) :
    Control phase (es ++ [e]) := by
  refine ⟨?_, ?_, ?_⟩
  · rw [startsOk_quiet hs]
    exact h.startsOk
  · rw [issued_quiet hp]
    exact h.issued
  · rw [startsOk_quiet hs, issued_quiet hp]
    exact h.raised

theorem inCall_step (h : InCall config s es t) (hs : step t e = some u) (he : ∀ config, e ≠ .run config) :
    InCall config s (es ++ [e]) u := by
  obtain ⟨phase, hc, hctl⟩ := h.call
  cases move_of_step hs with
  | run hi => exact absurd rfl (he _)
  | dumpCsv hq => exact ⟨⟨phase, hc, hctl.background rfl nofun⟩, h.own.quiet nofun rfl⟩
  | exit running leaving hsub => exact ⟨⟨phase, hc, hctl.background rfl nofun⟩, h.own.quiet nofun rfl⟩
  | advance hc' ha =>
    rw [hc] at hc'
    cases hc'
    exact ⟨control_advance hctl hc ha, own_advance h.own hctl ha⟩

theorem inCall_run (hn : NumberedServers s) (hr : Transition.run step s (.run config :: es) = some t)
    (hd : ∀ c, .run c ∉ es) : InCall config s es t := by
  obtain ⟨u, hu, hr⟩ := Transition.run_cons_some.mp hr
  have hfirst : InCall config s [] u := by
    cases move_of_step hu with
    | run hi =>
      refine ⟨⟨_, rfl, ?_, ?_, nofun⟩, ?_, ?_⟩
      · intro _ e he
        cases he
      · intro _
        exact iff_of_false (by simp [Issued]) Bool.false_ne_true
      · intro q hq heq
        exact absurd heq (Nat.ne_of_lt (hn.servers q hq))
      · simp [Issued]
    | @advance c _ _ hc ha =>
      generalize c.phase = phase at ha
      cases ha
  refine Transition.run_induction (motive := fun es t => (∀ c, .run c ∉ es) → InCall config s es t)
    (fun _ => hfirst) ?_ hr hd
  intro es e t v _ ih hs hd
  simp only [List.mem_append, List.mem_singleton, not_or] at hd
  exact inCall_step (ih fun c => (hd c).1) hs (fun c he => (hd c).2 he.symm)

/-- A call that ends has issued the stop command exactly when the server and
all clients could be started. If the command reaches the node, none of its
servers is left. -/
theorem issued_iff_startsOk (s₀ s t : State) (history es : List Event) (config : ExperimentConfig)
    (h₀ : NumberedServers s₀) (hs : Transition.run step s₀ history = some s)
    (ht : Transition.run step s (.run config :: es) = some t) (hd : ∀ c, .run c ∉ es) (hexit : Exited t) :
    (Issued es ↔ StartsOk es) ∧
      (StartsOk es → Reached es → ∀ q ∈ t.servers, q.experiment ≠ s.experiments) := by
  have hnum : NumberedServers s := Transition.invariant (fun _ _ _ h hs => numberedServers_step h hs) h₀ hs
  have hcall := inCall_run hnum ht hd
  obtain ⟨phase, hc, hctl⟩ := hcall.call
  have hover : phase = .returned ∨ phase = .raised := by simpa [Exited, hc, Call.over] using hexit
  have hiff : Issued es ↔ StartsOk es := by
    obtain rfl | rfl := hover
    · exact iff_of_true ((hctl.issued nofun).mpr rfl) (hctl.startsOk nofun)
    · exact hctl.raised rfl
  exact ⟨hiff, fun hok => hcall.own.gone (hiff.mpr hok)⟩

def server : NodeConfig := ⟨"node0", "root"⟩

def sender : NodeConfig := ⟨"node1", "root"⟩

def incast : ExperimentConfig := ⟨.tcp, server, [sender, sender], ["results", "incast"]⟩

def quietNodes : State := ⟨0, none, [], [], [], fun _ => none, fun _ => none⟩

theorem numberedServers_quietNodes : NumberedServers quietNodes := ⟨⟨nofun, nofun, nofun⟩, nofun⟩

instance (t : State) : Decidable (Exited t) := inferInstanceAs (Decidable (t.call.map Call.over = _))

def stopped : List Event :=
  [.startServer .ok, .detectIp, .startClient .ok, .startClient .ok, .pgrep false, .catLog, .pgrep false, .catLog,
    .pkill true, .makedirs true, .makedirs true, .copyCsv 0 .failed]

theorem stopped_issued : ∃ t, Transition.run step quietNodes (.run incast :: stopped) = some t ∧ Exited t ∧
    t.call.map Call.phase = some .raised ∧ Issued stopped ∧ ∀ q ∈ t.servers, q.experiment ≠ 0 := by
  have hrun : (Transition.run step quietNodes (.run incast :: stopped)).map
      (fun t => (decide (Exited t), t.call.map Call.phase)) = some (true, some .raised) := by decide +kernel
  obtain ⟨t, ht, heq⟩ := Option.map_eq_some_iff.mp hrun
  obtain ⟨hexit, hphase⟩ := Prod.mk.inj heq
  have hexit := of_decide_eq_true hexit
  obtain ⟨hissued, hgone⟩ := issued_iff_startsOk quietNodes quietNodes t [] stopped incast
    numberedServers_quietNodes rfl ht (by simp [stopped]) hexit
  have hok : StartsOk stopped := by simp [StartsOk, stopped, start?]
  exact ⟨t, ht, hexit, hphase, hissued.mpr hok, hgone hok (by simp [Reached, stopped])⟩

/-- The second client cannot be started. -/
def abandoned : List Event := [.startServer .ok, .detectIp, .startClient .ok, .startClient (.failed false)]

/-- The call ends with an exception and without the stop command, and its server
is still there when the next experiment starts. -/
theorem abandoned_not_issued : ∃ t u, Transition.run step quietNodes (.run incast :: abandoned) = some t ∧
    Exited t ∧ ¬ Issued abandoned ∧ step t (.run incast) = some u ∧ ⟨0, .tcp, server⟩ ∈ u.servers := by
  have hrun : (Transition.run step quietNodes (.run incast :: (abandoned ++ [.run incast]))).map
      (fun u => u.servers) = some [⟨0, .tcp, server⟩] := by decide +kernel
  have hexit : (Transition.run step quietNodes (.run incast :: abandoned)).map (fun t => decide (Exited t)) =
      some true := by decide +kernel
  obtain ⟨u, hu, hservers⟩ := Option.map_eq_some_iff.mp hrun
  rw [← List.cons_append] at hu
  obtain ⟨t, ht, hu⟩ := Transition.run_append_some.mp hu
  obtain ⟨v, hv, hu⟩ := Transition.run_cons_some.mp hu
  cases hu
  refine ⟨t, u, ht, ?_, by simp [Issued, abandoned], hv, by simp [hservers]⟩
  rw [ht] at hexit
  exact of_decide_eq_true (Option.some.inj hexit)

end DcBench.ServerCleanup

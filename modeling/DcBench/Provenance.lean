import DcBench.OrchestrateMoves

namespace DcBench.Provenance

open DcBench.Lib DcBench.Orchestrate DcBench.OrchestrateMoves

variable {config : ExperimentConfig} {s t u : State} {es : List Event} {e : Event} {i : Nat}

theorem toString_inj {i j : Nat} (h : toString i = toString j) : i = j := by
  have hd : Nat.toDigits 10 i = Nat.toDigits 10 j := by
    rw [← Nat.toList_repr, ← Nat.toList_repr]
    exact congrArg String.toList h
  rw [← @Nat.ofDigitChars_ten_toDigits i, hd, Nat.ofDigitChars_ten_toDigits]

theorem resultsCsv_inj {i j : Nat} (h : resultsCsv i = resultsCsv j) : i = j := by
  apply toString_inj
  exact (String.append_right_inj _).mp ((String.append_left_inj _).mp h)

theorem localCsv_inj {i j : Nat} (h : config.localCsv i = config.localCsv j) : i = j := by
  have hd : clientDir i = clientDir j := (List.cons.inj (List.append_cancel_left h)).1
  apply toString_inj
  exact (String.append_right_inj _).mp hd

def copies (i : Nat) : Event → Bool
  | .copyCsv j .copied => decide (j = i)
  | _ => false

def beforeCopy (i : Nat) (es : List Event) : List Event := es.takeWhile (fun e => !copies i e)

theorem beforeCopy_concat_of_copies (h : ∀ e ∈ es, copies i e = false) (he : copies i e = true) :
    beforeCopy i (es ++ [e]) = es := by
  rw [beforeCopy, List.takeWhile_append_of_pos]
  · simp [he]
  · intro e' he'
    rw [h e' he', Bool.not_false]

theorem beforeCopy_concat_of_mem (h : ∃ e ∈ es, copies i e = true) : beforeCopy i (es ++ [e]) = beforeCopy i es := by
  induction es with
  | nil => simp at h
  | cons e' es ih =>
    cases hc : copies i e' with
    | true => simp [beforeCopy, hc]
    | false =>
      obtain ⟨e'', hmem, he''⟩ := h
      have htail : e'' ∈ es := by
        obtain rfl | hmem := List.mem_cons.mp hmem
        · rw [hc] at he''
          cases he''
        · exact hmem
      have heq := ih ⟨e'', htail, he''⟩
      rw [beforeCopy, beforeCopy] at heq
      simp only [beforeCopy, List.cons_append, List.takeWhile_cons, hc, Bool.not_false, if_true, heq]

/-- How many clients' results have been copied when the call stands there. -/
def copiedCount (config : ExperimentConfig) : Phase → Nat
  | .makeClientDir i => i
  | .copyCsv i => i
  | .copyServerLog => config.clients.length
  | .returned => config.clients.length
  | _ => 0

theorem copiedCount_copying (h : i ≤ config.clients.length) : copiedCount config (config.copying i) = i := by
  rw [ExperimentConfig.copying]
  split
  · rfl
  · rw [ExperimentConfig.finishing]
    split <;> exact Nat.le_antisymm (by simpa using ‹¬ i < _›) h

theorem copiedCount_polling : copiedCount config (config.polling i) = 0 := by
  rw [ExperimentConfig.polling]
  split <;> rfl

theorem copiedCount_starting : copiedCount config (config.starting i) = 0 := by
  rw [ExperimentConfig.starting]
  split
  · rfl
  · exact copiedCount_polling

/-- Of the clients before `count` the results have been copied, as they were on
the node at that moment; of the others they have not. -/
structure Collected (config : ExperimentConfig) (remote : NodeConfig × String → Option Origin)
    (es : List Event) (count : Nat) (t : State) : Prop where
  copied : ∀ i node, config.clients[i]? = some node → i < count → (∃ e ∈ es, copies i e = true) ∧
    t.files (config.localCsv i) = LastWrite.replay write remote (beforeCopy i es) (node, resultsCsv i)
  others : ∀ i, count ≤ i → ∀ e ∈ es, copies i e = false

theorem Collected.concat {remote : NodeConfig × String → Option Origin} {count : Nat}
    (h : Collected config remote es count t) (he : ∀ i, copies i e = false) (hf : u.files = t.files) :
    Collected config remote (es ++ [e]) count u := by
  refine ⟨?_, ?_⟩
  · intro i node hn hi
    obtain ⟨⟨e', hmem, hc⟩, hfile⟩ := h.copied i node hn hi
    refine ⟨⟨e', List.mem_append_left _ hmem, hc⟩, ?_⟩
    rw [hf, beforeCopy_concat_of_mem ⟨e', hmem, hc⟩]
    exact hfile
  · intro i hi
    rw [List.forall_mem_append, List.forall_mem_singleton]
    exact ⟨h.others i hi, he i⟩

theorem Collected.copy {remote : NodeConfig × String → Option Origin} {node : NodeConfig} {o : Origin}
    (h : Collected config remote es i t) (hn : config.clients[i]? = some node)
    (ho : LastWrite.replay write remote es (node, resultsCsv i) = some o)
    (hf : u.files = Function.update t.files (config.localCsv i) (some o)) :
    Collected config remote (es ++ [.copyCsv i .copied]) (i + 1) u := by
  have hcopy : copies i (.copyCsv i .copied) = true := decide_eq_true rfl
  refine ⟨?_, ?_⟩
  · intro j node' hn' hj
    obtain rfl | hne := eq_or_ne j i
    · rw [hn] at hn'
      cases hn'
      refine ⟨⟨_, by simp, hcopy⟩, ?_⟩
      rw [hf, Function.update_self, beforeCopy_concat_of_copies (h.others j (Nat.le_refl j)) hcopy, ho]
    · obtain ⟨⟨e, hmem, hc⟩, hfile⟩ := h.copied j node' hn' (by omega)
      refine ⟨⟨e, List.mem_append_left _ hmem, hc⟩, ?_⟩
      rw [hf, Function.update_of_ne (fun heq => hne (localCsv_inj heq)), beforeCopy_concat_of_mem ⟨e, hmem, hc⟩]
      exact hfile
  · intro j hj
    rw [List.forall_mem_append, List.forall_mem_singleton]
    exact ⟨h.others j (by omega), decide_eq_false (by omega)⟩

/-- Inside a call, entered in the state `s` and `es` being what has happened
since. Once it has raised, only the frame is known. -/
structure InCall (config : ExperimentConfig) (s : State) (es : List Event) (t : State) : Prop where
  call : ∃ phase, t.call = some ⟨s.experiments, config, phase⟩ ∧
    (phase ≠ .raised → Collected config s.remote es (copiedCount config phase) t)
  frame : ∀ path, (∀ i < config.clients.length, path ≠ config.localCsv i) → t.files path = s.files path

theorem lt_length_of_client {node : NodeConfig} (h : config.clients[i]? = some node) : i < config.clients.length :=
  (List.getElem?_eq_some_iff.mp h).1

theorem collected_checked {remote : NodeConfig × String → Option Origin} {ok : Bool} {phase : Phase}
    (h : Collected config remote es (copiedCount config phase) t) (he : ∀ i, copies i e = false)
    (hf : u.files = t.files) (hne : (if ok then phase else .raised) ≠ Phase.raised) :
    Collected config remote (es ++ [e]) (copiedCount config (if ok then phase else .raised)) u := by
  cases ok with
  | false => exact absurd rfl hne
  | true => exact h.concat he hf

theorem collected_advance {c : Call} {remote : NodeConfig × String → Option Origin}
    (h : c.phase ≠ .raised → Collected c.config remote es (copiedCount c.config c.phase) t)
    (hc : t.call = some c) (hr : t.remote = LastWrite.replay write remote es) (ha : Advance c t c.phase e u) :
    ∃ phase, u.call = some { c with phase := phase } ∧
      (phase ≠ .raised → Collected c.config remote (es ++ [e]) (copiedCount c.config phase) u) := by
  obtain ⟨n, config, phase⟩ := c
  cases ha with
  | startServer r =>
    refine ⟨_, call_enter, ?_⟩
    exact collected_checked (h nofun) (fun _ => rfl) files_serve
  | detectIp =>
    refine ⟨_, call_enter, ?_⟩
    intro _
    rw [copiedCount_starting]
    exact (h nofun).concat (fun _ => rfl) rfl
  | startClient hn r =>
    refine ⟨_, call_enter, ?_⟩
    intro hne
    refine collected_checked ?_ (fun _ => rfl) files_launch hne
    rw [copiedCount_starting]
    exact h nofun
  | found hn hg =>
    refine ⟨_, hc, ?_⟩
    intro _
    exact (h nofun).concat (fun _ => rfl) rfl
  | finished hn reached hg =>
    refine ⟨_, call_enter, ?_⟩
    intro _
    exact (h nofun).concat (fun _ => rfl) rfl
  | catLog =>
    refine ⟨_, call_enter, ?_⟩
    intro _
    rw [copiedCount_polling]
    exact (h nofun).concat (fun _ => rfl) rfl
  | pkill reached =>
    refine ⟨_, call_enter, ?_⟩
    intro _
    exact (h nofun).concat (fun _ => rfl) files_pkill
  | outputDir ok =>
    refine ⟨_, call_enter, ?_⟩
    intro hne
    refine collected_checked (t := t) ?_ (fun _ => rfl) rfl hne
    rw [copiedCount_copying (Nat.zero_le _)]
    exact h nofun
  | clientDir ok =>
    refine ⟨_, call_enter, ?_⟩
    exact collected_checked (h nofun) (fun _ => rfl) rfl
  | copied hn ho =>
    refine ⟨_, call_enter, ?_⟩
    intro _
    rw [copiedCount_copying (lt_length_of_client hn)]
    rw [hr] at ho
    exact (h nofun).copy hn ho rfl
  | truncated hn ho => exact ⟨_, call_enter, fun hne => absurd rfl hne⟩
  | failed => exact ⟨_, call_enter, fun hne => absurd rfl hne⟩
  | serverLog ok =>
    refine ⟨_, call_enter, ?_⟩
    exact collected_checked (h nofun) (fun _ => rfl) rfl

theorem files_advance {c : Call} {phase : Phase} (ha : Advance c t phase e u) {path : List String}
    (hp : ∀ i < c.config.clients.length, path ≠ c.config.localCsv i) : u.files path = t.files path := by
  cases ha with
  | copied hn ho | truncated hn ho =>
    rw [files_enter, files_store]
    exact Function.update_of_ne (hp _ (lt_length_of_client hn)) _ _
  | _ => simp

theorem inCall_step (h : InCall config s es t) (hr : t.remote = LastWrite.replay write s.remote es)
    (hs : step t e = some u) (he : ∀ config, e ≠ .run config) : InCall config s (es ++ [e]) u := by
  obtain ⟨phase, hc, hcol⟩ := h.call
  cases move_of_step hs with
  | run hi => exact absurd rfl (he _)
  | dumpCsv hq => exact ⟨⟨phase, hc, fun hne => (hcol hne).concat (fun _ => rfl) rfl⟩, h.frame⟩
  | exit running leaving hsub => exact ⟨⟨phase, hc, fun hne => (hcol hne).concat (fun _ => rfl) rfl⟩, h.frame⟩
  | advance hc' ha =>
    rw [hc] at hc'
    cases hc'
    refine ⟨collected_advance hcol hc hr ha, ?_⟩
    intro path hp
    rw [files_advance ha hp]
    exact h.frame path hp

theorem inCall_run (hr : Transition.run step s (.run config :: es) = some t) (hd : ∀ c, .run c ∉ es) :
    InCall config s es t := by
  obtain ⟨u, hu, hr⟩ := Transition.run_cons_some.mp hr
  have hstart : InCall config s [] u ∧ u.remote = s.remote := by
    cases move_of_step hu with
    | run hi =>
      refine ⟨⟨⟨_, rfl, fun _ => ⟨?_, ?_⟩⟩, fun _ _ => rfl⟩, rfl⟩
      · intro i node hn hi
        exact absurd hi (Nat.not_lt_zero i)
      · simp
    | @advance c _ _ hc ha =>
      generalize c.phase = phase at ha
      cases ha
  refine Transition.run_induction (motive := fun es t => (∀ c, .run c ∉ es) → InCall config s es t)
    (fun _ => hstart.1) ?_ hr hd
  intro es e t v hrun ih hs hd
  simp only [List.mem_append, List.mem_singleton, not_or] at hd
  refine inCall_step (ih fun c => (hd c).1) ?_ hs (fun c he => (hd c).2 he.symm)
  rw [remote_of_run hrun, hstart.2]

def Returned (t : State) : Prop := t.call.map Call.phase = some .returned

/-- A `latency.csv` in the directory, at any depth. -/
def IsLatencyCsv (dir path : List String) : Prop := ∃ below, path = dir ++ below ++ ["latency.csv"]

/-- The output directory holds one `latency.csv` for each client of the
experiment and no other, and each was written by that client in that
experiment. -/
structure OwnResults (config : ExperimentConfig) (experiment : Nat) (t : State) : Prop where
  names : ∀ path, IsLatencyCsv config.outputDir path →
    ((t.files path).isSome ↔ ∃ i < config.clients.length, path = config.localCsv i)
  writers : ∀ i < config.clients.length, t.files (config.localCsv i) = some ⟨experiment, i⟩

/-- The output directory holds no `latency.csv` but those the call will replace. -/
def Clean (config : ExperimentConfig) (s : State) : Prop :=
  ∀ path, IsLatencyCsv config.outputDir path → (s.files path).isSome →
    ∃ i < config.clients.length, path = config.localCsv i

/-- Client `i` of the experiment writes its results before they are copied, and
from there to the copy no client of the same index, left on its node by an
earlier call, does. -/
def Delivered (experiment i : Nat) (node : NodeConfig) (es : List Event) : Prop :=
  ∃ before q later, beforeCopy i es = before ++ .dumpCsv q :: later ∧ q.origin = ⟨experiment, i⟩ ∧
    q.node = node ∧ ∀ q', .dumpCsv q' ∈ later → q'.node = node → q'.origin.index ≠ i

theorem clean_iff_of_inCall (h : InCall config s es t) : Clean config t ↔ Clean config s := by
  refine forall_congr' ?_
  intro path
  apply imp_congr_right
  intro _
  by_cases hp : ∃ i < config.clients.length, path = config.localCsv i
  · exact iff_of_true (fun _ => hp) (fun _ => hp)
  · rw [h.frame path (fun i hi heq => hp ⟨i, hi, heq⟩)]

theorem untouched_iff {node : NodeConfig} : LastWrite.Untouched write (node, resultsCsv i) es ↔
    ∀ q, .dumpCsv q ∈ es → q.node = node → q.origin.index ≠ i := by
  constructor
  · rintro h q hq rfl rfl
    exact h _ hq q.origin rfl
  · intro h e he o hw
    cases e with
    | dumpCsv q =>
      obtain ⟨hfile, -⟩ := Prod.mk.inj (Option.some.inj hw)
      obtain ⟨hnode, hcsv⟩ := Prod.mk.inj hfile
      exact h q he hnode (resultsCsv_inj hcsv)
    | _ => cases hw

theorem lastWrites_iff_delivered {node : NodeConfig} {n : Nat} :
    LastWrite.LastWrites write (node, resultsCsv i) ⟨n, i⟩ (beforeCopy i es) ↔ Delivered n i node es := by
  constructor
  · rintro ⟨before, e, later, heq, hw, hl⟩
    cases e with
    | dumpCsv q =>
      obtain ⟨hfile, ho⟩ := Prod.mk.inj (Option.some.inj hw)
      exact ⟨before, q, later, heq, ho, (Prod.mk.inj hfile).1, untouched_iff.mp hl⟩
    | _ => cases hw
  · rintro ⟨before, q, later, heq, ho, rfl, hl⟩
    refine ⟨before, .dumpCsv q, later, heq, ?_, untouched_iff.mpr hl⟩
    rw [write, Client.file, ho]

/-- A call that returns has kept the results apart exactly when its directory
was clean and each of its clients delivered. -/
theorem ownResults_iff_delivered (s₀ s t : State) (history es : List Event) (config : ExperimentConfig)
    (h₀ : Numbered s₀) (hs : Transition.run step s₀ history = some s)
    (ht : Transition.run step s (.run config :: es) = some t) (hd : ∀ c, .run c ∉ es) (hret : Returned t) :
    OwnResults config s.experiments t ↔
      Clean config s ∧ ∀ i node, config.clients[i]? = some node → Delivered s.experiments i node es := by
  have hnum : Numbered s := Transition.invariant (fun _ _ _ h hs => numbered_step h hs) h₀ hs
  have hcall := inCall_run ht hd
  obtain ⟨phase, hc, hcol⟩ := hcall.call
  have hphase : phase = .returned := by simpa [Returned, hc] using hret
  subst hphase
  have hcopied := (hcol nofun).copied
  have hfile (i : Nat) (node : NodeConfig) (hn : config.clients[i]? = some node) :
      t.files (config.localCsv i) = some ⟨s.experiments, i⟩ ↔ Delivered s.experiments i node es := by
    rw [(hcopied i node hn (lt_length_of_client hn)).2, LastWrite.replay_eq_some_iff, lastWrites_iff_delivered]
    apply or_iff_left
    rintro ⟨ho, -⟩
    exact Nat.lt_irrefl _ (hnum.remote _ _ ho)
  rw [← clean_iff_of_inCall hcall]
  constructor
  · intro hp
    refine ⟨fun path hcsv => (hp.names path hcsv).mp, ?_⟩
    intro i node hn
    exact (hfile i node hn).mp (hp.writers i (lt_length_of_client hn))
  · rintro ⟨hclean, hdel⟩
    have hwriters (i : Nat) (hi : i < config.clients.length) :
        t.files (config.localCsv i) = some ⟨s.experiments, i⟩ := by
      have hn := List.getElem?_eq_getElem hi
      exact (hfile i _ hn).mpr (hdel i _ hn)
    refine ⟨fun path hcsv => ⟨hclean path hcsv, ?_⟩, hwriters⟩
    rintro ⟨i, hi, rfl⟩
    rw [hwriters i hi]
    rfl

def node0 : NodeConfig := ⟨"node0", "root"⟩

def node1 : NodeConfig := ⟨"node1", "root"⟩

def pair : ExperimentConfig := ⟨.tcp, node0, [node1], ["results", "pair"]⟩

def fresh : State := ⟨0, none, [], [], [], fun _ => none, fun _ => none⟩

theorem numbered_fresh : Numbered fresh := ⟨nofun, nofun, nofun⟩

/-- The client starts and does this before the orchestrator asks for it. -/
def called (client : List Event) : List Event :=
  [.startServer .ok, .detectIp, .startClient .ok] ++ client ++
    [.pgrep true, .catLog, .pkill true, .makedirs true, .makedirs true, .copyCsv 0 .copied, .copyServerLog true]

def client (experiment : Nat) : Client := ⟨⟨experiment, 0⟩, .tcp, node1⟩

def writing (experiment : Nat) : List Event := [.dumpCsv (client experiment), .exit (client experiment)]

def first : List Event := .run pair :: called (writing 0)

instance (t : State) : Decidable (Returned t) := inferInstanceAs (Decidable (t.call.map Call.phase = _))

theorem delivering_ownResults : ∃ s t, Transition.run step fresh first = some s ∧
    Transition.run step s (.run pair :: called (writing 1)) = some t ∧ Returned t ∧ OwnResults pair 1 t := by
  have hrun : (Transition.run step fresh first).map State.experiments = some 1 := by decide +kernel
  have hrun' : (Transition.run step fresh (first ++ .run pair :: called (writing 1))).map
      (fun t => decide (Returned t)) = some true := by decide +kernel
  obtain ⟨t, ht, hret⟩ := Option.map_eq_some_iff.mp hrun'
  obtain ⟨s, hs, ht⟩ := Transition.run_append_some.mp ht
  have hone : s.experiments = 1 := by simpa [hs] using hrun
  have hret := of_decide_eq_true hret
  refine ⟨s, t, hs, ht, hret, ?_⟩
  rw [← hone]
  apply (ownResults_iff_delivered fresh s t first _ pair numbered_fresh hs ht (by simp [called, writing]) hret).mpr
  refine ⟨?_, ?_⟩
  · apply (clean_iff_of_inCall (inCall_run hs (by simp [called, writing]))).mpr
    intro path _ hsome
    cases hsome
  · intro i node hn
    obtain ⟨rfl, rfl⟩ : i = 0 ∧ node = node1 := by
      cases i with
      | zero => exact ⟨rfl, (Option.some.inj hn).symm⟩
      | succ i => simp [pair] at hn
    refine ⟨[.startServer .ok, .detectIp, .startClient .ok], client 1,
      [.exit (client 1), .pgrep true, .catLog, .pkill true, .makedirs true, .makedirs true], ?_, ?_, rfl, ?_⟩
    · decide +kernel
    · rw [hone]
      rfl
    · simp

/-- The client of the second experiment exits without results: the orchestrator
stores those of the first experiment in their place, and returns. -/
theorem exiting_not_ownResults : ∃ s t, Transition.run step fresh first = some s ∧
    Transition.run step s (.run pair :: called [.exit (client 1)]) = some t ∧ Returned t ∧
    t.files (pair.localCsv 0) = some ⟨0, 0⟩ ∧ s.experiments = 1 ∧ ¬ OwnResults pair 1 t := by
  have hrun : (Transition.run step fresh first).map State.experiments = some 1 := by decide +kernel
  have hrun' : (Transition.run step fresh (first ++ .run pair :: called [.exit (client 1)])).map
      (fun t => (decide (Returned t), t.files (pair.localCsv 0))) = some (true, some ⟨0, 0⟩) := by decide +kernel
  obtain ⟨t, ht, heq⟩ := Option.map_eq_some_iff.mp hrun'
  obtain ⟨hret, hfile⟩ := Prod.mk.inj heq
  obtain ⟨s, hs, ht⟩ := Transition.run_append_some.mp ht
  refine ⟨s, t, hs, ht, of_decide_eq_true hret, hfile, by simpa [hs] using hrun, ?_⟩
  intro hp
  have hown := hp.writers 0 (by decide)
  rw [hfile] at hown
  cases hown

end DcBench.Provenance

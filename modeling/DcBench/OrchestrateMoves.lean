import DcBench.Orchestrate

namespace DcBench.OrchestrateMoves

open DcBench.Lib DcBench.Orchestrate

inductive Advance (c : Call) (s : State) : Phase → Event → State → Prop
  | startServer (r : Ssh) :
    Advance c s .startServer (.startServer r) ((s.serve c r.ran).checked c (r = .ok) .detectIp)
  | detectIp : Advance c s .detectIp .detectIp (s.enter c (c.config.starting 0))
  | startClient {i : Nat} {node : NodeConfig} (hn : c.config.clients[i]? = some node) (r : Ssh) :
    Advance c s (.startClient i) (.startClient r)
      ((s.launch (c.client i node) r.ran).checked c (r = .ok) (c.config.starting (i + 1)))
  | found {i : Nat} {node : NodeConfig} (hn : c.config.clients[i]? = some node)
    (hg : s.pgrep c.config.protocol node = true) : Advance c s (.poll i) (.pgrep true) s
  | finished {i : Nat} {node : NodeConfig} (hn : c.config.clients[i]? = some node) (reached : Bool)
    (hg : reached = true → s.pgrep c.config.protocol node = false) :
    Advance c s (.poll i) (.pgrep reached) (s.enter c (.readLog i))
  | catLog {i : Nat} : Advance c s (.readLog i) .catLog (s.enter c (c.config.polling (i + 1)))
  | pkill (reached : Bool) :
    Advance c s .stopServer (.pkill reached) ((s.pkill c reached).enter c .makeOutputDir)
  | outputDir (ok : Bool) : Advance c s .makeOutputDir (.makedirs ok) (s.checked c ok (c.config.copying 0))
  | clientDir {i : Nat} (ok : Bool) : Advance c s (.makeClientDir i) (.makedirs ok) (s.checked c ok (.copyCsv i))
  | copied {i : Nat} {node : NodeConfig} {o : Origin} (hn : c.config.clients[i]? = some node)
    (ho : s.remote (node, resultsCsv i) = some o) :
    Advance c s (.copyCsv i) (.copyCsv i .copied)
      ((s.store (c.config.localCsv i) o).enter c (c.config.copying (i + 1)))
  | truncated {i : Nat} {node : NodeConfig} {o : Origin} (hn : c.config.clients[i]? = some node)
    (ho : s.remote (node, resultsCsv i) = some o) :
    Advance c s (.copyCsv i) (.copyCsv i .truncated) ((s.store (c.config.localCsv i) o).enter c .raised)
  | failed {i : Nat} : Advance c s (.copyCsv i) (.copyCsv i .failed) (s.enter c .raised)
  | serverLog (ok : Bool) : Advance c s .copyServerLog (.copyServerLog ok) (s.checked c ok .returned)

/-- A call is entered, a client in the background does its next thing, or the
orchestrator takes a step. -/
inductive Move (s : State) : Event → State → Prop
  | run {config : ExperimentConfig} (hi : s.idle = true) : Move s (.run config)
    { s with experiments := s.experiments + 1, call := some ⟨s.experiments, config, .startServer⟩ }
  | dumpCsv {q : Client} (hq : q ∈ s.running) : Move s (.dumpCsv q)
    { s with running := s.running.erase q, leaving := s.leaving ++ [q],
             remote := Function.update s.remote q.file (some q.origin) }
  | exit {q : Client} (running leaving : List Client) (hsub : ∀ q ∈ running, q ∈ s.running) :
    Move s (.exit q) { s with running := running, leaving := leaving }
  | advance {c : Call} {e : Event} {t : State} (hc : s.call = some c) (ha : Advance c s c.phase e t) : Move s e t

theorem advance_of_eq {c : Call} {s t : State} {phase : Phase} {e : Event}
    (h : advance c s phase e = some t) : Advance c s phase e t := by
  revert h
  fun_cases advance c s phase e
  all_goals intro h
  case case3 i r =>
    obtain ⟨node, hn, rfl⟩ := Option.map_eq_some_iff.mp h
    exact .startClient hn r
  case case4 i reached =>
    obtain ⟨node, hn, rfl⟩ := Option.map_eq_some_iff.mp h
    by_cases hg : (reached && s.pgrep c.config.protocol node) = true
    · rw [if_pos hg]
      obtain ⟨rfl, hg⟩ := Bool.and_eq_true_iff.mp hg
      exact .found hn hg
    · rw [if_neg hg]
      refine .finished hn reached ?_
      rintro rfl
      simpa using hg
  case case10 i =>
    obtain ⟨node, hn, h⟩ := Option.bind_eq_some_iff.mp h
    obtain ⟨o, ho, rfl⟩ := Option.map_eq_some_iff.mp h
    exact .copied hn ho
  case case11 i =>
    obtain ⟨node, hn, h⟩ := Option.bind_eq_some_iff.mp h
    obtain ⟨o, ho, rfl⟩ := Option.map_eq_some_iff.mp h
    exact .truncated hn ho
  all_goals cases h
  all_goals constructor

theorem move_of_step {s t : State} {e : Event} (h : step s e = some t) : Move s e t := by
  have inside {e : Event} (h : s.call.bind (fun c => advance c s c.phase e) = some t) : Move s e t := by
    obtain ⟨c, hc, ha⟩ := Option.bind_eq_some_iff.mp h
    exact .advance hc (advance_of_eq ha)
  cases e with
  | run config =>
    obtain ⟨hi, heq⟩ := Option.ite_none_right_eq_some.mp h
    cases heq
    exact .run hi
  | dumpCsv q =>
    obtain ⟨hq, heq⟩ := Option.ite_none_right_eq_some.mp h
    cases heq
    exact .dumpCsv hq
  | exit q =>
    simp only [step] at h
    split at h
    · cases h
      exact .exit _ s.leaving (fun _ => List.mem_of_mem_erase)
    · obtain ⟨-, heq⟩ := Option.ite_none_right_eq_some.mp h
      cases heq
      exact .exit s.running _ (fun _ => id)
  | _ => exact inside h

section

variable {c : Call} {s t : State} {phase : Phase} {e : Event} {ran ok reached : Bool} {q : Client}
  {path : List String} {o : Origin}

@[simp] theorem call_enter : (s.enter c phase).call = some { c with phase := phase } := rfl

@[simp] theorem experiments_enter : (s.enter c phase).experiments = s.experiments := rfl

@[simp] theorem running_enter : (s.enter c phase).running = s.running := rfl

@[simp] theorem remote_enter : (s.enter c phase).remote = s.remote := rfl

@[simp] theorem files_enter : (s.enter c phase).files = s.files := rfl

@[simp] theorem checked_eq : s.checked c ok phase = s.enter c (if ok then phase else .raised) := rfl

@[simp] theorem experiments_serve : (s.serve c ran).experiments = s.experiments := by cases ran <;> rfl

@[simp] theorem running_serve : (s.serve c ran).running = s.running := by cases ran <;> rfl

@[simp] theorem remote_serve : (s.serve c ran).remote = s.remote := by cases ran <;> rfl

@[simp] theorem files_serve : (s.serve c ran).files = s.files := by cases ran <;> rfl

@[simp] theorem experiments_launch : (s.launch q ran).experiments = s.experiments := by cases ran <;> rfl

@[simp] theorem remote_launch : (s.launch q ran).remote = s.remote := by cases ran <;> rfl

@[simp] theorem files_launch : (s.launch q ran).files = s.files := by cases ran <;> rfl

theorem mem_running_launch {q' : Client} (h : q' ∈ (s.launch q ran).running) : q' ∈ s.running ∨ q' = q := by
  cases ran with
  | false => exact .inl h
  | true => simpa [State.launch] using h

@[simp] theorem experiments_pkill : (s.pkill c reached).experiments = s.experiments := by cases reached <;> rfl

@[simp] theorem running_pkill : (s.pkill c reached).running = s.running := by cases reached <;> rfl

@[simp] theorem remote_pkill : (s.pkill c reached).remote = s.remote := by cases reached <;> rfl

@[simp] theorem files_pkill : (s.pkill c reached).files = s.files := by cases reached <;> rfl

@[simp] theorem experiments_store : (s.store path o).experiments = s.experiments := rfl

@[simp] theorem running_store : (s.store path o).running = s.running := rfl

@[simp] theorem remote_store : (s.store path o).remote = s.remote := rfl

@[simp] theorem files_store : (s.store path o).files = Function.update s.files path (some o) := rfl

theorem Advance.remote_eq (h : Advance c s phase e t) : t.remote = s.remote := by
  cases h <;> simp

theorem Advance.experiments_eq (h : Advance c s phase e t) : t.experiments = s.experiments := by
  cases h <;> simp

theorem Advance.call_eq (h : Advance c s c.phase e t) (hc : s.call = some c) :
    ∃ phase, t.call = some { c with phase := phase } := by
  generalize hp : c.phase = phase at h
  cases h with
  | found hn hg => exact ⟨c.phase, hc⟩
  | _ => exact ⟨_, call_enter⟩

theorem Advance.mem_running (h : Advance c s phase e t) (hq : q ∈ t.running) :
    q ∈ s.running ∨ q.origin.experiment = c.experiment := by
  cases h with
  | startClient hn r =>
    obtain hq | rfl := mem_running_launch hq
    · exact .inl hq
    · exact .inr rfl
  | _ => exact .inl (by simpa using hq)

end

def write : Event → Option ((NodeConfig × String) × Origin)
  | .dumpCsv q => some (q.file, q.origin)
  | _ => none

theorem Advance.write_eq {c : Call} {s t : State} {phase : Phase} {e : Event} (h : Advance c s phase e t) :
    write e = none := by
  cases h <;> rfl

theorem remote_of_step {s t : State} {e : Event} (h : step s e = some t) :
    t.remote = LastWrite.put s.remote (write e) := by
  cases move_of_step h with
  | advance hc ha => rw [ha.remote_eq, ha.write_eq, LastWrite.put]
  | _ => rfl

/-- The files on the nodes after a run are those that its writes leave there. -/
theorem remote_of_run {s t : State} {es : List Event} (h : Transition.run step s es = some t) :
    t.remote = LastWrite.replay write s.remote es := by
  refine Transition.run_induction (motive := fun es t => t.remote = LastWrite.replay write s.remote es) rfl ?_ h
  intro es e t u _ ih hs
  rw [remote_of_step hs, ih, LastWrite.replay_concat]

/-- The experiments are numbered in order: what is on the nodes, and who still
runs there, belongs to the calls up to now. -/
structure Numbered (s : State) : Prop where
  call : ∀ c, s.call = some c → c.experiment < s.experiments
  running : ∀ q ∈ s.running, q.origin.experiment < s.experiments
  remote : ∀ file o, s.remote file = some o → o.experiment < s.experiments

theorem numbered_step {s t : State} {e : Event} (h : Numbered s) (hs : step s e = some t) : Numbered t := by
  cases move_of_step hs with
  | run hi =>
    refine ⟨?_, ?_, ?_⟩
    · rintro c ⟨⟩
      exact Nat.lt_succ_self _
    · intro q hq
      exact Nat.lt_succ_of_lt (h.running q hq)
    · intro file o ho
      exact Nat.lt_succ_of_lt (h.remote file o ho)
  | @dumpCsv q hq =>
    refine ⟨h.call, fun q hq => h.running q (List.mem_of_mem_erase hq), ?_⟩
    intro file o (ho : Function.update s.remote q.file (some q.origin) file = some o)
    by_cases hf : file = q.file
    · rw [hf, Function.update_self] at ho
      cases ho
      exact h.running q hq
    · rw [Function.update_of_ne hf] at ho
      exact h.remote file o ho
  | exit running leaving hsub => exact ⟨h.call, fun q hq => h.running q (hsub q hq), h.remote⟩
  | @advance c e t hc ha =>
    refine ⟨?_, ?_, ?_⟩
    · intro c' hc'
      obtain ⟨phase, hp⟩ := ha.call_eq hc
      rw [hp] at hc'
      cases hc'
      rw [ha.experiments_eq]
      exact h.call c hc
    · intro q hq
      rw [ha.experiments_eq]
      obtain hq | hq := ha.mem_running hq
      · exact h.running q hq
      · rw [hq]
        exact h.call c hc
    · rw [ha.remote_eq, ha.experiments_eq]
      exact h.remote

end DcBench.OrchestrateMoves

import DcBench.OrchestrateMain
import DcBench.Provenance

namespace DcBench.OrchestrateProcess

open DcBench.Lib DcBench.OrchestrateMoves DcBench.Provenance
open DcBench.OrchestrateMain (RawConfig Experiment History loadExperiment protocolOf expectedBinary follow)
open DcBench.Orchestrate (ExperimentConfig NodeConfig Protocol)

theorem file_iff_delivered {config : ExperimentConfig} {w orch : Orchestrate.State} {log : List Orchestrate.Event}
    (hnum : Numbered w) (hrun : Transition.run Orchestrate.step w (.run config :: log) = some orch)
    (hd : ∀ c, .run c ∉ log) (hret : Returned orch) {i : Nat} {node : NodeConfig}
    (hnode : config.clients[i]? = some node) :
    orch.files (config.localCsv i) = some ⟨w.experiments, i⟩ ↔ Delivered w.experiments i node log := by
  obtain ⟨phase, hc, hcol⟩ := (inCall_run hrun hd).call
  have hphase : phase = .returned := by simpa [Returned, hc] using hret
  subst hphase
  have hcopied := (hcol (by simp)).copied i node hnode (lt_length_of_client hnode)
  rw [hcopied.2, LastWrite.replay_eq_some_iff, lastWrites_iff_delivered]
  apply or_iff_left
  rintro ⟨ho, -⟩
  exact Nat.lt_irrefl _ (hnum.remote _ _ ho)

structure Verified (raw : RawConfig) (m : OrchestrateMain.State) (x : Experiment) (protocol : Protocol) : Prop where
  loaded : loadExperiment raw = some x
  known : protocolOf x.protocol = some protocol
  executable : ∀ node ∈ x.nodes, m.executable (node, expectedBinary protocol) = true

/-- The world is that of the last call and of what has happened since. -/
structure Tracked (config : ExperimentConfig) (orch w : Orchestrate.State) (log : List Orchestrate.Event) : Prop where
  numbered : Numbered w
  run : Transition.run Orchestrate.step w (.run config :: log) = some orch
  once : ∀ c, .run c ∉ log

theorem Tracked.step {config : ExperimentConfig} {orch orch' w : Orchestrate.State} {log : List Orchestrate.Event}
    {ev : Orchestrate.Event} (h : Tracked config orch w log) (hs : Orchestrate.step orch ev = some orch')
    (hev : OrchestrateMain.isRun ev = false) : Tracked config orch' w (log ++ [ev]) := by
  refine ⟨h.numbered, ?_, ?_⟩
  · rw [← List.cons_append]
    exact Transition.run_append_some.mpr ⟨orch, h.run, by rw [Transition.run_cons, hs]; rfl⟩
  · intro c hc
    obtain hc | hc := List.mem_append.mp hc
    · exact h.once c hc
    · cases List.mem_singleton.mp hc
      cases hev

def Done (raw : RawConfig) (m : OrchestrateMain.State) (started : History) : Prop :=
  ∃ x protocol w log, Verified raw m x protocol ∧ started = some (w, log) ∧
    Tracked (x.config protocol) m.orch w log ∧ Returned m.orch

/-- The process of the orchestrator, started on the file `raw`. -/
def Ok (raw : RawConfig) (m : OrchestrateMain.State) (started : History) : Prop :=
  match m.phase with
  | .outside => True
  | .mkdir x _ _ | .copy x _ _ _ _ | .chmod x _ _ _ _ => loadExperiment raw = some x
  | .verify x protocol nodes missing => loadExperiment raw = some x ∧ protocolOf x.protocol = some protocol ∧
      ∃ done, x.nodes = done ++ nodes ∧
        (missing = [] → ∀ node ∈ done, m.executable (node, expectedBinary protocol) = true)
  | .ready x protocol => Verified raw m x protocol
  | .running => ∃ x protocol w log, Verified raw m x protocol ∧ started = some (w, log) ∧
      Tracked (x.config protocol) m.orch w log
  | .exited code => code = 0 → Done raw m started

variable {raw : RawConfig} {m m' : OrchestrateMain.State} {started : History} {x : Experiment}
  {built : String → String → Bool}

theorem ok_verifying (hx : loadExperiment raw = some x) (hp : m.phase = OrchestrateMain.verifying x) :
    Ok raw m started := by
  rw [OrchestrateMain.verifying] at hp
  cases hprotocol : protocolOf x.protocol with
  | none =>
    simp only [hprotocol] at hp
    rw [Ok, hp]
    intro hcode
    cases hcode
  | some protocol =>
    simp only [hprotocol] at hp
    rw [Ok, hp]
    exact ⟨hx, hprotocol, [], rfl, fun _ _ hmem => (by cases hmem)⟩

theorem ok_deploying (hx : loadExperiment raw = some x) {nodes : List NodeConfig}
    (hp : m.phase = OrchestrateMain.deploying x nodes) : Ok raw m started := by
  cases nodes with
  | nil => exact ok_verifying hx hp
  | cons node nodes =>
    rw [Ok, hp]
    exact hx

theorem ok_copying (hx : loadExperiment raw = some x) {node : NodeConfig} {nodes : List NodeConfig}
    {binaries : List String} (hp : m.phase = OrchestrateMain.copying built x node nodes binaries) :
    Ok raw m started := by
  induction binaries with
  | nil => exact ok_deploying hx hp
  | cons binary binaries ih =>
    rw [OrchestrateMain.copying] at hp
    split at hp
    · rw [Ok, hp]
      exact hx
    · exact ih hp

theorem ok_exited {code : Nat} (hp : m.phase = .exited code) (hcode : code ≠ 0) : Ok raw m started := by
  rw [Ok, hp]
  exact fun h => absurd h hcode

theorem ok_verified {protocol : Protocol} (hx : loadExperiment raw = some x)
    (hprotocol : protocolOf x.protocol = some protocol) {done nodes : List NodeConfig} {missing : List String}
    (hnodes : x.nodes = done ++ nodes)
    (hdone : missing = [] → ∀ node ∈ done, m.executable (node, expectedBinary protocol) = true)
    (hp : m.phase = OrchestrateMain.verified x protocol nodes missing) : Ok raw m started := by
  cases nodes with
  | cons node nodes =>
    rw [Ok, hp]
    exact ⟨hx, hprotocol, done, hnodes, hdone⟩
  | nil =>
    cases missing with
    | nil =>
      rw [Ok, hp]
      rw [List.append_nil] at hnodes
      exact ⟨hx, hprotocol, hnodes ▸ hdone rfl⟩
    | cons host missing => exact ok_exited hp (by simp)

theorem background_eq {orch orch' : Orchestrate.State} {ev : Orchestrate.Event}
    (hev : OrchestrateMain.isBackground ev = true) (hs : Orchestrate.step orch ev = some orch') :
    OrchestrateMain.isRun ev = false ∧ orch'.call = orch.call ∧ orch'.files = orch.files := by
  cases move_of_step hs with
  | run hi => cases hev
  | dumpCsv hq => exact ⟨rfl, rfl, rfl⟩
  | exit running leaving hsub => exact ⟨rfl, rfl, rfl⟩
  | @advance c ev orch' hc ha =>
    generalize c.phase = phase at ha
    cases ha <;> cases hev

theorem Done.background (h : Done raw m started) {ev : Orchestrate.Event} {orch : Orchestrate.State}
    (hev : OrchestrateMain.isBackground ev = true) (horch : Orchestrate.step m.orch ev = some orch) :
    Done raw { m with orch := orch } (follow m.orch started (.background ev)) := by
  obtain ⟨x, protocol, w, log, hver, rfl, htrack, hret⟩ := h
  obtain ⟨hrun, hcall, -⟩ := background_eq hev horch
  refine ⟨x, protocol, w, _, ⟨hver.loaded, hver.known, hver.executable⟩, rfl, htrack.step horch hrun, ?_⟩
  rw [Returned, hcall]
  exact hret

/-- One step of the process. A node that fails the test never leaves the list of
the missing ones. -/
theorem ok_step {ev : OrchestrateMain.Event} (h : Ok raw m started) (hnum : Numbered m.orch)
    (hstart : ∀ raw' deploy, ev = .start raw' deploy → raw' = raw)
    (hs : OrchestrateMain.step built m ev = some m') : Ok raw m' (follow m.orch started ev) := by
  cases ev with
  | start raw' deploy =>
    obtain rfl := hstart raw' deploy rfl
    cases hp : m.phase <;> simp only [OrchestrateMain.step, hp, reduceCtorEq] at hs
    all_goals
      cases hx : loadExperiment raw' with
      | none =>
        simp only [hx, Option.some.injEq] at hs
        subst hs
        exact ok_exited rfl (by simp)
      | some x =>
        simp only [hx, Option.some.injEq] at hs
        subst hs
        cases deploy
        · exact ok_verifying hx rfl
        · exact ok_deploying hx (show _ = OrchestrateMain.deploying x x.nodes from rfl)
  | ssh r =>
    cases hp : m.phase <;> simp only [OrchestrateMain.step, hp, Option.some.injEq, reduceCtorEq] at hs
    all_goals
      subst hs
      rw [Ok, hp] at h
      by_cases hr : r = .ok
      · exact ok_copying h (if_pos hr)
      · exact ok_exited (if_neg hr) (by simp)
  | scp ok executable =>
    cases hp : m.phase <;> simp only [OrchestrateMain.step, hp, Option.some.injEq, reduceCtorEq] at hs
    subst hs
    rw [Ok, hp] at h
    cases ok
    · exact ok_exited rfl (by simp)
    · exact h
  | test reached =>
    cases hp : m.phase with
    | verify x protocol nodes missing =>
      cases nodes with
      | nil => simp [OrchestrateMain.step, hp] at hs
      | cons node nodes =>
        simp only [OrchestrateMain.step, hp, Option.some.injEq] at hs
        subst hs
        rw [Ok, hp] at h
        obtain ⟨hx, hprotocol, done, hnodes, hdone⟩ := h
        refine ok_verified hx hprotocol (hnodes.trans (List.append_cons done node nodes)) ?_ rfl
        intro hmissing n hn
        by_cases hfound : (reached && m.executable (node, expectedBinary protocol)) = true
        · rw [if_pos hfound] at hmissing
          obtain hn | hn := List.mem_append.mp hn
          · exact hdone hmissing n hn
          · cases List.mem_singleton.mp hn
            exact (Bool.and_eq_true_iff.mp hfound).2
        · rw [if_neg hfound] at hmissing
          simp at hmissing
    | outside | mkdir | copy | chmod | ready | running | exited => simp [OrchestrateMain.step, hp] at hs
  | call =>
    cases hp : m.phase <;> simp only [OrchestrateMain.step, hp, Option.map_eq_some_iff, reduceCtorEq] at hs
    obtain ⟨orch, horch, rfl⟩ := hs
    rw [Ok, hp] at h
    refine ⟨_, _, m.orch, [], ⟨h.loaded, h.known, h.executable⟩, rfl, hnum, ?_, fun c => List.not_mem_nil⟩
    rw [Transition.run_cons, horch]
    rfl
  | inside ev =>
    cases hp : m.phase <;> simp only [OrchestrateMain.step, hp, Option.ite_none_left_eq_some,
      Option.map_eq_some_iff, Bool.or_eq_true, not_or, Bool.not_eq_true, reduceCtorEq] at hs
    obtain ⟨⟨hrun, -⟩, orch, horch, rfl⟩ := hs
    rw [Ok, hp] at h
    obtain ⟨x, protocol, w, log, hver, rfl, htrack⟩ := h
    rw [Ok]
    exact ⟨x, protocol, w, _, ⟨hver.loaded, hver.known, hver.executable⟩, rfl, htrack.step horch hrun⟩
  | exit =>
    cases hp : m.phase <;> cases hc : m.orch.call <;>
      simp only [OrchestrateMain.step, hp, hc, Option.ite_none_right_eq_some, Option.some.injEq, reduceCtorEq] at hs
    obtain ⟨hover, rfl⟩ := hs
    rw [Ok, hp] at h
    obtain ⟨x, protocol, w, log, hver, hstarted, htrack⟩ := h
    intro hcode
    refine ⟨x, protocol, w, log, ⟨hver.loaded, hver.known, hver.executable⟩, hstarted, htrack, ?_⟩
    rw [OrchestrateMain.exitCode, ite_eq_left_iff] at hcode
    rw [Returned, hc, Option.map_some, Decidable.not_not.mp (fun hne => absurd (hcode hne) (by decide))]
  | background ev =>
    simp only [OrchestrateMain.step, Option.ite_none_right_eq_some, Option.map_eq_some_iff] at hs
    obtain ⟨hback, orch, horch, rfl⟩ := hs
    obtain ⟨hrun, -⟩ := background_eq hback horch
    cases hp : m.phase with
    | outside => simp only [Ok]
    | mkdir | copy | chmod | verify =>
      simp only [Ok, hp] at h ⊢
      exact h
    | ready x protocol =>
      simp only [Ok, hp] at h ⊢
      exact ⟨h.loaded, h.known, h.executable⟩
    | running =>
      simp only [Ok, hp] at h ⊢
      obtain ⟨x, protocol, w, log, hver, rfl, htrack⟩ := h
      exact ⟨x, protocol, w, _, ⟨hver.loaded, hver.known, hver.executable⟩, rfl, htrack.step horch hrun⟩
    | exited code =>
      simp only [Ok, hp] at h ⊢
      exact fun hcode => hp ▸ (h hcode).background hback horch

theorem orch_of_step {ev : OrchestrateMain.Event} (hs : OrchestrateMain.step built m ev = some m') :
    m'.orch = m.orch ∨ ∃ e, Orchestrate.step m.orch e = some m'.orch ∧
      (m.phase = .running ∨ OrchestrateMain.isRun e = true ∨ OrchestrateMain.isBackground e = true) := by
  cases ev with
  | call =>
    cases hp : m.phase <;> simp only [OrchestrateMain.step, hp, Option.map_eq_some_iff, reduceCtorEq] at hs
    obtain ⟨orch, horch, rfl⟩ := hs
    exact .inr ⟨_, horch, .inr (.inl rfl)⟩
  | inside e =>
    cases hp : m.phase <;> simp only [OrchestrateMain.step, hp, Option.ite_none_left_eq_some,
      Option.map_eq_some_iff, reduceCtorEq] at hs
    obtain ⟨-, orch, horch, rfl⟩ := hs
    exact .inr ⟨e, horch, .inl rfl⟩
  | background e =>
    simp only [OrchestrateMain.step, Option.ite_none_right_eq_some, Option.map_eq_some_iff] at hs
    obtain ⟨hback, orch, horch, rfl⟩ := hs
    exact .inr ⟨e, horch, .inr (.inr hback)⟩
  | start raw deploy =>
    cases hp : m.phase <;> simp only [OrchestrateMain.step, hp, reduceCtorEq] at hs
    all_goals
      cases hx : loadExperiment raw <;> simp only [hx, Option.some.injEq] at hs <;> exact .inl (hs ▸ rfl)
  | ssh r =>
    cases hp : m.phase <;> simp only [OrchestrateMain.step, hp, Option.some.injEq, reduceCtorEq] at hs
    all_goals exact .inl (hs ▸ rfl)
  | scp ok executable =>
    cases hp : m.phase <;> simp only [OrchestrateMain.step, hp, Option.some.injEq, reduceCtorEq] at hs
    exact .inl (hs ▸ rfl)
  | test reached =>
    cases hp : m.phase with
    | verify x protocol nodes missing =>
      cases nodes <;> simp only [OrchestrateMain.step, hp, Option.some.injEq, reduceCtorEq] at hs
      exact .inl (hs ▸ rfl)
    | outside | mkdir | copy | chmod | ready | running | exited => simp [OrchestrateMain.step, hp] at hs
  | exit =>
    cases hp : m.phase <;> cases hc : m.orch.call <;>
      simp only [OrchestrateMain.step, hp, hc, Option.ite_none_right_eq_some, Option.some.injEq, reduceCtorEq] at hs
    exact .inl (hs.2 ▸ rfl)

theorem numbered_main {ev : OrchestrateMain.Event} (hnum : Numbered m.orch)
    (hs : OrchestrateMain.step built m ev = some m') : Numbered m'.orch := by
  obtain heq | ⟨e, he, -⟩ := orch_of_step hs
  · rw [heq]
    exact hnum
  · exact numbered_step hnum he

theorem files_main {ev : OrchestrateMain.Event} (h : Ok raw m started)
    (hs : OrchestrateMain.step built m ev = some m') {path : List String}
    (hpath : ∀ x protocol i, loadExperiment raw = some x → path ≠ (x.config protocol).localCsv i) :
    m'.orch.files path = m.orch.files path := by
  obtain heq | ⟨e, he, hkind⟩ := orch_of_step hs
  · rw [heq]
  · generalize m'.orch = after at he
    cases move_of_step he with
    | run hi | dumpCsv hq | exit running leaving hsub => rfl
    | @advance c e orch hc ha =>
      obtain hp | hrun | hback := hkind
      · rw [Ok, hp] at h
        obtain ⟨x, protocol, w, log, hver, -, htrack⟩ := h
        obtain ⟨phase, hcall, -⟩ := (inCall_run htrack.run htrack.once).call
        rw [hc, Option.some.injEq] at hcall
        apply files_advance ha
        intro i _
        rw [hcall]
        exact hpath x protocol i hver.loaded
      · generalize c.phase = phase at ha
        cases ha <;> cases hrun
      · generalize c.phase = phase at ha
        cases ha <;> cases hback

end DcBench.OrchestrateProcess

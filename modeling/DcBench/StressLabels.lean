import DcBench.StressNetem
import DcBench.OrchestrateProcess

namespace DcBench.StressLabels

open DcBench.Lib DcBench.OrchestrateMoves DcBench.Provenance DcBench.OrchestrateProcess DcBench.StressSweep
  DcBench.StressNetem
open DcBench.OrchestrateMain (RawConfig OutputDir Experiment loadExperiment)
open DcBench.Orchestrate (clientDir)

theorem moveDir_append (files : List String → Option Orchestrate.Origin) (src dst rest : List String) :
    moveDir files src dst (dst ++ rest) = files (src ++ rest) := by
  rw [moveDir, if_pos (List.prefix_append dst rest), List.drop_left]

theorem server_of_load {raw : RawConfig} {x : Experiment} {host : String} {base : OutputDir}
    (hx : loadExperiment raw = some x) (hkeys : serverAndBase raw = some (host, base)) :
    x.server.hostname = host ∧ x.outputDir = base := by
  simp only [loadExperiment, OrchestrateMain.RawNode.load, Option.bind_eq_bind, Option.bind_eq_some_iff,
    Option.map_eq_some_iff, Option.pure_def, Option.some.injEq] at hx
  obtain ⟨server, hserver, node, ⟨hostname, hhost, rfl⟩, raws, -, clients, -, name, hname, protocol, -, rfl⟩ := hx
  simp only [serverAndBase, hserver, hname, hhost, Option.bind_eq_bind, Option.bind_some, Option.bind_eq_some_iff,
    Option.pure_def, Option.some.injEq, Prod.mk.injEq] at hkeys
  obtain ⟨user, -, rfl, rfl⟩ := hkeys
  exact ⟨rfl, rfl⟩

variable {F : Type} {rates : Rates F} {built : String → String → Bool} {args : Args F} {s t : State F} {e : Event}

def Opened (args : Args F) (s : State F) : Prop :=
  ∃ raw, args.configs[s.config]? = some raw ∧ serverAndBase raw = some (s.host, s.base)

structure Inv (args : Args F) (s : State F) : Prop where
  numbered : Numbered s.main.orch
  opened : s.phase ≠ .outer → s.phase ≠ .returned → s.phase ≠ .raised → Opened args s
  quiet : s.phase ≠ .process → s.phase ≠ .clear true → s.phase ≠ .raised → s.main.phase = .outside
  process : s.phase = .process → ∀ raw, args.configs[s.config]? = some raw → Ok raw s.main s.started
  moving : s.phase = .move → ∀ raw, args.configs[s.config]? = some raw → Done raw s.main s.started

theorem inv_of_outside (hnum : Numbered t.main.orch) (hout : t.main.phase = .outside) (hmove : t.phase ≠ .move)
    (hopened : t.phase ≠ .outer → t.phase ≠ .returned → t.phase ≠ .raised → Opened args t) : Inv args t := by
  refine ⟨hnum, hopened, fun _ _ _ => hout, ?_, fun hp => absurd hp hmove⟩
  intro _ raw _
  rw [Ok, hout]
  trivial

theorem inv_of_raising (hnum : Numbered t.main.orch) (hp : t.phase = .clear true ∨ t.phase = .raised)
    (hopened : t.phase ≠ .raised → Opened args t) : Inv args t := by
  refine ⟨hnum, fun _ _ => hopened, ?_, ?_, ?_⟩
  · intro _ hclear hraised
    exact absurd hp (not_or.mpr ⟨hclear, hraised⟩)
  · intro hprocess
    simp [hprocess] at hp
  · intro hmove
    simp [hmove] at hp

theorem inv_step (h : Inv args s) (hs : Stepped rates built args s e t) : Inv args t := by
  have hopen (phase : Phase) (hp : s.phase = phase) (hne : phase ≠ .outer ∧ phase ≠ .returned ∧ phase ≠ .raised) :
      Opened args s := by
    subst hp
    exact h.opened hne.1 hne.2.1 hne.2.2
  have hquiet (phase : Phase) (hp : s.phase = phase)
      (hne : phase ≠ .process ∧ phase ≠ .clear true ∧ phase ≠ .raised) : s.main.phase = .outside := by
    subst hp
    exact h.quiet hne.1 hne.2.1 hne.2.2
  cases hs with
  | finish hp => exact inv_of_outside h.numbered (hquiet _ hp (by simp)) (by simp) (by simp)
  | keyError hp | noIface hp iface => exact inv_of_raising h.numbered (.inr rfl) (by simp)
  | @opened hp raw hraw host base hkeys phase iface hphase =>
    refine inv_of_outside h.numbered (hquiet _ hp (by simp)) ?_ (fun _ _ _ => ⟨raw, hraw, hkeys⟩)
    obtain rfl | rfl := hphase
    · simp
    · simp
  | detected hp iface =>
    exact inv_of_outside h.numbered (hquiet _ hp (by simp)) (by simp) (fun _ _ _ => hopen _ hp (by simp))
  | nextConfig hp => exact inv_of_outside h.numbered (hquiet _ hp (by simp)) (by simp) (by simp)
  | enter hp hloss =>
    exact inv_of_outside h.numbered (hquiet _ hp (by simp)) (by simp) (fun _ _ _ => hopen _ hp (by simp))
  | @del hp loss hloss ran =>
    have hout := hquiet _ hp (by simp)
    have hopened := hopen _ hp (by simp)
    cases ran
    · exact inv_of_outside h.numbered hout (by split <;> simp) (fun _ _ _ => hopened)
    · exact inv_of_outside h.numbered hout (by dsimp only; split <;> simp) (fun _ _ _ => hopened)
  | added hp hloss hfree =>
    exact inv_of_outside h.numbered (hquiet _ hp (by simp)) (by simp) (fun _ _ _ => hopen _ hp (by simp))
  | addFails hp hloss applied =>
    have hopened := hopen _ hp (by simp)
    cases applied
    · exact inv_of_raising h.numbered (.inl rfl) (fun _ => hopened)
    · exact inv_of_raising h.numbered (.inl rfl) (fun _ => hopened)
  | process he hp hraw hstart hs =>
    obtain ⟨main, hmain, rfl⟩ := process_eq hs
    refine ⟨numbered_main h.numbered hmain, h.opened, fun hne => absurd hp hne, ?_, ?_⟩
    · intro _ raw' hraw'
      have hsame := Option.some.inj (hraw.symm.trans hraw')
      exact ok_step (h.process hp raw' hraw') h.numbered (fun r d he => (hstart r d he).trans hsame) hmain
    · intro hmove
      exact absurd (hp.symm.trans hmove) (by simp)
  | @background ev t hs =>
    obtain ⟨main, hmain, rfl⟩ := process_eq hs
    have hnum := numbered_main h.numbered hmain
    have hok := hmain
    simp only [OrchestrateMain.step, Option.ite_none_right_eq_some, Option.map_eq_some_iff] at hmain
    obtain ⟨hback, orch, horch, rfl⟩ := hmain
    refine ⟨hnum, h.opened, h.quiet, ?_, ?_⟩
    · intro hp raw hraw
      exact ok_step (h.process hp raw hraw) h.numbered (by simp) hok
    · intro hp raw hraw
      exact (h.moving hp raw hraw).background hback horch
  | @exited hp code hm =>
    have hopened := hopen _ hp (by simp)
    by_cases hcode : code = 0
    · simp only [hcode, if_true]
      refine ⟨h.numbered, fun _ _ _ => hopened, fun _ _ _ => rfl, fun hp => (by cases hp), ?_⟩
      intro _ raw hraw
      have hok := h.process hp raw hraw
      rw [Ok, hm] at hok
      obtain ⟨x, protocol, w, log, hver, hstarted, htrack, hret⟩ := hok hcode
      exact ⟨x, protocol, w, log, ⟨hver.loaded, hver.known, hver.executable⟩, hstarted, htrack, hret⟩
    · simp only [hcode, if_false]
      exact inv_of_outside h.numbered rfl (by simp) (fun _ _ _ => hopened)
  | stopped hp => exact inv_of_raising h.numbered (.inr rfl) (by simp)
  | interrupt hp phase =>
    refine inv_of_raising h.numbered (.inl rfl) (fun _ => ?_)
    obtain hp | hp | hp | hp := hp
    all_goals exact hopen _ hp (by simp)
  | moved hp hloss hslash =>
    exact inv_of_outside ⟨h.numbered.call, h.numbered.running, h.numbered.remote⟩ (hquiet _ hp (by simp)) (by simp)
      (fun _ _ _ => hopen _ hp (by simp))
  | moveFails hr hp files =>
    exact inv_of_raising ⟨h.numbered.call, h.numbered.running, h.numbered.remote⟩ (.inl rfl)
      (fun _ => hopen _ hp (by simp))
  | @clear raising hp ran interrupted leaves hleaves =>
    cases leaves with
    | true => cases ran <;> exact inv_of_raising h.numbered (.inr rfl) (by simp)
    | false =>
      obtain ⟨rfl, -⟩ := Bool.or_eq_false_iff.mp hleaves.symm
      have hopened := hopen _ hp (by simp)
      have hout := hquiet _ hp (by simp)
      cases ran <;> exact inv_of_outside h.numbered hout (by simp) (fun _ _ _ => hopened)

theorem moved_of_step (h : step rates built args s (.move .moved) = some t) : s.phase = .move ∧
    ∃ loss, args.loss[s.rate]? = some loss ∧ t.files = moveDir s.files s.base.path (dest s.base (rates.tag loss)) := by
  cases stepped_of_step h with
  | moved hp hloss hslash => exact ⟨hp, _, hloss, rfl⟩
  | moveFails hr hp files => exact absurd rfl hr

/-- The results that a turn leaves under the name of its loss rate. They come from
an experiment of the turn's file, which has found its binary on every node and
has returned; a positive rate was in force on its server; and the file of each
client is of that experiment exactly when the client has delivered its results,
so that else it is of an earlier experiment and can be of another rate. -/
theorem moved_results_labelled (rates : Rates F) (built : String → String → Bool) (args : Args F)
    (qdisc : String × String → Option F) (main : OrchestrateMain.State) (hnum : Numbered main.orch)
    (hout : main.phase = .outside) (es : List Event) (s t : State F)
    (hr : Transition.run (step rates built args) (start qdisc main) es = some s)
    (hm : step rates built args s (.move .moved) = some t) :
    ∃ loss raw x protocol w log, args.loss[s.rate]? = some loss ∧ args.configs[s.config]? = some raw ∧
      Verified raw s.main x protocol ∧ x.server.hostname = s.host ∧
      (rates.positive loss = true → s.qdisc (x.server.hostname, s.iface) = some loss) ∧
      s.started = some (w, log) ∧ Tracked (x.config protocol) s.main.orch w log ∧
      (∀ i node, x.clients[i]? = some node →
        (t.files (dest x.outputDir (rates.tag loss) ++ [clientDir i, "latency.csv"]) = some ⟨w.experiments, i⟩ ↔
          Delivered w.experiments i node log)) ∧
      (Clean (x.config protocol) w → ∀ path, IsLatencyCsv (dest x.outputDir (rates.tag loss)) path →
        (t.files path).isSome → ∃ i < x.clients.length,
          path = dest x.outputDir (rates.tag loss) ++ [clientDir i, "latency.csv"]) := by
  have hstart : Inv args (start qdisc main) := inv_of_outside hnum hout (by simp [start]) (by simp [start])
  have hinv : Inv args s := Transition.invariant (fun _ _ _ h hs => inv_step h (stepped_of_step hs)) hstart hr
  obtain ⟨hp, loss, hloss, hfiles⟩ := moved_of_step hm
  obtain ⟨raw, hraw, hkeys⟩ := hinv.opened (by simp [hp]) (by simp [hp]) (by simp [hp])
  obtain ⟨x, protocol, w, log, hver, hstarted, htrack, hret⟩ := hinv.moving hp raw hraw
  obtain ⟨hhost, hbase⟩ := server_of_load hver.loaded hkeys
  have hfile (rest : List String) : t.files (dest x.outputDir (rates.tag loss) ++ rest) =
      s.main.orch.files (x.outputDir.path ++ rest) := by
    rw [hfiles, hbase, moveDir_append]
    rfl
  refine ⟨loss, raw, x, protocol, w, log, hloss, hraw, hver, hhost, ?_, hstarted, htrack, ?_, ?_⟩
  · intro hpos
    rw [hhost]
    exact (inForce_run hr).impaired (by rw [hp]; rfl) loss hloss hpos
  · intro i node hnode
    rw [hfile]
    exact file_iff_delivered htrack.numbered htrack.run htrack.once hret hnode
  · rintro hclean path ⟨below, rfl⟩ hsome
    rw [List.append_assoc, hfile] at hsome
    have hclean' := (clean_iff_of_inCall (inCall_run htrack.run htrack.once)).mpr hclean
    obtain ⟨i, hi, heq⟩ := hclean' _ ⟨below, (List.append_assoc _ _ _).symm⟩ hsome
    refine ⟨i, hi, ?_⟩
    rw [List.append_assoc, List.append_cancel_left heq]

def inProcess (ev : Orchestrate.Event) : Event :=
  .process (if OrchestrateMain.isBackground ev then .background ev else .inside ev)

def measured : List Event := impairing ++ (called (writing 0)).map inProcess ++ [.process .exit, .exited]

def nextTurn (client : List Orchestrate.Event) : List Event :=
  [.move .moved, .clear true false, .next, .del true, .process (.start pairFile false), .process (.test true),
    .process (.test true), .process .call] ++ (called client).map inProcess ++ [.process .exit, .exited]

theorem measured_labelled : ∃ s t, Transition.run (step percents (fun _ _ => true) pairArgs)
    (start (fun _ => none) deployed) measured = some s ∧
    step percents (fun _ _ => true) pairArgs s (.move .moved) = some t ∧
    t.files ["results", "pair_loss5p0", "client_0", "latency.csv"] = some ⟨0, 0⟩ ∧
    ∃ raw x protocol, pairArgs.configs[s.config]? = some raw ∧ Verified raw s.main x protocol ∧
      s.qdisc (x.server.hostname, s.iface) = some 5 := by
  have hrate : (Transition.run (step percents (fun _ _ => true) pairArgs) (start (fun _ => none) deployed)
      measured).map State.rate = some 0 := by decide +kernel
  have hrun : (Transition.run (step percents (fun _ _ => true) pairArgs) (start (fun _ => none) deployed)
      (measured ++ [.move .moved])).map (fun t => t.files ["results", "pair_loss5p0", "client_0", "latency.csv"]) =
      some (some ⟨0, 0⟩) := by decide +kernel
  obtain ⟨t, ht, hfile⟩ := Option.map_eq_some_iff.mp hrun
  obtain ⟨s, hs, hlast⟩ := Transition.run_append_some.mp ht
  obtain ⟨t', hstep, ht'⟩ := Transition.run_cons_some.mp hlast
  cases ht'
  rw [hs, Option.map_some, Option.some.injEq] at hrate
  obtain ⟨loss, raw, x, protocol, w, log, hloss, hraw, hver, -, hforce, -⟩ :=
    moved_results_labelled _ _ _ _ _ numbered_fresh rfl _ s t hs hstep
  obtain rfl : (5 : Nat) = loss := by
    rw [hrate] at hloss
    exact Option.some.inj hloss
  exact ⟨s, t, hs, hstep, hfile, raw, x, protocol, hraw, hver, hforce rfl⟩

/-- In the turn of 0 % the client ends without results. What is then moved to the
directory of that rate was measured at 5 %. -/
example : (Transition.run (step percents (fun _ _ => true) pairArgs)
    (start (fun _ => none) deployed) (measured ++ nextTurn [.exit (client 1)] ++ [.move .moved])).map
    (fun t => t.files ["results", "pair_loss0p0", "client_0", "latency.csv"]) = some (some ⟨0, 0⟩) := by decide +kernel

end DcBench.StressLabels

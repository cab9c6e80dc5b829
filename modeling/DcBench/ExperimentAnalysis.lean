import DcBench.Provenance
import DcBench.ResultTotals
import DcBench.CompareExperiments

namespace DcBench.ExperimentAnalysis

open DcBench.Lib DcBench.Accounts DcBench.Analyze DcBench.Orchestrate DcBench.Provenance
open DcBench.CompareExperiments (fileSamples clientStats merged_eq_some_iff)
open DcBench.LatencyHistogram (Op dumpCsv added)

/-- The result directory `out` as `analyze_experiment` finds it: its
subdirectories, each with the text of its `latency.csv` if there is one. -/
structure Lists (csv : Origin → List Char) (files : List String → Option Origin) (out : List String)
    (dir : ResultDir) : Prop where
  nodup : (dir.clients.map Prod.fst).Nodup
  text : ∀ entry ∈ dir.clients, entry.2 = (files (out ++ [entry.1, "latency.csv"])).map csv
  all : ∀ name, (files (out ++ [name, "latency.csv"])).isSome → name ∈ dir.clients.map Prod.fst

/-- The file of a client holds what its run has left in `latency`. -/
def Wrote (text : List Char) (r : BenchmarkResult) : Prop :=
  ∃ ops : List Op, text = (dumpCsv (LatencyHistogram.run ops)).2 ∧ (added ops : Multiset UInt64) = r.samples

/-- The samples of the requests that are counted, as the analysis reads them. -/
def samplesOf (es : Multiset Entry) : Multiset Int := (es.filterMap Entry.sample).map (fun x => (x.toNat : Int))

theorem load_of_wrote {text : List Char} {r : BenchmarkResult} (h : Wrote text r) :
    ∃ ns, LatencyCsv.Analyze.loadLatencyCsv text = some ns ∧ (ns : Multiset Int) = r.samples.map (fun x => (x.toNat : Int)) := by
  obtain ⟨ops, rfl, hadded⟩ := h
  rw [LatencyCsv.dumpCsv_run]
  refine ⟨_, LatencyCsv.latenciesNs_csvText _, ?_⟩
  rw [← hadded, Multiset.map_coe]
  exact Multiset.coe_eq_coe.mpr ((OrderStatistic.sort_perm (added ops)).map _)

theorem clientDir_inj {i j : Nat} (h : clientDir i = clientDir j) : i = j := by
  apply toString_inj
  exact (String.append_right_inj _).mp h

variable {csv : Origin → List Char} {files : List String → Option Origin} {config : ExperimentConfig} {dir : ResultDir}
  {experiment : Nat}

theorem latencyFiles_perm (hdir : Lists csv files config.outputDir dir)
    (hnames : ∀ name, (files (config.outputDir ++ [name, "latency.csv"])).isSome →
      ∃ i < config.clients.length, name = clientDir i)
    (hwriters : ∀ i < config.clients.length, files (config.localCsv i) = some ⟨experiment, i⟩) :
    dir.latencyFiles.Perm ((List.range config.clients.length).map (fun i => (clientDir i, csv ⟨experiment, i⟩))) := by
  have hnodup : (dir.latencyFiles.map Prod.fst).Nodup := by
    refine hdir.nodup.sublist ?_
    rw [ResultDir.latencyFiles, List.map_filterMap]
    have hname : (fun entry : String × Option (List Char) => Option.map Prod.fst (entry.2.map (fun text => (entry.1, text)))) =
        fun entry => entry.2.map (fun _ => entry.1) := by
      funext entry
      rw [Option.map_map]
      rfl
    rw [hname]
    induction dir.clients with
    | nil => exact .slnil
    | cons entry entries ih =>
      cases htext : entry.2 with
      | none => simpa [htext] using ih.cons entry.1
      | some text => simpa [htext] using ih.cons_cons entry.1
  have hrange : ((List.range config.clients.length).map (fun i => (clientDir i, csv ⟨experiment, i⟩))).Nodup := by
    refine List.nodup_range.map ?_
    intro i j heq
    exact clientDir_inj (Prod.mk.inj heq).1
  refine (List.perm_ext_iff_of_nodup hnodup.of_map hrange).mpr ?_
  intro file
  constructor
  · intro hfile
    obtain ⟨entry, hentry, heq⟩ := List.mem_filterMap.mp hfile
    obtain ⟨text, htext, rfl⟩ := Option.map_eq_some_iff.mp heq
    have hread := hdir.text entry hentry
    rw [htext] at hread
    obtain ⟨o, ho, rfl⟩ := Option.map_eq_some_iff.mp hread.symm
    obtain ⟨i, hi, hname⟩ := hnames entry.1 (by rw [ho]; rfl)
    have hwriter := hwriters i hi
    rw [ExperimentConfig.localCsv, ← hname, ho, Option.some.injEq] at hwriter
    refine List.mem_map.mpr ⟨i, List.mem_range.mpr hi, ?_⟩
    rw [hname, hwriter]
  · intro hfile
    obtain ⟨i, hi, rfl⟩ := List.mem_map.mp hfile
    have hwriter := hwriters i (List.mem_range.mp hi)
    rw [ExperimentConfig.localCsv] at hwriter
    obtain ⟨entry, hentry, hname⟩ := List.mem_map.mp (hdir.all (clientDir i) (by rw [hwriter]; rfl))
    have htext := hdir.text entry hentry
    rw [hname, hwriter] at htext
    refine List.mem_filterMap.mpr ⟨entry, hentry, ?_⟩
    rw [htext, hname]
    rfl

theorem analyze_clients (std : List ℚ → ℚ) {n : Nat} (hn : 0 < n) {texts : Nat → List Char}
    {results : Nat → BenchmarkResult} (hwrote : ∀ i < n, Wrote (texts i) (results i))
    (hfiles : dir.latencyFiles.Perm ((List.range n).map (fun i => (clientDir i, texts i)))) :
    ∃ ns perClient, analyzeExperiment std dir = some (some ⟨computeStats std ns, perClient⟩) ∧
      (ns : Multiset Int) = ∑ i ∈ Finset.range n, (results i).samples.map (fun x => (x.toNat : Int)) ∧
      perClient.length = n ∧
      ∀ i < n, ∃ own : List Int, (clientDir i, computeStats std own) ∈ perClient ∧
        (own : Multiset Int) = (results i).samples.map (fun x => (x.toNat : Int)) := by
  have hsources : sources dir = dir.latencyFiles := by
    rw [sources, if_neg]
    intro hnil
    have hlen := hfiles.length_eq
    rw [hnil, List.length_nil, List.length_map, List.length_range] at hlen
    omega
  have hload (i : Nat) (hi : i < n) : LatencyCsv.Analyze.loadLatencyCsv (texts i) = some (fileSamples (texts i)) ∧
      (fileSamples (texts i) : Multiset Int) = (results i).samples.map (fun x => (x.toNat : Int)) := by
    obtain ⟨ns, hns, heq⟩ := load_of_wrote (hwrote i hi)
    rw [fileSamples, hns, Option.getD_some]
    exact ⟨rfl, heq⟩
  have hmerged : merged dir = some ((sources dir).flatMap (fun file => fileSamples file.2)) := by
    refine merged_eq_some_iff.mpr ⟨?_, rfl⟩
    intro file hfile
    rw [hsources] at hfile
    obtain ⟨i, hi, rfl⟩ := List.mem_map.mp (hfiles.mem_iff.mp hfile)
    exact (hload i (List.mem_range.mp hi)).1
  have hne : sources dir ≠ [] := by
    intro hnil
    have hlen := hfiles.length_eq
    rw [← hsources, hnil, List.length_nil, List.length_map, List.length_range] at hlen
    omega
  refine ⟨(sources dir).flatMap (fun file => fileSamples file.2), clientStats std dir, ?_, ?_, ?_, ?_⟩
  · rw [CompareExperiments.analyzeExperiment_eq std hmerged, if_neg hne]
  · have hperm := hfiles.flatMap_right (fun file => fileSamples file.2)
    rw [hsources, Multiset.coe_eq_coe.mpr hperm, List.flatMap_map]
    have hsum (m : Nat) (hm : m ≤ n) : ((List.range m).flatMap (fun i => fileSamples (texts i)) : Multiset Int) =
        ∑ i ∈ Finset.range m, (results i).samples.map (fun x => (x.toNat : Int)) := by
      induction m with
      | zero => rfl
      | succ m ih =>
        rw [List.range_succ, List.flatMap_append, ← Multiset.coe_add, ih (by omega), Finset.sum_range_succ]
        simp [(hload m (by omega)).2]
    exact hsum n (Nat.le_refl n)
  · rw [clientStats, List.length_map, hsources, hfiles.length_eq, List.length_map, List.length_range]
  · intro i hi
    refine ⟨fileSamples (texts i), ?_, (hload i hi).2⟩
    rw [clientStats, hsources]
    refine List.mem_map.mpr ⟨(clientDir i, texts i), ?_, rfl⟩
    exact hfiles.mem_iff.mpr (List.mem_map.mpr ⟨i, List.mem_range.mpr hi, rfl⟩)

variable {s t : State} {es : List Event}

theorem writer_of_delivered (ht : Transition.run step s (.run config :: es) = some t) (hd : ∀ c, .run c ∉ es)
    (hret : Returned t) {i : Nat} {node : NodeConfig} (hnode : config.clients[i]? = some node)
    (hdel : Delivered s.experiments i node es) : t.files (config.localCsv i) = some ⟨s.experiments, i⟩ := by
  obtain ⟨phase, hc, hcol⟩ := (inCall_run ht hd).call
  have hphase : phase = .returned := by simpa [Returned, hc] using hret
  subst hphase
  have hcopied := (hcol (by simp)).copied i node hnode (lt_length_of_client hnode)
  rw [hcopied.2, LastWrite.replay_eq_some_iff]
  exact .inl (lastWrites_iff_delivered.mpr hdel)

theorem count_of_computeStats {std : List ℚ → ℚ} {ns : List Int} {stats : Stats} (h : computeStats std ns = some stats) :
    stats.count = ns.length := by
  simp only [computeStats, Option.bind_eq_bind, Option.bind_eq_some_iff, Option.some.injEq] at h
  obtain ⟨_, -, _, -, _, -, _, -, _, -, _, -, rfl⟩ := h
  exact List.length_map _

/-- From the runs of the clients to the table of `analyze.py`. When the call of the
orchestrator returns, its directory held no other results and each client has
delivered, the aggregate is made of the samples of all counted requests of all
clients, each once, and each client's own row of its own samples. -/
theorem analysis_of_experiment (std : List ℚ → ℚ) (cfg : Workload.WorkloadConfig) (config : ExperimentConfig)
    (s t : State) (es : List Event) (ht : Transition.run step s (.run config :: es) = some t)
    (hd : ∀ c, .run c ∉ es) (hret : Returned t) (hclean : Clean config s)
    (hdel : ∀ i node, config.clients[i]? = some node → Delivered s.experiments i node es)
    (hclients : config.clients ≠ []) (results : Nat → BenchmarkResult) (entries : Nat → Multiset Entry)
    (hruns : ∀ i < config.clients.length, ResultTotals.Run cfg (results i) (entries i)) (csv : Origin → List Char)
    (hwrote : ∀ i < config.clients.length, Wrote (csv ⟨s.experiments, i⟩) (results i)) (dir : ResultDir)
    (hdir : Lists csv t.files config.outputDir dir) :
    ∃ ns perClient, analyzeExperiment std dir = some (some ⟨computeStats std ns, perClient⟩) ∧
      (ns : Multiset Int) = ∑ i ∈ Finset.range config.clients.length, samplesOf (entries i) ∧
      (∀ stats, computeStats std ns = some stats →
        stats.count = ∑ i ∈ Finset.range config.clients.length, (results i).totalRequests) ∧
      perClient.length = config.clients.length ∧
      ∀ i < config.clients.length, ∃ own : List Int, (clientDir i, computeStats std own) ∈ perClient ∧
        (own : Multiset Int) = samplesOf (entries i) := by
  have hwriters (i : Nat) (hi : i < config.clients.length) :
      t.files (config.localCsv i) = some ⟨s.experiments, i⟩ := by
    have hnode := List.getElem?_eq_getElem hi
    exact writer_of_delivered ht hd hret hnode (hdel i _ hnode)
  have hnames (name : String) (hsome : (t.files (config.outputDir ++ [name, "latency.csv"])).isSome) :
      ∃ i < config.clients.length, name = clientDir i := by
    obtain ⟨i, hi, heq⟩ := (clean_iff_of_inCall (inCall_run ht hd)).mpr hclean _ ⟨[name], by simp⟩ hsome
    exact ⟨i, hi, (List.cons.inj (List.append_cancel_left heq)).1⟩
  have hsamples (i : Nat) (hi : i < config.clients.length) :
      (results i).samples.map (fun x => (x.toNat : Int)) = samplesOf (entries i) := by
    rw [samplesOf, (ResultTotals.books_of_run (hruns i hi)).samples]
  obtain ⟨ns, perClient, hanalyze, hns, hlen, hown⟩ := analyze_clients std (List.length_pos_iff.mpr hclients) hwrote
    (latencyFiles_perm hdir hnames hwriters)
  refine ⟨ns, perClient, hanalyze, ?_, ?_, hlen, ?_⟩
  · rw [hns]
    exact Finset.sum_congr rfl (fun i hi => hsamples i (Finset.mem_range.mp hi))
  · intro stats hstats
    rw [count_of_computeStats hstats, ← Multiset.coe_card, hns, Multiset.card_sum]
    exact Finset.sum_congr rfl (fun i _ => Multiset.card_map _ _)
  · intro i hi
    obtain ⟨own, hmem, heq⟩ := hown i hi
    exact ⟨own, hmem, heq.trans (hsamples i hi)⟩

def trio : ExperimentConfig := ⟨.tcp, node0, [node1, ⟨"node2", "root"⟩], ["results", "trio"]⟩

def trioClient (i : Nat) : Client := ⟨⟨0, i⟩, .tcp, if i = 0 then node1 else ⟨"node2", "root"⟩⟩

/-- The second client is the first to write its results. -/
def trioCall : List Event :=
  [.startServer .ok, .detectIp, .startClient .ok, .startClient .ok, .dumpCsv (trioClient 1), .dumpCsv (trioClient 0),
    .exit (trioClient 0), .pgrep true, .catLog, .exit (trioClient 1), .pgrep true, .catLog, .pkill true, .makedirs true,
    .makedirs true, .copyCsv 0 .copied, .makedirs true, .copyCsv 1 .copied, .copyServerLog true]

def trioSamples (i : Nat) : List UInt64 := if i = 0 then [4, 2] else [5, 5]

def trioEntries (i : Nat) : List Entry := (trioSamples i).map (fun rtt => ⟨0, true, some rtt⟩)

def trioCsv (o : Origin) : List Char := (dumpCsv (LatencyHistogram.run [.addSamples (trioSamples o.index)])).2

def trioDir : ResultDir :=
  ⟨[("client_1", some (trioCsv ⟨0, 1⟩)), ("client_0", some (trioCsv ⟨0, 0⟩)), ("plots", none)], []⟩

theorem analysis_of_trio : ∃ t, Transition.run step fresh (.run trio :: trioCall) = some t ∧
    ∃ ns perClient, analyzeExperiment (fun _ => 0) trioDir =
      some (some ⟨computeStats (fun _ => 0) ns, perClient⟩) ∧ ns.Perm [4, 2, 5, 5] ∧ perClient.length = 2 ∧
      ∃ own, ("client_1", computeStats (fun _ => 0) own) ∈ perClient ∧ own.Perm [5, 5] := by
  have hrun : (Transition.run step fresh (.run trio :: trioCall)).map (fun t => decide (Returned t)) = some true := by
    decide +kernel
  obtain ⟨t, ht, hret⟩ := Option.map_eq_some_iff.mp hrun
  have hret := of_decide_eq_true hret
  have hd (c : ExperimentConfig) : .run c ∉ trioCall := by simp [trioCall]
  have hclean : Clean trio fresh := fun path _ hsome => by cases hsome
  have hdel (i : Nat) (node : NodeConfig) (hnode : trio.clients[i]? = some node) :
      Delivered fresh.experiments i node trioCall := by
    cases i with
    | zero =>
      cases hnode
      exact ⟨trioCall.take 5, trioClient 0, (trioCall.drop 6).take 9, rfl, rfl, rfl, by simp [trioCall]⟩
    | succ i =>
      cases i with
      | zero =>
        cases hnode
        exact ⟨trioCall.take 4, trioClient 1, (trioCall.drop 5).take 12, rfl, rfl, rfl,
          by simp [trioCall, trioClient, node1]⟩
      | succ i => cases hnode
  have hruns (i : Nat) (hi : i < 2) :
      ResultTotals.Run ⟨0, 2⟩ ⟨(trioSamples i : Multiset UInt64), 44⟩ (trioEntries i : Multiset Entry) := by
    obtain rfl | rfl : i = 0 ∨ i = 1 := by omega
    · exact ResultTotals.run_of_outcome (ResultTotals.answered 7 ++ ResultTotals.answered 9 ++ [.worker 0 .next])
        (by decide +kernel)
    · exact ResultTotals.run_of_outcome (ResultTotals.answered 8 ++ ResultTotals.answered 13 ++ [.worker 0 .next])
        (by decide +kernel)
  have hdir : Lists trioCsv t.files trio.outputDir trioDir := by
    have hfile (i : Nat) (node : NodeConfig) (hnode : trio.clients[i]? = some node) :
        t.files (trio.localCsv i) = some ⟨0, i⟩ := writer_of_delivered ht hd hret hnode (hdel i node hnode)
    have hnames (name : String) (hsome : (t.files (trio.outputDir ++ [name, "latency.csv"])).isSome) :
        name = "client_0" ∨ name = "client_1" := by
      obtain ⟨i, hi, heq⟩ := (clean_iff_of_inCall (inCall_run ht hd)).mpr hclean _ ⟨[name], by simp⟩ hsome
      rw [(List.cons.inj (List.append_cancel_left heq)).1]
      obtain rfl | rfl : i = 0 ∨ i = 1 := by
        have hi' : i < 2 := hi
        omega
      · exact .inl rfl
      · exact .inr rfl
    refine ⟨by decide, ?_, ?_⟩
    · intro entry hentry
      simp only [trioDir, List.mem_cons, List.not_mem_nil, or_false] at hentry
      obtain rfl | rfl | rfl := hentry
      · change _ = Option.map _ (t.files (trio.localCsv 1))
        rw [hfile 1 _ rfl]
        rfl
      · change _ = Option.map _ (t.files (trio.localCsv 0))
        rw [hfile 0 _ rfl]
        rfl
      · cases hplots : t.files (trio.outputDir ++ ["plots", "latency.csv"]) with
        | none => simp only [Option.map_none]
        | some o => exact absurd (hnames "plots" (by rw [hplots]; rfl)) (by decide)
    · intro name hsome
      obtain rfl | rfl := hnames name hsome
      · decide
      · decide
  obtain ⟨ns, perClient, hanalyze, hns, -, hlen, hown⟩ := analysis_of_experiment (fun _ => 0) ⟨0, 2⟩ trio fresh t
    trioCall ht hd hret hclean hdel (by decide) _ _ hruns trioCsv (fun i _ => ⟨[.addSamples (trioSamples i)], rfl,
      congrArg Multiset.ofList ((LatencyHistogram.added_concat [] (.addSamples (trioSamples i))).trans (if_neg (by simp)))⟩)
    trioDir hdir
  obtain ⟨own, hmem, howned⟩ := hown 1 (by decide)
  refine ⟨t, ht, ns, perClient, hanalyze, Multiset.coe_eq_coe.mp (hns.trans ?_), hlen, own, hmem,
    Multiset.coe_eq_coe.mp (howned.trans ?_)⟩
  · exact Finset.sum_range_succ _ _
  · rfl

end DcBench.ExperimentAnalysis

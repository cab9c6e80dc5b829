import DcBench.FaninExperiment

namespace DcBench.FaninAgreement

open DcBench.Lib DcBench.FaninReport DcBench.MakePlots DcBench.FaninExperiment

theorem protos_eq : protos = configs := rfl

theorem nodup_labels : (configs.map Config.label).Nodup := by decide

theorem poolSize_pos {config : Config} (h : config ∈ configs) : 0 < config.poolSize := by
  simp only [configs, List.mem_cons, List.not_mem_nil, or_false] at h
  obtain rfl | rfl | rfl := h
  · decide
  · decide
  · decide

theorem find_label {config : Config} (h : config ∈ configs) :
    configs.find? (fun c => c.label = config.label) = some config :=
  (Partition.find_eq_some_iff_of_nodup nodup_labels config.label config).mpr ⟨h, rfl⟩

def expAt (results : Results) (trial : Int) (config : Config) (fi : Int) : Option Experiment :=
  (results.trialRoot trial).bind (fun root => expDir root config fi)

theorem positive_expAt {results : Results} (hpos : Positive results) {trial fi : Int} {config : Config}
    {exp : Experiment} (h : expAt results trial config fi = some exp) : PositiveExperiment exp := by
  obtain ⟨root, hroot, hexp⟩ := Option.bind_eq_some_iff.mp h
  obtain ⟨dir, hdir, hname⟩ := Option.bind_eq_some_iff.mp hexp
  exact hpos _ root _ dir _ exp hroot hdir hname

variable {K : Type} [Field K] [LinearOrder K] (std : List K → K)

def rowAt (results : Results) (trial : Int) (config : Config) (fi : Int) : Option (Row K) :=
  (expAt results trial config fi).bind (fun exp => collectRow std (samples K exp) config.poolSize)

def plotAt (results : Results) (trial : Int) (config : Config) (fi : Int) : Option (PlotRow K) :=
  (expAt results trial config fi).bind (fun exp =>
    if samples K exp = [] then none
    else some ⟨plotMetric std (allUs exp) (tputs exp config.poolSize), (PythonData.keys (samples K exp)).length⟩)

def tableAt (results : Results) (fanIns : List Int) (trial : Int) : Table K :=
  (fanIns.flatMap (fun fi => configs.map (fun config => (config, fi)))).map
    (fun cell => ((cell.1.label, cell.2), rowAt std results trial cell.1 cell.2))

theorem collectOneTrial_eq {results : Results} (hpos : Positive results) (trial : Int) (fanIns : List Int) :
    collectOneTrial std results trial fanIns = some (tableAt std results fanIns trial) := by
  apply PythonData.mapM_eq_map
  rintro ⟨config, fi⟩ _
  have hexp : (results.trialRoot trial).bind (fun root => expDir root config fi) = expAt results trial config fi := rfl
  simp only [hexp, rowAt]
  cases h : expAt results trial config fi with
  | none => rfl
  | some exp =>
    rw [perClientSamples_eq (positive_expAt hpos h)]
    rfl

theorem mem_keys_tableAt (results : Results) (fanIns : List Int) (trial : Int) {config : Config}
    (hconfig : config ∈ configs) (fi : Int) :
    (config.label, fi) ∈ (tableAt std results fanIns trial).map Prod.fst ↔ fi ∈ fanIns := by
  simp only [tableAt, List.mem_map, List.mem_flatMap]
  constructor
  · rintro ⟨_, ⟨_, ⟨fi', hfi', c, _, rfl⟩, rfl⟩, heq⟩
    exact (Prod.mk.inj heq).2 ▸ hfi'
  · intro hfi
    exact ⟨_, ⟨_, ⟨fi, hfi, config, hconfig, rfl⟩, rfl⟩, rfl⟩

theorem get_tableAt (results : Results) (fanIns : List Int) (trial : Int) {config : Config}
    (hconfig : config ∈ configs) (fi : Int) :
    PythonData.get (tableAt std results fanIns trial) (config.label, fi) =
      if fi ∈ fanIns then some (rowAt std results trial config fi) else none := by
  rw [PythonData.get_eq_ite (f := fun key : String × Int =>
    (configs.find? (fun c => c.label = key.1)).map (fun c => rowAt std results trial c key.2))]
  · simp only [mem_keys_tableAt std results fanIns trial hconfig, find_label hconfig, Option.map_some]
  · intro p hp
    simp only [tableAt, List.mem_map, List.mem_flatMap] at hp
    obtain ⟨_, ⟨fi', _, c, hc, rfl⟩, rfl⟩ := hp
    rw [find_label hc]
    rfl

theorem get_averageTrials (results : Results) (trials fanIns : List Int) {config : Config}
    (hconfig : config ∈ configs) (fi : Int) :
    (PythonData.get (averageTrials (trials.map (tableAt std results fanIns))) (config.label, fi)).join =
      if fi ∈ fanIns then averageRow (trials.filterMap (fun t => rowAt std results t config fi)) else none := by
  have hrows : (trials.map (tableAt std results fanIns)).filterMap
      (fun table => (PythonData.get table (config.label, fi)).join) =
        if fi ∈ fanIns then trials.filterMap (fun t => rowAt std results t config fi) else [] := by
    rw [List.filterMap_map]
    simp only [Function.comp_def, get_tableAt std results fanIns _ hconfig]
    split_ifs
    · rfl
    · simp
  rw [join_get_averageTrials, hrows]
  split_ifs
  · rfl
  · rfl

theorem mem_experiments {results : Results} {fanIns trials : List Int} {proto : Config} {fi t : Int}
    {exp : Experiment} :
    ((proto, fi, t), exp) ∈ experiments results fanIns trials ↔
      t ∈ trials ∧ fi ∈ fanIns ∧ proto ∈ configs ∧ expAt results t proto fi = some exp := by
  rw [experiments, protos_eq, List.mem_flatMap]
  constructor
  · rintro ⟨t', ht', hmem⟩
    cases hroot : results.trialRoot t' with
    | none =>
      rw [hroot] at hmem
      cases hmem
    | some root =>
      rw [hroot] at hmem
      obtain ⟨fi', hfi', hmem⟩ := List.mem_flatMap.mp hmem
      obtain ⟨proto', hproto', hexp⟩ := List.mem_filterMap.mp hmem
      obtain ⟨exp', hexp', heq⟩ := Option.map_eq_some_iff.mp hexp
      cases heq
      exact ⟨ht', hfi', hproto', Option.bind_eq_some_iff.mpr ⟨root, hroot, hexp'⟩⟩
  · rintro ⟨ht, hfi, hproto, hexp⟩
    obtain ⟨root, hroot, hexp'⟩ := Option.bind_eq_some_iff.mp hexp
    refine ⟨t, ht, ?_⟩
    rw [hroot]
    refine List.mem_flatMap.mpr ⟨fi, hfi, List.mem_filterMap.mpr ⟨proto, hproto, ?_⟩⟩
    rw [hexp', Option.map_some]

def perTrialAt (results : Results) (fanIns trials : List Int) : PerTrial K :=
  (experiments results fanIns trials).filterMap (fun cell =>
    (plotAt std results cell.1.2.2 cell.1.1 cell.1.2.1).map (fun row => ((cell.1.1.label, cell.1.2), row)))

theorem collectPerTrial_eq [IsStrictOrderedRing K] {results : Results} (hpos : Positive results) (fanIns trials : List Int) :
    collectPerTrial std results fanIns trials = some (perTrialAt std results fanIns trials) := by
  have hcells : (experiments results fanIns trials).mapM (fun cell =>
      (collectExperiment std cell.2 cell.1.1.poolSize).map
        (fun row => row.map (fun r => ((cell.1.1.label, cell.1.2.1, cell.1.2.2), r)))) =
      some ((experiments results fanIns trials).map (fun cell =>
        (plotAt std results cell.1.2.2 cell.1.1 cell.1.2.1).map (fun row => ((cell.1.1.label, cell.1.2), row)))) := by
    apply PythonData.mapM_eq_map
    rintro ⟨⟨proto, fi, t⟩, exp⟩ hcell
    obtain ⟨_, _, _, hexp⟩ := mem_experiments.mp hcell
    rw [collectExperiment_eq std (positive_expAt hpos hexp), plotAt, hexp]
    rfl
  have hrows : perTrialAt std results fanIns trials = ((experiments results fanIns trials).map (fun cell =>
      (plotAt std results cell.1.2.2 cell.1.1 cell.1.2.1).map
        (fun row => ((cell.1.1.label, cell.1.2), row)))).filterMap id := by
    rw [List.filterMap_map]
    rfl
  rw [collectPerTrial, hrows]
  exact congrArg (fun rows => rows.bind (fun rows => some (rows.filterMap id))) hcells

theorem mem_perTrialAt {results : Results} {fanIns trials : List Int} {p : (String × Int × Int) × PlotRow K} :
    p ∈ perTrialAt std results fanIns trials ↔ ∃ proto ∈ configs, p.1.1 = proto.label ∧ p.1.2.1 ∈ fanIns ∧
      p.1.2.2 ∈ trials ∧ plotAt std results p.1.2.2 proto p.1.2.1 = some p.2 := by
  obtain ⟨⟨label, fi, t⟩, row⟩ := p
  rw [perTrialAt, List.mem_filterMap]
  constructor
  · rintro ⟨⟨⟨proto, fi', t'⟩, exp⟩, hcell, heq⟩
    obtain ⟨ht, hfi, hproto, _⟩ := mem_experiments.mp hcell
    obtain ⟨row', hrow, heq⟩ := Option.map_eq_some_iff.mp heq
    cases heq
    exact ⟨proto, hproto, rfl, hfi, ht, hrow⟩
  · rintro ⟨proto, hproto, rfl, hfi, ht, hrow⟩
    obtain ⟨exp, hexp, _⟩ := Option.bind_eq_some_iff.mp hrow
    exact ⟨((proto, fi, t), exp), mem_experiments.mpr ⟨ht, hfi, hproto, hexp⟩, by rw [hrow]; rfl⟩

theorem get_perTrialAt (results : Results) {fanIns trials : List Int} {config : Config} (hconfig : config ∈ configs)
    {fi t : Int} (hfi : fi ∈ fanIns) (ht : t ∈ trials) :
    PythonData.get (perTrialAt std results fanIns trials) (config.label, fi, t) = plotAt std results t config fi := by
  rw [PythonData.get_eq_ite (f := fun key : String × Int × Int =>
    (configs.find? (fun c => c.label = key.1)).bind (fun c => plotAt std results key.2.2 c key.2.1))]
  · rw [find_label hconfig, Option.bind_some]
    split_ifs with hkey
    · rfl
    · cases hrow : plotAt std results t config fi with
      | none => rfl
      | some row =>
        refine absurd ?_ hkey
        exact List.mem_map.mpr ⟨((config.label, fi, t), row),
          (mem_perTrialAt std).mpr ⟨config, hconfig, rfl, hfi, ht, hrow⟩, rfl⟩
  · intro p hp
    obtain ⟨proto, hproto, hlabel, _, _, hrow⟩ := (mem_perTrialAt std).mp hp
    rw [hlabel, find_label hproto, Option.bind_some, hrow]

theorem label_mem {config : Config} (h : config ∈ configs) :
    config.label ∈ ["Homa", "TCP single", "TCP DCTCP-32"] := by
  simp only [configs, List.mem_cons, List.not_mem_nil, or_false] at h
  obtain rfl | rfl | rfl := h
  · simp
  · simp
  · simp

theorem mem_averageAcrossTrials {perTrial : PerTrial K} {trials fanIns : List Int}
    {p : (String × Int) × (Metric → Summary K)} :
    p ∈ averageAcrossTrials std perTrial trials fanIns ↔
      p.1.1 ∈ ["Homa", "TCP single", "TCP DCTCP-32"] ∧ p.1.2 ∈ fanIns ∧
        averageEntry std (trials.filterMap (fun t => PythonData.get perTrial (p.1.1, p.1.2, t))) = some p.2 := by
  rw [averageAcrossTrials, List.mem_flatMap]
  constructor
  · rintro ⟨proto, hproto, hmem⟩
    obtain ⟨fi, hfi, hentry⟩ := List.mem_filterMap.mp hmem
    obtain ⟨entry, heq, rfl⟩ := Option.map_eq_some_iff.mp hentry
    exact ⟨hproto, hfi, heq⟩
  · rintro ⟨hproto, hfi, hentry⟩
    refine ⟨p.1.1, hproto, List.mem_filterMap.mpr ⟨p.1.2, hfi, ?_⟩⟩
    dsimp only
    rw [hentry, Option.map_some]

theorem get_averageAcrossTrials (results : Results) (trials fanIns : List Int) {config : Config}
    (hconfig : config ∈ configs) (fi : Int) :
    PythonData.get (averageAcrossTrials std (perTrialAt std results fanIns trials) trials fanIns) (config.label, fi) =
      if fi ∈ fanIns then averageEntry std (trials.filterMap (fun t => plotAt std results t config fi)) else none := by
  have hrows : fi ∈ fanIns → trials.filterMap
      (fun t => PythonData.get (perTrialAt std results fanIns trials) (config.label, fi, t)) =
        trials.filterMap (fun t => plotAt std results t config fi) := by
    intro hfi
    apply List.filterMap_congr
    intro t ht
    exact get_perTrialAt std results hconfig hfi ht
  rw [PythonData.get_eq_ite (f := fun key : String × Int => averageEntry std
    (trials.filterMap (fun t => PythonData.get (perTrialAt std results fanIns trials) (key.1, key.2, t))))
    (fun p hp => ((mem_averageAcrossTrials std).mp hp).2.2)]
  split_ifs with hkey hfi hfi
  · rw [hrows hfi]
  · obtain ⟨p, hp, heq⟩ := List.mem_map.mp hkey
    have hmem := ((mem_averageAcrossTrials std).mp hp).2.1
    rw [heq] at hmem
    exact absurd hmem hfi
  · cases hentry : averageEntry std (trials.filterMap (fun t => plotAt std results t config fi)) with
    | none => rfl
    | some entry =>
      rw [← hrows hfi] at hentry
      refine absurd ?_ hkey
      exact List.mem_map.mpr ⟨((config.label, fi), entry),
        (mem_averageAcrossTrials std).mpr ⟨label_mem hconfig, hfi, hentry⟩, rfl⟩
  · rfl

/-- The same numbers in both rows, and no `nan` among them. -/
def SameMetrics (row : Row K) (plot : PlotRow K) : Prop :=
  ∀ m, ∃ x, row.metric m = some x ∧ plot.metric m = some x

section

variable [IsStrictOrderedRing K]

theorem sameMetrics_at {results : Results} (hpos : Positive results) {config : Config} (hconfig : config ∈ configs)
    (trial fi : Int) :
    Option.Rel SameMetrics (rowAt std results trial config fi) (plotAt std results trial config fi) := by
  rw [rowAt, plotAt]
  cases h : expAt results trial config fi with
  | none => exact .none
  | some exp =>
    have hexp := positive_expAt hpos h
    by_cases hne : samples K exp = []
    · rw [Option.bind_some, Option.bind_some, if_pos hne, collectRow, if_pos hne]
      exact .none
    · obtain ⟨row, hrow, hmetric⟩ := metric_eq std hexp (poolSize_pos hconfig) hne
      rw [Option.bind_some, Option.bind_some, if_neg hne, hrow]
      refine .some (fun m => ?_)
      obtain ⟨x, hx⟩ := Option.isSome_iff_exists.mp (isSome_plotMetric std hexp (poolSize_pos hconfig) hne m)
      exact ⟨x, (hmetric m).trans hx, hx⟩

end

theorem forall₂_filterMap {α β γ : Type} {R : β → γ → Prop} {f : α → Option β} {g : α → Option γ}
    (h : ∀ x, Option.Rel R (f x) (g x)) (xs : List α) : List.Forall₂ R (xs.filterMap f) (xs.filterMap g) := by
  induction xs with
  | nil => exact .nil
  | cons x xs ih =>
    rw [List.filterMap_cons, List.filterMap_cons]
    have hx := h x
    generalize f x = a at hx ⊢
    generalize g x = b at hx ⊢
    cases hx with
    | none => exact ih
    | some hr => exact .cons hr ih

theorem average_eq {rows : List (Row K)} {plots : List (PlotRow K)} (h : List.Forall₂ SameMetrics rows plots)
    (hne : rows ≠ []) (m : Metric) :
    ∃ x, meanField rows m = some x ∧ (summary std (plots.map (fun row => row.metric m))).mean = some x := by
  have hvals : ∃ xs, rows.filterMap (fun row => row.metric m) = xs ∧
      (plots.map (fun row => row.metric m)).mapM id = some xs ∧ xs.length = rows.length := by
    clear hne
    induction h with
    | nil => exact ⟨[], rfl, rfl, rfl⟩
    | cons hrow _ ih =>
      obtain ⟨xs, hxs, hmap, hlen⟩ := ih
      obtain ⟨x, hx, hx'⟩ := hrow m
      refine ⟨x :: xs, ?_, ?_, by simp [hlen]⟩
      · rw [List.filterMap_cons, hx, hxs]
      · rw [List.map_cons, List.mapM_cons, id, hx', hmap]
        rfl
  obtain ⟨xs, hxs, hmap, hlen⟩ := hvals
  have hxne : xs ≠ [] := by
    rw [← List.length_pos_iff, hlen]
    exact List.length_pos_iff.mpr hne
  refine ⟨mean xs, ?_, ?_⟩
  · rw [meanField, hxs]
    exact if_neg hxne
  · rw [summary, hmap]

omit [LinearOrder K] in
theorem averageRow_metric {rows : List (Row K)} {row : AveragedRow K} (h : averageRow rows = some row) (m : Metric) :
    row.toRow.metric m = meanField rows m := by
  cases rows with
  | nil => cases h
  | cons first rest =>
    cases h
    cases m <;> rfl

/-- The tables and the figures of a report have the same cells, with the same
averages in them. -/
def ReportsAgree (results : Results) (trials fanIns : List Int) : Prop :=
  ∃ tables perTrial, trials.mapM (fun t => collectOneTrial std results t fanIns) = some tables ∧
    collectPerTrial std results fanIns trials = some perTrial ∧
    ∀ config ∈ configs, ∀ fi,
      Option.Rel (fun (row : AveragedRow K) entry => ∀ m, ∃ x, row.metric m = some x ∧ (entry m).mean = some x)
        (PythonData.get (averageTrials tables) (config.label, fi)).join
        (PythonData.get (averageAcrossTrials std perTrial trials fanIns) (config.label, fi))

theorem reports_agree [IsStrictOrderedRing K] (results : Results) (hpos : Positive results) (trials fanIns : List Int) :
    ReportsAgree std results trials fanIns := by
  refine ⟨trials.map (tableAt std results fanIns), perTrialAt std results fanIns trials, ?_,
    collectPerTrial_eq std hpos fanIns trials, ?_⟩
  · exact PythonData.mapM_eq_map (fun t _ => collectOneTrial_eq std hpos t fanIns)
  · intro config hconfig fi
    rw [get_averageTrials std results trials fanIns hconfig, get_averageAcrossTrials std results trials fanIns hconfig]
    split_ifs
    · have hrows := forall₂_filterMap (fun t => sameMetrics_at std hpos hconfig t fi) trials
      generalize trials.filterMap (fun t => rowAt std results t config fi) = rows at hrows ⊢
      generalize trials.filterMap (fun t => plotAt std results t config fi) = plots at hrows ⊢
      cases hrows with
      | nil => exact .none
      | cons hfirst hrest =>
        refine .some (fun m => ?_)
        obtain ⟨x, hx, hx'⟩ := average_eq std (.cons hfirst hrest) (List.cons_ne_nil _ _) m
        exact ⟨x, (averageRow_metric rfl m).trans hx, hx'⟩
    · exact .none

def oneClient (text : List Char) : Results := fun trial =>
  if trial = "fanin_test1" then some (fun fanIn =>
    if fanIn = "fanin_4" then some (fun name =>
      if name = "homa_fi4" then some ⟨[("client_0", some text)], List.nodup_singleton _⟩ else none)
    else none)
  else none

theorem load_csvText_sample :
    LatencyCsv.FaninReport.loadLatencyCsv id (LatencyHistogram.csvText [1995, 7]) = some [1995, 7] := by
  rw [LatencyCsv.FaninReport.loadLatencyCsv, LatencyCsv.float64Ns, LatencyCsv.latenciesNs_csvText]
  rfl

theorem positiveExperiment_sample (name : String) :
    PositiveExperiment ⟨[(name, some (LatencyHistogram.csvText [1995, 7]))], List.nodup_singleton _⟩ := by
  intro file hfile
  obtain rfl := List.mem_singleton.mp hfile
  exact ⟨[1995, 7], load_csvText_sample, by simp⟩

theorem positive_oneClient : Positive (oneClient (LatencyHistogram.csvText [1995, 7])) := by
  intro trial root fanIn dir name exp hroot hdir hname
  obtain ⟨_, hroot⟩ := Option.ite_none_right_eq_some.mp hroot
  cases hroot
  obtain ⟨_, hdir⟩ := Option.ite_none_right_eq_some.mp hdir
  cases hdir
  obtain ⟨_, hname⟩ := Option.ite_none_right_eq_some.mp hname
  cases hname
  exact positiveExperiment_sample "client_0"

theorem reports_agree_one_client :
    Positive (oneClient (LatencyHistogram.csvText [1995, 7])) ∧
      ReportsAgree (K := ℚ) (fun _ => 0) (oneClient (LatencyHistogram.csvText [1995, 7])) [1, 2] [4, 8] :=
  ⟨positive_oneClient, reports_agree _ _ positive_oneClient _ _⟩

end DcBench.FaninAgreement

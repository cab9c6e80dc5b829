import DcBench.FaninAgreement
import DcBench.FaninNarrative

namespace DcBench.PartialReports

open DcBench.Lib DcBench.Lib.PythonFormat DcBench.FaninReport DcBench.FaninExperiment DcBench.FaninAgreement
open DcBench.FaninNarrative

/-- A client of the cell recorded a latency in one of the trials. -/
def Recorded (results : Results) (trials : List Int) (label : String) (fi : Int) : Prop :=
  ∃ config ∈ configs, config.label = label ∧
    ∃ t ∈ trials, ∃ exp, expAt results t config fi = some exp ∧ samples ℚ exp ≠ []

/-- When Homa and the pool both have data at the last fan-in, both have some at
the first one. -/
def GapKnown (results : Results) (trials fanIns : List Int) : Prop :=
  ∀ fiMin fiMax, fanIns.head? = some fiMin → fanIns.getLast? = some fiMax →
    Recorded results trials "Homa" fiMax → Recorded results trials "TCP DCTCP-32" fiMax →
      Recorded results trials "Homa" fiMin ∧ Recorded results trials "TCP DCTCP-32" fiMin

/-- Every cell that is not `None` has a positive P99. -/
def TailPositive (table : Table ℚ) : Prop :=
  ∀ key row, cell table key = some row → ∃ q, row.metric .p99 = some q ∧ 0 < q

section Tables

variable {table : Table ℚ}

theorem truthy_lat_iff (h : TailPositive table) (cfg : String) (fi : Int) :
    Truthy (lat table cfg fi .p99) ↔ cell table (cfg, fi) ≠ none := by
  rw [lat, number]
  cases hcell : cell table (cfg, fi) with
  | none => exact ⟨fun ⟨_, hq, _⟩ => (nomatch hq), fun hne => absurd rfl hne⟩
  | some row =>
    obtain ⟨q, hq, hpos⟩ := h _ row hcell
    exact ⟨fun _ => Option.some_ne_none row, fun _ => ⟨q, hq, hpos.ne'⟩⟩

theorem isSome_lat_iff (h : TailPositive table) (cfg : String) (fi : Int) :
    (lat table cfg fi .p99).isSome ↔ cell table (cfg, fi) ≠ none := by
  rw [← truthy_lat_iff h, Option.isSome_iff_exists]
  constructor
  · rintro ⟨q, hq⟩
    obtain ⟨row, hrow, hmetric⟩ := Option.bind_eq_some_iff.mp hq
    obtain ⟨q', hq', hpos⟩ := h _ row hrow
    exact ⟨q', by rw [lat, number, hrow, Option.bind_some, hq'], hpos.ne'⟩
  · rintro ⟨q, hq, -⟩
    exact ⟨q, hq⟩

theorem markdown_returns (h : TailPositive table) (title : Text) (fanIns : List Int) :
    ∃ text, buildMarkdown title table fanIns = .ok text := by
  apply buildMarkdown_returns
  intro fi row hrow hzero
  obtain ⟨q, hq, hpos⟩ := h _ row hrow
  have hq' : row.latency.p99Us = some q := hq
  rw [hzero] at hq'
  cases hq'
  exact hpos.ne rfl

theorem narrative_returns_iff (h : TailPositive table) {fanIns : List Int} (nTrials : Nat) {fiMin fiMax : Int}
    (hmin : fanIns.head? = some fiMin) (hmax : fanIns.getLast? = some fiMax) :
    (∃ text, buildNarrative table fanIns nTrials = .ok text) ↔
      (cell table ("Homa", fiMax) ≠ none → cell table ("TCP DCTCP-32", fiMax) ≠ none →
        cell table ("Homa", fiMin) ≠ none ∧ cell table ("TCP DCTCP-32", fiMin) ≠ none) := by
  obtain ⟨stability, growth, explosion, heq⟩ := buildNarrative_eq_map table nTrials hmin hmax
  have hmap {x : Except Error (List Text)} {f : List Text → Text} :
      (∃ text, x.map f = .ok text) ↔ ∃ lines, x = .ok lines := by
    cases x with
    | error e => exact ⟨fun ⟨_, hx⟩ => (nomatch hx), fun ⟨_, hx⟩ => (nomatch hx)⟩
    | ok lines => exact ⟨fun _ => ⟨lines, rfl⟩, fun _ => ⟨_, rfl⟩⟩
  rw [heq, hmap, implicationForH2_returns_iff]
  simp only [truthy_lat_iff h, isSome_lat_iff h]
  constructor
  · intro himp hh hd
    exact (himp hh hd).symm
  · intro himp hh hd
    exact (himp hh hd).symm

theorem lat_eq_none {cfg : String} {fi : Int} (h : cell table (cfg, fi) = none) (field : Metric) :
    lat table cfg fi field = none := by
  rw [lat, number, h, Option.bind_none]

theorem narrative_raises (h : TailPositive table) {fanIns : List Int} (nTrials : Nat) {fiMin fiMax : Int}
    (hmin : fanIns.head? = some fiMin) (hmax : fanIns.getLast? = some fiMax)
    (hhoma : cell table ("Homa", fiMax) ≠ none) (hdctcp : cell table ("TCP DCTCP-32", fiMax) ≠ none)
    (hmissing : cell table ("TCP DCTCP-32", fiMin) = none ∨ cell table ("Homa", fiMin) = none) :
    buildNarrative table fanIns nTrials = .error .typeError := by
  obtain ⟨stability, growth, explosion, heq⟩ := buildNarrative_eq_map table nTrials hmin hmax
  rw [heq, implicationForH2_raises fiMin fiMax ((truthy_lat_iff h "Homa" fiMax).mpr hhoma)
    ((truthy_lat_iff h "TCP DCTCP-32" fiMax).mpr hdctcp)
    (hmissing.imp (fun h => lat_eq_none h .p99) (fun h => lat_eq_none h .p99))]
  rfl

end Tables

section Averages

theorem tailPositive_averageTrials {tables : List (Table ℚ)} (h : ∀ table ∈ tables, TailPositive table) :
    TailPositive (asTable (averageTrials tables)) := by
  intro key row hrow
  rw [cell_averageTrials] at hrow
  obtain ⟨avg, havg, rfl⟩ := Option.map_eq_some_iff.mp hrow
  rw [averageRow_metric havg]
  have hvals : ∀ q ∈ (tables.filterMap (fun table => cell table key)).filterMap (fun row => row.metric .p99), 0 < q := by
    intro q hq
    obtain ⟨row, hrow, hmetric⟩ := List.mem_filterMap.mp hq
    obtain ⟨table, htable, hcell⟩ := List.mem_filterMap.mp hrow
    obtain ⟨q', hq', hpos⟩ := h table htable key row hcell
    rw [hmetric] at hq'
    cases hq'
    exact hpos
  have hne : (tables.filterMap (fun table => cell table key)).filterMap (fun row => row.metric .p99) ≠ [] := by
    cases hrows : tables.filterMap (fun table => cell table key) with
    | nil =>
      rw [hrows] at havg
      cases havg
    | cons first rest =>
      have hfirst : first ∈ tables.filterMap (fun table => cell table key) := hrows ▸ List.mem_cons_self
      obtain ⟨table, htable, hcell⟩ := List.mem_filterMap.mp hfirst
      obtain ⟨q, hq, -⟩ := h table htable key first hcell
      rw [List.filterMap_cons, hq]
      exact List.cons_ne_nil _ _
  exact ⟨_, if_neg hne, mean_pos hne hvals⟩

theorem cell_averageTrials_ne_none_iff (tables : List (Table ℚ)) (key : String × Int) :
    cell (asTable (averageTrials tables)) key ≠ none ↔ ∃ table ∈ tables, cell table key ≠ none := by
  rw [Ne, cell_averageTrials_eq_none_iff]
  push Not
  rfl

end Averages

section Trials

variable (std : List ℚ → ℚ) {results : Results}

theorem allUs_pos {exp : Experiment} (hpos : PositiveExperiment exp) : ∀ x ∈ allUs (K := ℚ) exp, 0 < x := by
  intro x hx
  obtain ⟨ns, hns, rfl⟩ := List.mem_map.mp hx
  obtain ⟨xs, hxs, hmem⟩ := List.mem_flatten.mp hns
  obtain ⟨client, hclient, rfl⟩ := List.mem_map.mp hxs
  exact div_pos ((pos_of_mem_samples hpos hclient).2 ns hmem) (by norm_num)

theorem rowAt_ne_none_iff {t fi : Int} {config : Config} :
    rowAt std results t config fi ≠ none ↔ ∃ exp, expAt results t config fi = some exp ∧ samples ℚ exp ≠ [] := by
  rw [rowAt]
  cases expAt results t config fi with
  | none =>
    refine ⟨fun h => absurd rfl h, ?_⟩
    rintro ⟨_, ⟨⟩, -⟩
  | some exp =>
    rw [Option.bind_some, collectRow]
    split_ifs with hne
    · refine ⟨fun h => absurd rfl h, ?_⟩
      rintro ⟨_, ⟨⟩, h⟩
      exact absurd hne h
    · exact ⟨fun _ => ⟨exp, rfl, hne⟩, fun _ => Option.some_ne_none _⟩

theorem rowAt_p99_pos (hpos : Positive results) {t fi : Int} {config : Config} (hconfig : config ∈ configs)
    {row : Row ℚ} (h : rowAt std results t config fi = some row) : ∃ q, row.metric .p99 = some q ∧ 0 < q := by
  obtain ⟨exp, hexp, hrow⟩ := Option.bind_eq_some_iff.mp h
  have hexppos := positive_expAt hpos hexp
  have hne : samples ℚ exp ≠ [] := by
    intro hnil
    rw [collectRow, if_pos hnil] at hrow
    cases hrow
  obtain ⟨row', hrow', hmetric⟩ := metric_eq std hexppos (poolSize_pos hconfig) hne
  rw [hrow] at hrow'
  cases hrow'
  rw [hmetric]
  exact Percentile.percentile_pos (allUs_ne_nil hne) (allUs_pos hexppos) (by norm_num)

theorem tailPositive_tableAt (hpos : Positive results) (fanIns : List Int) (t : Int) :
    TailPositive (tableAt std results fanIns t) := by
  intro key row hrow
  have hmem := PythonData.mem_of_get (Option.join_eq_some_iff.mp hrow)
  obtain ⟨⟨config, fi⟩, hcell, heq⟩ := List.mem_map.mp hmem
  obtain ⟨_, _, hconfig⟩ := List.mem_flatMap.mp hcell
  obtain ⟨_, hconfig', ⟨⟩⟩ := List.mem_map.mp hconfig
  exact rowAt_p99_pos std hpos hconfig' (Prod.mk.inj heq).2

theorem cell_tableAt {fanIns : List Int} {config : Config} (hconfig : config ∈ configs) {fi : Int} (hfi : fi ∈ fanIns)
    (t : Int) : cell (tableAt std results fanIns t) (config.label, fi) = rowAt std results t config fi := by
  rw [cell, get_tableAt std results fanIns t hconfig, if_pos hfi]
  rfl

theorem cell_tableAt_ne_none_iff {fanIns : List Int} {label : String} (hlabel : label ∈ configs.map Config.label)
    {fi : Int} (hfi : fi ∈ fanIns) (t : Int) :
    cell (tableAt std results fanIns t) (label, fi) ≠ none ↔ Recorded results [t] label fi := by
  obtain ⟨config, hconfig, rfl⟩ := List.mem_map.mp hlabel
  rw [cell_tableAt std hconfig hfi, rowAt_ne_none_iff]
  constructor
  · intro hrec
    exact ⟨config, hconfig, rfl, t, List.mem_singleton_self t, hrec⟩
  · rintro ⟨config', hconfig', hlabel, t', ht', hrec⟩
    obtain rfl := List.inj_on_of_nodup_map nodup_labels hconfig' hconfig hlabel
    obtain rfl := List.mem_singleton.mp ht'
    exact hrec

theorem recorded_iff (trials : List Int) (label : String) (fi : Int) :
    Recorded results trials label fi ↔ ∃ t ∈ trials, Recorded results [t] label fi := by
  constructor
  · rintro ⟨config, hconfig, hlabel, t, ht, hrec⟩
    exact ⟨t, ht, config, hconfig, hlabel, t, List.mem_singleton_self t, hrec⟩
  · rintro ⟨t, ht, config, hconfig, hlabel, t', ht', hrec⟩
    obtain rfl := List.mem_singleton.mp ht'
    exact ⟨config, hconfig, hlabel, t', ht, hrec⟩

theorem cell_average_ne_none_iff (trials : List Int) {fanIns : List Int} {label : String}
    (hlabel : label ∈ configs.map Config.label) {fi : Int} (hfi : fi ∈ fanIns) :
    cell (asTable (averageTrials (trials.map (tableAt std results fanIns)))) (label, fi) ≠ none ↔
      Recorded results trials label fi := by
  rw [cell_averageTrials_ne_none_iff, recorded_iff]
  simp only [List.mem_map, exists_exists_and_eq_and, cell_tableAt_ne_none_iff std hlabel hfi]

theorem narrative_returns_iff_gapKnown {table : Table ℚ} (htail : TailPositive table) {trials fanIns : List Int}
    (hne : fanIns ≠ [])
    (hcell : ∀ label ∈ configs.map Config.label, ∀ fi ∈ fanIns,
      cell table (label, fi) ≠ none ↔ Recorded results trials label fi) (nTrials : Nat) :
    (∃ text, buildNarrative table fanIns nTrials = .ok text) ↔ GapKnown results trials fanIns := by
  have hmin := List.head?_eq_some_head hne
  have hmax := List.getLast?_eq_some_getLast hne
  have hhoma : "Homa" ∈ configs.map Config.label := by decide
  have hdctcp : "TCP DCTCP-32" ∈ configs.map Config.label := by decide
  have hfirst := List.head_mem hne
  have hlast := List.getLast_mem hne
  rw [narrative_returns_iff htail nTrials hmin hmax, hcell _ hhoma _ hfirst, hcell _ hhoma _ hlast,
    hcell _ hdctcp _ hfirst, hcell _ hdctcp _ hlast]
  constructor
  · intro h fiMin fiMax hfirst' hlast'
    rw [hmin] at hfirst'
    rw [hmax] at hlast'
    cases hfirst'
    cases hlast'
    exact h
  · intro h
    exact h _ _ hmin hmax

end Trials

/-- Averaging the tables of some trials and writing all reports raises nothing, and
exactly the cells that no trial has are missing in the average. -/
def ReportsReturn (std : List ℚ → ℚ) (results : Results) (trials fanIns : List Int) : Prop :=
  ∃ tables averaged, trials.mapM (fun t => collectOneTrial std results t fanIns) = some tables ∧
    tryAverageTrials tables = .ok averaged ∧
    (∀ key, cell (asTable averaged) key = none ↔ ∀ table ∈ tables, cell table key = none) ∧
    (∀ table ∈ asTable averaged :: tables, ∀ title, ∃ text, buildMarkdown title table fanIns = .ok text) ∧
    ∀ nTrials, ∃ text, buildNarrative (asTable averaged) fanIns nTrials = .ok text

theorem reports_return_iff (std : List ℚ → ℚ) (results : Results) (hpos : Positive results) (trials fanIns : List Int)
    (hne : fanIns ≠ []) :
    (ReportsReturn std results trials fanIns ↔ GapKnown results trials fanIns) ∧
      ∀ t table, collectOneTrial std results t fanIns = some table → ∀ nTrials,
        (∃ text, buildNarrative table fanIns nTrials = .ok text) ↔ GapKnown results [t] fanIns := by
  have hcollect : trials.mapM (fun t => collectOneTrial std results t fanIns) =
      some (trials.map (tableAt std results fanIns)) :=
    PythonData.mapM_eq_map (fun t _ => collectOneTrial_eq std hpos t fanIns)
  have htables : ∀ table ∈ trials.map (tableAt std results fanIns), TailPositive table := by
    intro table htable
    obtain ⟨t, _, rfl⟩ := List.mem_map.mp htable
    exact tailPositive_tableAt std hpos fanIns t
  have haverage := tailPositive_averageTrials htables
  have hnarrative := narrative_returns_iff_gapKnown haverage hne
    (fun label hlabel fi hfi => cell_average_ne_none_iff std trials hlabel hfi)
  refine ⟨⟨?_, ?_⟩, ?_⟩
  · rintro ⟨tables, averaged, htrials, haveraged, -, -, hreturns⟩
    rw [hcollect] at htrials
    cases htrials
    rw [tryAverageTrials_eq] at haveraged
    cases haveraged
    exact (hnarrative 0).mp (hreturns 0)
  · intro hgap
    refine ⟨_, _, hcollect, tryAverageTrials_eq _, cell_averageTrials_eq_none_iff _, ?_,
      fun nTrials => (hnarrative nTrials).mpr hgap⟩
    intro table htable title
    obtain rfl | htable := List.mem_cons.mp htable
    · exact markdown_returns haverage title fanIns
    · exact markdown_returns (htables table htable) title fanIns
  · intro t table htable
    rw [collectOneTrial_eq std hpos] at htable
    cases htable
    exact narrative_returns_iff_gapKnown (tailPositive_tableAt std hpos fanIns t) hne
      (fun label hlabel fi hfi => cell_tableAt_ne_none_iff std hlabel hfi t)

theorem not_recorded_of_no_dir {results : Results} {fi : Int}
    (h : ∀ t root, results.trialRoot t = some root → root s!"fanin_{fi}" = none) (trials : List Int) (label : String) :
    ¬ Recorded results trials label fi := by
  rintro ⟨config, -, -, t, -, exp, hexp, -⟩
  obtain ⟨root, hroot, hexp⟩ := Option.bind_eq_some_iff.mp hexp
  rw [expDir, h t root hroot] at hexp
  cases hexp

theorem reports_return_iff_one_client :
    Positive (oneClient (LatencyHistogram.csvText [1995, 7])) ∧
      ReportsReturn (fun _ => 0) (oneClient (LatencyHistogram.csvText [1995, 7])) [1, 2] [4, 8] := by
  refine ⟨positive_oneClient, (reports_return_iff _ _ positive_oneClient _ _ (List.cons_ne_nil _ _)).1.mpr ?_⟩
  rintro fiMin fiMax - ⟨⟩ hhoma
  refine absurd hhoma (not_recorded_of_no_dir (fun t root hroot => ?_) _ _)
  obtain ⟨_, hroot⟩ := Option.ite_none_right_eq_some.mp hroot
  cases hroot
  exact if_neg (by decide)

theorem nodup_client (text : List Char) : ([("client_0", some text)].map Prod.fst).Nodup := List.nodup_singleton _

/-- A trial whose runs at the first fan-in are missing. -/
def lastOnly (text : List Char) : Results := fun trial =>
  if trial = "fanin_test1" then some (fun fanIn =>
    if fanIn = "fanin_8" then some (fun name =>
      if name = "homa_fi8" ∨ name = "tcp_dctcp_fi8" then
        some ⟨[("client_0", some text)], nodup_client text⟩
      else none)
    else none)
  else none

theorem positive_lastOnly : Positive (lastOnly (LatencyHistogram.csvText [1995, 7])) := by
  intro trial root fanIn dir name exp hroot hdir hname
  obtain ⟨_, hroot⟩ := Option.ite_none_right_eq_some.mp hroot
  cases hroot
  obtain ⟨_, hdir⟩ := Option.ite_none_right_eq_some.mp hdir
  cases hdir
  obtain ⟨_, hname⟩ := Option.ite_none_right_eq_some.mp hname
  cases hname
  exact positiveExperiment_sample "client_0"

theorem recorded_lastOnly :
    Recorded (lastOnly (LatencyHistogram.csvText [1995, 7])) [1] "Homa" 8 ∧
      Recorded (lastOnly (LatencyHistogram.csvText [1995, 7])) [1] "TCP DCTCP-32" 8 := by
  have hsamples : samples ℚ ⟨[("client_0", some (LatencyHistogram.csvText [1995, 7]))], List.nodup_singleton _⟩ ≠ [] := by
    simp [samples, Experiment.files, load, load_csvText_sample]
  constructor
  · exact ⟨_, List.mem_cons_self, rfl, 1, List.mem_singleton_self 1, _, rfl, hsamples⟩
  · exact ⟨_, List.mem_cons_of_mem _ (List.mem_cons_of_mem _ List.mem_cons_self), rfl, 1, List.mem_singleton_self 1, _,
      rfl, hsamples⟩

theorem not_recorded_lastOnly (label : String) :
    ¬ Recorded (lastOnly (LatencyHistogram.csvText [1995, 7])) [1] label 4 := by
  refine not_recorded_of_no_dir (fun t root hroot => ?_) _ _
  obtain ⟨_, hroot⟩ := Option.ite_none_right_eq_some.mp hroot
  cases hroot
  exact if_neg (by decide)

theorem narrative_lastOnly (std : List ℚ → ℚ) :
    buildNarrative (asTable (averageTrials
      ([1].map (tableAt std (lastOnly (LatencyHistogram.csvText [1995, 7])) [4, 8])))) [4, 8] 1 = .error .typeError := by
  obtain ⟨hhoma, hdctcp⟩ := recorded_lastOnly
  have htail := tailPositive_averageTrials
    (List.forall_mem_singleton.mpr (tailPositive_tableAt std positive_lastOnly [4, 8] 1))
  refine narrative_raises htail 1 rfl rfl ((cell_average_ne_none_iff std [1] ?_ ?_).mpr hhoma)
    ((cell_average_ne_none_iff std [1] ?_ ?_).mpr hdctcp)
    (.inr (not_ne_iff.mp (mt (cell_average_ne_none_iff std [1] ?_ ?_).mp (not_recorded_lastOnly "Homa"))))
  all_goals decide

theorem missing_first_fan_in_raises :
    Positive (lastOnly (LatencyHistogram.csvText [1995, 7])) ∧
      ¬ ReportsReturn (fun _ => 0) (lastOnly (LatencyHistogram.csvText [1995, 7])) [1] [4, 8] ∧
      ∃ tables averaged, [1].mapM (fun t =>
          collectOneTrial (fun _ => 0) (lastOnly (LatencyHistogram.csvText [1995, 7])) t [4, 8]) = some tables ∧
        tryAverageTrials tables = .ok averaged ∧
        buildNarrative (asTable averaged) [4, 8] 1 = .error .typeError := by
  have hcollect : [1].mapM (fun t =>
      collectOneTrial (fun _ => (0 : ℚ)) (lastOnly (LatencyHistogram.csvText [1995, 7])) t [4, 8]) =
      some ([1].map (tableAt (fun _ => 0) (lastOnly (LatencyHistogram.csvText [1995, 7])) [4, 8])) :=
    PythonData.mapM_eq_map (fun t _ => collectOneTrial_eq _ positive_lastOnly t [4, 8])
  refine ⟨positive_lastOnly, ?_, _, _, hcollect, tryAverageTrials_eq _, narrative_lastOnly _⟩
  rintro ⟨tables, averaged, htables, haveraged, -, -, hreturns⟩
  rw [hcollect] at htables
  cases htables
  rw [tryAverageTrials_eq] at haveraged
  cases haveraged
  obtain ⟨text, htext⟩ := hreturns 1
  rw [narrative_lastOnly] at htext
  cases htext

end DcBench.PartialReports

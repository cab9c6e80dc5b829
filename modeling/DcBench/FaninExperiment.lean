import DcBench.Lib.Dispersion
import DcBench.MakePlots

namespace DcBench.FaninExperiment

open DcBench.Lib DcBench.LatencyCsv DcBench.FaninReport DcBench.MakePlots

def PositiveExperiment (exp : Experiment) : Prop :=
  ∀ file ∈ exp.files, ∃ samples, FaninReport.loadLatencyCsv id file.2 = some samples ∧ ∀ x ∈ samples, 0 < x

def Positive (results : Results) : Prop :=
  ∀ trial root fanIn dir name exp, results trial = some root → root fanIn = some dir → dir name = some exp →
    PositiveExperiment exp

theorem nodup_files (exp : Experiment) : (exp.files.map Prod.fst).Nodup := by
  have hsub : (exp.files.map Prod.fst).Sublist (exp.clients.map Prod.fst) := by
    rw [Experiment.files]
    generalize exp.clients = clients
    induction clients with
    | nil => exact .slnil
    | cons client clients ih =>
      obtain ⟨name, text⟩ := client
      cases text with
      | none => exact ih.cons name
      | some text => exact ih.cons_cons name
  exact hsub.nodup exp.nodup

section

variable {K : Type} [Field K]

theorem mapM_load {exp : Experiment} (hpos : PositiveExperiment exp) :
    exp.files.mapM (fun file => (load (K := K) FaninReport.loadLatencyCsv file.2).map (fun s => (file.1, s))) =
      some (exp.files.map (fun file => (file.1, (load FaninReport.loadLatencyCsv file.2).getD []))) := by
  apply PythonData.mapM_eq_map
  intro file hfile
  obtain ⟨lat, hlat, _⟩ := hpos file hfile
  rw [load, hlat]
  rfl

end

variable {K : Type} [Field K] [LinearOrder K]

def samples (K : Type) [Field K] [LinearOrder K] (exp : Experiment) : List (String × List K) :=
  (exp.files.map (fun file => (file.1, (load FaninReport.loadLatencyCsv file.2).getD []))).filter
    (fun client => client.2 ≠ [])

theorem nodup_samples (exp : Experiment) : ((samples K exp).map Prod.fst).Nodup := by
  have hsub : ((samples K exp).map Prod.fst).Sublist (exp.files.map Prod.fst) := by
    have hfilter := (List.filter_sublist (p := fun client : String × List K => decide (client.2 ≠ []))
      (l := exp.files.map (fun file => (file.1, (load FaninReport.loadLatencyCsv file.2).getD [])))).map Prod.fst
    rwa [List.map_map] at hfilter
  exact hsub.nodup (nodup_files exp)

theorem values_samples (exp : Experiment) : PythonData.values (samples K exp) = (samples K exp).map Prod.snd :=
  PythonData.values_of_nodup (nodup_samples exp)

theorem perClientSamples_eq {exp : Experiment} (hpos : PositiveExperiment exp) :
    perClientSamples (some exp) = some (samples K exp) := by
  rw [perClientSamples, mapM_load hpos]
  rfl

def allUs (exp : Experiment) : List K := ((samples K exp).map Prod.snd).flatten.map (fun x => x / 1000)

theorem allUs_ne_nil {exp : Experiment} (hne : samples K exp ≠ []) : allUs (K := K) exp ≠ [] := by
  obtain ⟨client, hclient⟩ := List.exists_mem_of_ne_nil _ hne
  have hsome : client.2 ≠ [] := of_decide_eq_true (List.mem_filter.mp hclient).2
  rw [allUs, Ne, List.map_eq_nil_iff, List.flatten_eq_nil_iff]
  intro hall
  exact hsome (hall client.2 (List.mem_map_of_mem hclient))

theorem exists_minMaxRatio {xs : List K} (hne : xs ≠ []) (hpos : ∀ x ∈ xs, 0 < x) :
    ∃ low high, minMaxRatio xs = some (low / high) ∧ 0 < low ∧ 0 < high ∧ ∀ x ∈ xs, low ≤ x ∧ x ≤ high := by
  obtain ⟨low, hlow⟩ := Option.isSome_iff_exists.mp (List.isSome_min?_of_ne_nil hne)
  obtain ⟨high, hhigh⟩ := Option.isSome_iff_exists.mp (List.isSome_max?_of_ne_nil hne)
  have hhighpos : 0 < high := hpos high (List.max?_mem hhigh)
  refine ⟨low, high, ?_, hpos low (List.min?_mem hlow), hhighpos, ?_⟩
  · simp [minMaxRatio, hlow, hhigh, hhighpos]
  · intro x hx
    exact ⟨(List.min?_eq_some_iff.mp hlow).2 x hx, (List.max?_eq_some_iff.mp hhigh).2 x hx⟩

variable [IsStrictOrderedRing K]

theorem pos_of_mem_samples {exp : Experiment} (hpos : PositiveExperiment exp) {client : String × List K}
    (hclient : client ∈ samples K exp) : client.2 ≠ [] ∧ ∀ x ∈ client.2, 0 < x := by
  obtain ⟨hmem, hne⟩ := List.mem_filter.mp hclient
  obtain ⟨file, hfile, rfl⟩ := List.mem_map.mp hmem
  obtain ⟨lat, hlat, hlatpos⟩ := hpos file hfile
  refine ⟨of_decide_eq_true hne, ?_⟩
  intro x hx
  rw [load, hlat, Option.map_some, Option.getD_some] at hx
  obtain ⟨q, hq, rfl⟩ := List.mem_map.mp hx
  exact Rat.cast_pos.mpr (hlatpos q hq)

theorem mean_pos {xs : List K} (hne : xs ≠ []) (hpos : ∀ x ∈ xs, 0 < x) : 0 < mean xs :=
  Dispersion.mean_pos hne hpos

theorem throughput_pos {pool : Nat} (hpool : 0 < pool) {xs : List K} (hne : xs ≠ []) (hpos : ∀ x ∈ xs, 0 < x) :
    0 < throughput pool xs := by
  have hpool' : (0 : K) < pool := by exact_mod_cast hpool
  exact div_pos (by positivity) (mean_pos hne hpos)

variable (std : List K → K)

def tputs (exp : Experiment) (pool : Nat) : List K := ((samples K exp).map Prod.snd).map (throughput pool)

theorem tputs_pos {exp : Experiment} (hpos : PositiveExperiment exp) {pool : Nat} (hpool : 0 < pool) :
    ∀ x ∈ tputs (K := K) exp pool, 0 < x := by
  intro x hx
  obtain ⟨s, hs, rfl⟩ := List.mem_map.mp hx
  obtain ⟨client, hclient, rfl⟩ := List.mem_map.mp hs
  obtain ⟨hne, hlat⟩ := pos_of_mem_samples hpos hclient
  exact throughput_pos hpool hne hlat

theorem filterMap_throughput {exp : Experiment} (hpos : PositiveExperiment exp) (pool : Nat) :
    ((samples K exp).map Prod.snd).filterMap (fun s => if mean s ≤ 0 then none else some (throughput pool s)) =
      tputs exp pool := by
  rw [tputs, ← List.filterMap_eq_map (f := throughput pool)]
  apply List.filterMap_congr
  intro s hs
  obtain ⟨client, hclient, rfl⟩ := List.mem_map.mp hs
  obtain ⟨hne, hlat⟩ := pos_of_mem_samples hpos hclient
  rw [if_neg (mean_pos hne hlat).not_ge]
  rfl

theorem mapM_tput {exp : Experiment} (hpos : PositiveExperiment exp) (pool : Nat) :
    ((samples K exp).map Prod.snd).mapM (tput pool) = some (tputs exp pool) := by
  apply PythonData.mapM_eq_map
  intro s hs
  obtain ⟨client, hclient, rfl⟩ := List.mem_map.mp hs
  obtain ⟨hne, hlat⟩ := pos_of_mem_samples hpos hclient
  rw [tput, if_neg (mean_pos hne hlat).ne']

theorem collectExperiment_eq {exp : Experiment} (hpos : PositiveExperiment exp) (pool : Nat) :
    collectExperiment std exp pool = some (if samples K exp = [] then none
      else some ⟨plotMetric std (allUs exp) (tputs exp pool), (PythonData.keys (samples K exp)).length⟩) := by
  have hload : exp.files.mapM (fun file => (load (K := K) MakePlots.loadLatencyNs file.2).map (fun s => (file.1, s))) =
      some (exp.files.map (fun file => (file.1, (load FaninReport.loadLatencyCsv file.2).getD []))) := mapM_load hpos
  have hkeep : (exp.files.map (fun file => (file.1, (load (K := K) FaninReport.loadLatencyCsv file.2).getD []))).filter
      (fun client => client.2 ≠ []) = samples K exp := rfl
  simp only [collectExperiment, hload, Option.bind_eq_bind, Option.bind_some, hkeep, values_samples, mapM_tput hpos,
    List.map_eq_nil_iff]
  split_ifs
  · rfl
  · rfl

theorem denom_pos {arr : List K} (hne : arr ≠ []) (hpos : ∀ x ∈ arr, 0 < x) :
    (0 : K) < arr.length * (arr.map (fun x => x * x)).sum := by
  have hsquares := Dispersion.length_mul_squares_pos hne hpos
  simpa only [Dispersion.squares, sq] using hsquares

theorem fairnessStats_eq {exp : Experiment} (hpos : PositiveExperiment exp) {pool : Nat} (hpool : 0 < pool)
    (hne : samples K exp ≠ []) :
    fairnessStats std (samples K exp) pool =
      { jain := plotMetric std (allUs exp) (tputs exp pool) .jain
        cv := plotMetric std (allUs exp) (tputs exp pool) .cv
        minMax := plotMetric std (allUs exp) (tputs exp pool) .minMax } := by
  have htne : tputs (K := K) exp pool ≠ [] := by simpa [tputs] using hne
  have hdenom := denom_pos htne (tputs_pos hpos hpool)
  have hsquares : (tputs (K := K) exp pool).map (fun x => x ^ 2) = (tputs exp pool).map (fun x => x * x) := by
    simp only [sq]
  simp only [fairnessStats, if_neg hne, values_samples, filterMap_throughput hpos, if_neg htne, plotMetric, hsquares,
    if_pos hdenom, if_neg hdenom.ne']

theorem metric_eq {exp : Experiment} (hpos : PositiveExperiment exp) {pool : Nat} (hpool : 0 < pool)
    (hne : samples K exp ≠ []) :
    ∃ row, collectRow std (samples K exp) pool = some row ∧
      ∀ m, row.metric m = plotMetric std (allUs exp) (tputs exp pool) m := by
  refine ⟨_, if_neg hne, ?_⟩
  intro m
  rw [fairnessStats_eq std hpos hpool hne, values_samples]
  cases m <;> rfl

theorem isSome_plotMetric {exp : Experiment} (hpos : PositiveExperiment exp) {pool : Nat} (hpool : 0 < pool)
    (hne : samples K exp ≠ []) (m : Metric) : (plotMetric std (allUs (K := K) exp) (tputs exp pool) m).isSome := by
  have htne : tputs (K := K) exp pool ≠ [] := by simpa [tputs] using hne
  have htpos := tputs_pos (K := K) hpos hpool
  have hune := allUs_ne_nil hne
  cases m with
  | p50 => exact Percentile.isSome_percentile hune (by norm_num)
  | p95 => exact Percentile.isSome_percentile hune (by norm_num)
  | p99 => exact Percentile.isSome_percentile hune (by norm_num)
  | p999 => exact Percentile.isSome_percentile hune (by norm_num)
  | mean => rfl
  | jain =>
    have hdenom := denom_pos htne htpos
    simp only [← sq] at hdenom
    simp only [plotMetric, if_neg hdenom.ne']
    rfl
  | cv =>
    simp only [plotMetric, if_pos (mean_pos htne htpos)]
    rfl
  | minMax =>
    obtain ⟨low, high, hratio, -⟩ := exists_minMaxRatio htne htpos
    exact Option.isSome_iff_exists.mpr ⟨low / high, hratio⟩

end DcBench.FaninExperiment

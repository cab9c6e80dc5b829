import DcBench.CompareExperiments

namespace DcBench.ComparisonLabels

open DcBench.Lib DcBench.Lib.PythonFormat DcBench.Analyze DcBench.Fairness DcBench.CompareExperiments

variable {ν : Type} {dirs : List Text} {labels : Option (List Text)}

/-- One entry for each directory, under a name of its own, and the entry of a
directory is made from it. -/
def OneEach (dirs : List Text) (own : Text → ν → Prop) (results : List (Text × ν)) : Prop :=
  ∃ names : List Text, names.Perm (PythonData.keys results) ∧
    List.Forall₂ (fun d name => ∃ v, PythonData.get results name = some v ∧ own d v) dirs names

def labelsUsed (label : Nat → Text → Text) (dirs : List Text) : List Text :=
  dirs.zipIdx.map (fun p => label p.2 p.1)

theorem labelOf_eq (labels : Option (List Text)) (i : Nat) (other : Text) :
    labelOf labels i other = ((labels.getD [])[i]?).getD other := by
  cases labels with
  | none => rfl
  | some ls =>
    rw [labelOf, Option.getD_some]
    split
    · rfl
    case isFalse h =>
      rw [List.getElem?_eq_none, Option.getD_none]
      by_contra hlt
      exact h ⟨List.ne_nil_of_length_pos (by omega), by omega⟩

theorem labelsUsed_labelOf (hlen : (labels.getD []).length ≤ dirs.length) (other : Text → Text) :
    labelsUsed (fun i d => labelOf labels i (other d)) dirs =
      labels.getD [] ++ (dirs.drop (labels.getD []).length).map other := by
  apply List.ext_getElem?
  intro i
  rw [labelsUsed, List.getElem?_map, List.getElem?_zipIdx, List.getElem?_append, List.getElem?_map,
    List.getElem?_drop]
  simp only [labelOf_eq, Nat.zero_add, Option.map_map, Function.comp_def]
  split
  case isTrue hi =>
    rw [List.getElem?_eq_getElem hi, List.getElem?_eq_getElem (hi.trans_le hlen)]
    rfl
  case isFalse hi =>
    rw [List.getElem?_eq_none (Nat.le_of_not_lt hi), Nat.add_sub_cancel' (Nat.le_of_not_lt hi)]
    rfl

theorem map_fst_entries {answer : Text → Option ν} (h : ∀ d ∈ dirs, (answer d).isSome)
    (label : Nat → Text → Text) : (entries answer label dirs).map Prod.fst = labelsUsed label dirs := by
  rw [entries, labelsUsed, List.map_filterMap, ← List.filterMap_eq_map]
  apply List.filterMap_congr
  intro p hp
  obtain ⟨v, hv⟩ := Option.isSome_iff_exists.mp (h p.1 (List.fst_mem_of_mem_zipIdx hp))
  rw [hv]
  rfl

/-- The last assignment to a label counts: nothing is lost exactly when no label
is used twice and every directory has an answer. -/
theorem oneEach_iff {own : Text → ν → Prop} {answer : Text → Option ν} (hown : ∀ d v, own d v ↔ answer d = some v)
    (label : Nat → Text → Text) : OneEach dirs own (entries answer label dirs) ↔
      (labelsUsed label dirs).Nodup ∧ ∀ d ∈ dirs, (answer d).isSome := by
  constructor
  · rintro ⟨names, hperm, hall⟩
    have hsome : ∀ d ∈ dirs, (answer d).isSome := by
      have hboth := hall.imp (S := fun d name => (answer d).isSome ∧ True) (by
        rintro d name ⟨v, -, hv⟩
        rw [(hown d v).mp hv]
        exact ⟨rfl, trivial⟩)
      exact ((List.forall₂_and_left _ _).mp hboth).1
    have hfst := map_fst_entries hsome label
    refine ⟨?_, hsome⟩
    rw [← hfst, ← PythonData.length_keys_eq_iff, ← hperm.length_eq, ← hall.length_eq]
    have hlen := congrArg List.length hfst
    rw [List.length_map, labelsUsed, List.length_map, List.length_zipIdx] at hlen
    exact hlen.symm
  · rintro ⟨hnodup, hsome⟩
    have hfst := map_fst_entries hsome label
    rw [← hfst] at hnodup
    refine ⟨labelsUsed label dirs, ?_, ?_⟩
    · rw [PythonData.keys_of_nodup hnodup, hfst]
    · have hsame : List.Forall₂ (fun d name => ∃ v, PythonData.get (entries answer label dirs) name = some v ∧ own d v)
          (dirs.zipIdx.map Prod.fst) (labelsUsed label dirs) := by
        rw [labelsUsed, List.forall₂_map_left_iff, List.forall₂_map_right_iff, List.forall₂_same]
        intro p hp
        obtain ⟨v, hv⟩ := Option.isSome_iff_exists.mp (hsome p.1 (List.fst_mem_of_mem_zipIdx hp))
        have hmem : (label p.2 p.1, v) ∈ entries answer label dirs := by
          rw [entries, List.mem_filterMap]
          exact ⟨p, hp, by rw [hv, Option.map_some]⟩
        exact ⟨v, PythonData.get_of_mem hnodup hmem, (hown p.1 v).mpr hv⟩
      rwa [List.zipIdx_map_fst] at hsame

def answerAt (fs : FileSystem) (analyze : ResultDir → Option (Option ν)) (d : Text) : Option ν :=
  (fs d).bind (fun dir => (analyze dir).join)

theorem onPath_eq {fs : FileSystem} {analyze : ResultDir → Option (Option ν)} {d : Text} {dir : ResultDir}
    {a : Option ν} (hfs : fs d = some dir) (ha : analyze dir = some a) :
    onPath fs analyze d = .ok (answerAt fs analyze d) := by
  simp [onPath, answerAt, hfs, ha]

/-- Every directory can be read and holds a sample. -/
def Sampled (fs : FileSystem) (dirs : List Text) : Prop :=
  ∀ d ∈ dirs, ∃ dir samples, fs d = some dir ∧ merged dir = some samples ∧ samples ≠ []

theorem sources_ne_nil {dir : ResultDir} {samples : List Int} (h : merged dir = some samples) (hne : samples ≠ []) :
    sources dir ≠ [] := by
  intro hnil
  rw [merged_eq_some_iff, hnil] at h
  exact hne h.2

section AnalyzeScript

variable {std : List ℚ → ℚ} {fs : FileSystem}

def OwnStats (std : List ℚ → ℚ) (fs : FileSystem) (d : Text) (stats : Option Stats) : Prop :=
  ∃ dir analysis, fs d = some dir ∧ analyzeExperiment std dir = some (some analysis) ∧ stats = analysis.aggregate

theorem ownStats_iff (std : List ℚ → ℚ) (fs : FileSystem) (d : Text) (stats : Option Stats) : OwnStats std fs d stats ↔
    (answerAt fs (analyzeExperiment std) d).map Analysis.aggregate = some stats := by
  simp only [OwnStats, answerAt, Option.map_eq_some_iff, Option.bind_eq_some_iff, Option.join_eq_some_iff]
  constructor
  · rintro ⟨dir, a, hfs, ha, rfl⟩
    exact ⟨a, ⟨dir, hfs, ha⟩, rfl⟩
  · rintro ⟨a, ⟨dir, hfs, ha⟩, rfl⟩
    exact ⟨dir, a, hfs, ha, rfl⟩

theorem aggregates_eq_entries (answer : Text → Option Analysis) : aggregates answer labels dirs =
    entries (fun d => (answer d).map Analysis.aggregate) (fun i d => labelOf labels i (basename d)) dirs := by
  rw [aggregates, entries, entries, List.map_filterMap]
  apply List.filterMap_congr
  intro p _
  cases answer p.1 <;> rfl

theorem sampled_answer (std : List ℚ → ℚ) (h : Sampled fs dirs) {d : Text} (hd : d ∈ dirs) :
    onPath fs (analyzeExperiment std) d = .ok (answerAt fs (analyzeExperiment std) d) ∧
      ∃ stats, (answerAt fs (analyzeExperiment std) d).map Analysis.aggregate = some (some stats) := by
  obtain ⟨dir, samples, hfs, hmerged, hne⟩ := h d hd
  have heq := analyzeExperiment_eq std hmerged
  rw [if_neg (sources_ne_nil hmerged hne)] at heq
  refine ⟨onPath_eq hfs heq, ?_⟩
  obtain ⟨stats, hstats⟩ := Option.isSome_iff_exists.mp ((isSome_computeStats std).mpr hne)
  exact ⟨stats, by simp [answerAt, hfs, heq, hstats]⟩

theorem compare_oneEach_iff (h : Sampled fs dirs) :
    (∃ ret lines, compareExperiments std fs dirs labels = .ok (ret, lines) ∧
      OneEach dirs (OwnStats std fs) (ret.getD [])) ↔
    (labelsUsed (fun i d => labelOf labels i (basename d)) dirs).Nodup := by
  have hpath : ∀ d ∈ dirs, onPath fs (analyzeExperiment std) d = .ok (answerAt fs (analyzeExperiment std) d) :=
    fun d hd => (sampled_answer std h hd).1
  have hfull : ∀ k s, PythonData.get (aggregates (answerAt fs (analyzeExperiment std)) labels dirs) k = some s →
      s.isSome := by
    intro k s hget
    have hmem := PythonData.mem_of_get hget
    rw [aggregates_eq_entries, entries, List.mem_filterMap] at hmem
    obtain ⟨p, hp, heq⟩ := hmem
    obtain ⟨stats, hstats⟩ := (sampled_answer std h (List.fst_mem_of_mem_zipIdx hp)).2
    rw [hstats, Option.map_some] at heq
    cases heq
    rfl
  have hone : OneEach dirs (OwnStats std fs) (aggregates (answerAt fs (analyzeExperiment std)) labels dirs) ↔
      (labelsUsed (fun i d => labelOf labels i (basename d)) dirs).Nodup := by
    rw [aggregates_eq_entries, oneEach_iff (ownStats_iff std fs), and_iff_left]
    intro d hd
    obtain ⟨stats, hstats⟩ := (sampled_answer std h hd).2
    rw [hstats]
    rfl
  rw [← hone]
  constructor
  · rintro ⟨ret, lines, hok, hret⟩
    rwa [((compareExperiments_ok_iff hpath).mp ⟨lines, hok⟩).1, getD_ret] at hret
  · intro hone'
    obtain ⟨lines, hok⟩ := (compareExperiments_ok_iff hpath).mpr ⟨rfl, hfull⟩
    exact ⟨_, lines, hok, (getD_ret _).symm ▸ hone'⟩

end AnalyzeScript

section FairnessScript

variable {K : Type} [Field K] [LinearOrder K] {std : List K → K} {fs : FileSystem} {poolSize : Int}

def OwnFairness (std : List K → K) (fs : FileSystem) (poolSize : Int) (d : Text) (data : FairnessData K) : Prop :=
  ∃ dir, fs d = some dir ∧ analyzeFairness std dir poolSize = some (some data)

theorem ownFairness_iff (std : List K → K) (fs : FileSystem) (poolSize : Int) (d : Text) (data : FairnessData K) :
    OwnFairness std fs poolSize d data ↔ answerAt fs (fun dir => analyzeFairness std dir poolSize) d = some data := by
  simp only [OwnFairness, answerAt, Option.bind_eq_some_iff, Option.join_eq_some_iff]

omit [LinearOrder K] in
theorem load_fileSamples {text : List Char} (h : LatencyCsv.Analyze.loadLatencyCsv text = some (fileSamples text)) :
    FaninReport.load (K := K) LatencyCsv.Fairness.loadLatencyCsv text =
      some ((fileSamples text).map (fun n : Int => ((n : ℚ) : K))) := by
  have hread : LatencyCsv.latenciesNs text = some (fileSamples text) := h
  rw [FaninReport.load, LatencyCsv.Fairness.loadLatencyCsv, LatencyCsv.float64Ns, hread, Option.map_some,
    Option.map_some, List.map_map]
  rfl

def clientSamples (dir : ResultDir) : List (String × List K) :=
  dir.latencyFiles.map (fun file => (file.1, (fileSamples file.2).map (fun n : Int => ((n : ℚ) : K))))

theorem analyzeFairness_eq (std : List K → K) (poolSize : Int) {dir : ResultDir} {samples : List Int}
    (h : merged dir = some samples) (hne : samples ≠ []) :
    ∃ answer, analyzeFairness std dir poolSize = some answer ∧ (answer.isSome ↔ dir.latencyFiles ≠ []) := by
  by_cases hnil : dir.latencyFiles = []
  · refine ⟨none, ?_, by simp [hnil]⟩
    rw [analyzeFairness, hnil]
    rfl
  · obtain ⟨hread, rfl⟩ := merged_eq_some_iff.mp h
    rw [sources, if_neg hnil] at hread hne
    have hload : dir.latencyFiles.mapM (fun file =>
        (FaninReport.load (K := K) LatencyCsv.Fairness.loadLatencyCsv file.2).map (fun s => (file.1, s))) =
        some (clientSamples dir) := by
      apply PythonData.mapM_eq_map
      intro file hfile
      rw [load_fileSamples (hread file hfile), Option.map_some]
    have hclients : perClient (K := K) (clientSamples dir) poolSize ≠ [] := by
      rw [perClient, Ne, List.map_eq_nil_iff, List.filter_eq_nil_iff]
      intro hall
      apply hne
      rw [List.flatMap_eq_nil_iff]
      intro file hfile
      have hempty := hall _ (List.mem_map_of_mem hfile)
      simpa using hempty
    refine ⟨aggregate std (clientSamples dir) poolSize, ?_, ?_⟩
    · rw [analyzeFairness, hload]
      rfl
    · rw [aggregate, if_neg hclients]
      simp [hnil]

theorem sampled_fairness (std : List K → K) (poolSize : Int) (h : Sampled fs dirs) {d : Text} (hd : d ∈ dirs) :
    onPath fs (fun dir => analyzeFairness std dir poolSize) d =
      .ok (answerAt fs (fun dir => analyzeFairness std dir poolSize) d) ∧
    ((answerAt fs (fun dir => analyzeFairness std dir poolSize) d).isSome ↔
      ∃ dir, fs d = some dir ∧ dir.latencyFiles ≠ []) := by
  obtain ⟨dir, samples, hfs, hmerged, hne⟩ := h d hd
  obtain ⟨answer, heq, hsome⟩ := analyzeFairness_eq std poolSize hmerged hne
  refine ⟨onPath_eq hfs heq, ?_⟩
  simp only [answerAt, hfs, heq, Option.bind_some, Option.join_some, Option.some.injEq, exists_eq_left']
  exact hsome

theorem fairnessMain_results {answer : Text → Option (FairnessData K)} (labels : Option (List Text)) (asJson : Bool)
    (h : ∀ d ∈ dirs, onPath fs (fun dir => analyzeFairness std dir poolSize) d = .ok (answer d)) :
    ∃ ending, fairnessMain std fs dirs labels poolSize asJson = .ok ending ∧
      ending.results = entries answer (fun i d => labelOf labels i (basename (rstripSlash d))) dirs := by
  rw [fairnessMain, collect_eq h]
  by_cases hnil : entries answer (fun i d => labelOf labels i (basename (rstripSlash d))) dirs = []
  · exact ⟨.noData, if_pos hnil, hnil.symm⟩
  · cases asJson with
    | true => exact ⟨.json _, if_neg hnil, rfl⟩
    | false => exact ⟨.tables _ _, if_neg hnil, rfl⟩

theorem fairness_oneEach_iff (std : List K → K) (poolSize : Int) (asJson : Bool) (h : Sampled fs dirs) :
    (∃ ending, fairnessMain std fs dirs labels poolSize asJson = .ok ending ∧
      OneEach dirs (OwnFairness std fs poolSize) ending.results) ↔
    (labelsUsed (fun i d => labelOf labels i (basename (rstripSlash d))) dirs).Nodup ∧
      ∀ d ∈ dirs, ∃ dir, fs d = some dir ∧ dir.latencyFiles ≠ [] := by
  obtain ⟨ending, hok, hresults⟩ := fairnessMain_results labels asJson
    (fun d hd => (sampled_fairness std poolSize h hd).1)
  have hone := @oneEach_iff _ dirs _ _ (ownFairness_iff std fs poolSize)
    (fun i d => labelOf labels i (basename (rstripSlash d)))
  rw [forall₂_congr (fun d hd => ((sampled_fairness std poolSize h hd).2).symm), ← hone, ← hresults, hok]
  constructor
  · rintro ⟨ending', heq, hone'⟩
    cases heq
    exact hone'
  · intro hone'
    exact ⟨ending, rfl, hone'⟩

end FairnessScript

/-- Which comparisons keep every experiment. The second script also needs the
samples of a directory to be those of its clients. -/
theorem no_experiment_lost_iff {K : Type} [Field K] [LinearOrder K] (stdUs : List ℚ → ℚ) (stdTput : List K → K)
    {fs : FileSystem} (poolSize : Int) (asJson : Bool) (h : Sampled fs dirs)
    (hlen : (labels.getD []).length ≤ dirs.length) :
    ((∃ ret lines, compareExperiments stdUs fs dirs labels = .ok (ret, lines) ∧
        OneEach dirs (OwnStats stdUs fs) (ret.getD [])) ↔
      (labels.getD [] ++ (dirs.drop (labels.getD []).length).map basename).Nodup) ∧
    ((∃ ending, fairnessMain stdTput fs dirs labels poolSize asJson = .ok ending ∧
        OneEach dirs (OwnFairness stdTput fs poolSize) ending.results) ↔
      (labels.getD [] ++ (dirs.drop (labels.getD []).length).map (fun d => basename (rstripSlash d))).Nodup ∧
        ∀ d ∈ dirs, ∃ dir, fs d = some dir ∧ dir.latencyFiles ≠ []) := by
  rw [compare_oneEach_iff h, fairness_oneEach_iff stdTput poolSize asJson h, labelsUsed_labelOf hlen,
    labelsUsed_labelOf hlen (fun d => basename (rstripSlash d))]
  exact ⟨Iff.rfl, Iff.rfl⟩

def oneClient (samples : List UInt64) : ResultDir := ⟨[("client_0", some (LatencyHistogram.csvText samples))], []⟩

theorem merged_oneClient (samples : List UInt64) :
    merged (oneClient samples) = some (samples.map (fun x => (x.toNat : Int))) := by
  have hread : LatencyCsv.Analyze.loadLatencyCsv (LatencyHistogram.csvText samples) = _ :=
    LatencyCsv.latenciesNs_csvText samples
  rw [merged_eq_some_iff]
  simp [sources, oneClient, ResultDir.latencyFiles, fileSamples, hread]

def oneSample (latency : Text → UInt64) : FileSystem := fun d => some (oneClient [latency d])

theorem sampled_oneSample (latency : Text → UInt64) (dirs : List Text) : Sampled (oneSample latency) dirs := by
  intro d _
  exact ⟨_, _, rfl, merged_oneClient [latency d], by simp⟩

theorem latencyFiles_oneSample (latency : Text → UInt64) (d : Text) :
    ∃ dir, oneSample latency d = some dir ∧ dir.latencyFiles ≠ [] := ⟨_, rfl, List.cons_ne_nil _ _⟩

def results : FileSystem := oneSample (fun d => if d = "results/tcp".toList then 5000 else 7000)

theorem no_experiment_lost_iff_results :
    (∃ ret lines, compareExperiments (fun _ => 0) results ["results/tcp".toList, "results/homa".toList] none =
        .ok (ret, lines) ∧
      OneEach ["results/tcp".toList, "results/homa".toList] (OwnStats (fun _ => 0) results) (ret.getD [])) ∧
    (∃ ending, fairnessMain (fun _ : List ℚ => 0) results ["results/tcp".toList, "results/homa".toList] none 1 true =
        .ok ending ∧
      OneEach ["results/tcp".toList, "results/homa".toList] (OwnFairness (fun _ => 0) results 1)
        ending.results) := by
  have hshort : ((none : Option (List Text)).getD []).length ≤ ["results/tcp".toList, "results/homa".toList].length :=
    Nat.zero_le _
  obtain ⟨hcompare, hfairness⟩ := no_experiment_lost_iff (K := ℚ) (fun _ => 0) (fun _ => 0) 1 true
    (sampled_oneSample _ _) hshort
  exact ⟨hcompare.mpr (by decide), hfairness.mpr ⟨by decide, fun d _ => latencyFiles_oneSample _ d⟩⟩

def trials : FileSystem := oneSample (fun d => if d = "trial1/homa".toList then 5000 else 7000)

/-- The directories of two trials of one experiment have the same last name. -/
theorem second_trial_replaces_first :
    Sampled trials ["trial1/homa".toList, "trial2/homa".toList] ∧
    (¬ ∃ ret lines, compareExperiments (fun _ => 0) trials ["trial1/homa".toList, "trial2/homa".toList] none =
        .ok (ret, lines) ∧
      OneEach ["trial1/homa".toList, "trial2/homa".toList] (OwnStats (fun _ => 0) trials) (ret.getD [])) ∧
    (¬ ∃ ending, fairnessMain (fun _ : List ℚ => 0) trials ["trial1/homa".toList, "trial2/homa".toList] none 1 true =
        .ok ending ∧
      OneEach ["trial1/homa".toList, "trial2/homa".toList] (OwnFairness (fun _ => 0) trials 1) ending.results) := by
  have h : Sampled trials ["trial1/homa".toList, "trial2/homa".toList] := sampled_oneSample _ _
  refine ⟨h, ?_, ?_⟩
  · rw [compare_oneEach_iff h]
    decide
  · rw [fairness_oneEach_iff _ _ _ h]
    intro hboth
    exact absurd hboth.1 (by decide)

end DcBench.ComparisonLabels

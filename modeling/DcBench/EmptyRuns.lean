import DcBench.ComparisonLabels

namespace DcBench.EmptyRuns

open DcBench.Lib DcBench.Lib.PythonFormat DcBench.Analyze DcBench.CompareExperiments DcBench.ComparisonLabels

variable {fs : FileSystem} {dirs : List Text} {labels : Option (List Text)}

/-- Every directory is there, and its csv files are texts that `dump_csv` wrote. -/
def Dumped (fs : FileSystem) (dirs : List Text) : Prop :=
  ∀ d ∈ dirs, ∃ dir, fs d = some dir ∧ ∀ text ∈ dir.texts, ∃ samples, text = LatencyHistogram.csvText samples

def HasFiles (fs : FileSystem) (d : Text) : Prop := ∃ dir, fs d = some dir ∧ sources dir ≠ []

/-- There are such files, and none of them holds a sample. -/
def Barren (fs : FileSystem) (d : Text) : Prop := ∃ dir, fs d = some dir ∧ sources dir ≠ [] ∧ merged dir = some []

def Sampling (fs : FileSystem) (d : Text) : Prop :=
  ∃ dir samples, fs d = some dir ∧ merged dir = some samples ∧ samples ≠ []

/-- What a comparison reports of a directory with samples: statistics under its
label. -/
def Reported (fs : FileSystem) (dirs : List Text) (label : Nat → Text → Text) (results : List (Text × Option Stats)) :
    Prop :=
  ∀ p ∈ dirs.zipIdx, Sampling fs p.1 → ∃ stats, PythonData.get results (label p.2 p.1) = some (some stats)

/-- A later directory with files has taken over the label of this one. -/
def Shadowed (fs : FileSystem) (label : Nat → Text → Text) (i : Nat) (d : Text) (after : List Text) : Prop :=
  ∃ p ∈ after.zipIdx (i + 1), HasFiles fs p.1 ∧ label p.2 p.1 = label i d

section Loop

variable {σ : Type} {value : Text → Option (Option σ)} {label : Nat → Text → Text}

def entriesFrom (value : Text → Option (Option σ)) (label : Nat → Text → Text) (n : Nat) (dirs : List Text) :
    List (Text × Option σ) :=
  (dirs.zipIdx n).filterMap (fun p => (value p.1).map (fun v => (label p.2 p.1, v)))

theorem entriesFrom_cons (n : Nat) (d : Text) : entriesFrom value label n (d :: dirs) =
    ((value d).map (fun v => (label n d, v))).toList ++ entriesFrom value label (n + 1) dirs := by
  rw [entriesFrom, List.zipIdx_cons, List.filterMap_cons]
  cases value d <;> rfl

theorem mem_keys_entriesFrom {n : Nat} {k : Text} : k ∈ (entriesFrom value label n dirs).map Prod.fst ↔
    ∃ p ∈ dirs.zipIdx n, (value p.1).isSome ∧ label p.2 p.1 = k := by
  simp only [entriesFrom, List.map_filterMap, List.mem_filterMap, Option.map_map, Option.map_eq_some_iff,
    Option.isSome_iff_exists, Function.comp_apply]
  constructor
  · rintro ⟨p, hp, v, hv, hk⟩
    exact ⟨p, hp, ⟨v, hv⟩, hk⟩
  · rintro ⟨p, hp, ⟨v, hv⟩, hk⟩
    exact ⟨p, hp, v, hv, hk⟩

theorem get_entriesFrom_cons (n : Nat) (d k : Text) : PythonData.get (entriesFrom value label n (d :: dirs)) k =
    (PythonData.get (entriesFrom value label (n + 1) dirs) k).or (if label n d = k then value d else none) := by
  rw [entriesFrom_cons, PythonData.get_append]
  congr 1
  cases value d with
  | none => simp [PythonData.get]
  | some v =>
    by_cases hk : label n d = k <;> simp [PythonData.get, hk]

theorem get_isSome_cons (n : Nat) (d : Text) :
    (∀ k s, PythonData.get (entriesFrom value label n (d :: dirs)) k = some s → s.isSome) ↔
      (value d = some none → label n d ∈ (entriesFrom value label (n + 1) dirs).map Prod.fst) ∧
      ∀ k s, PythonData.get (entriesFrom value label (n + 1) dirs) k = some s → s.isSome := by
  simp only [get_entriesFrom_cons]
  constructor
  · intro h
    constructor
    · intro hd
      by_contra hnot
      have hnone := h (label n d) none
      rw [PythonData.get_eq_none_iff.mpr hnot, Option.none_or, if_pos rfl] at hnone
      exact absurd (hnone hd) (by simp)
    · intro k s hk
      apply h k s
      rw [hk, Option.some_or]
  · rintro ⟨hd, hrest⟩ k s hk
    obtain hk | ⟨hnone, hk⟩ := Option.or_eq_some_iff.mp hk
    · exact hrest k s hk
    · rw [Option.ite_none_right_eq_some] at hk
      obtain ⟨rfl, hvalue⟩ := hk
      cases s with
      | some s => rfl
      | none => exact absurd (hd hvalue) (PythonData.get_eq_none_iff.mp hnone)

theorem forall_get_isSome_iff (n : Nat) :
    (∀ k s, PythonData.get (entriesFrom value label n dirs) k = some s → s.isSome) ↔
      ∀ before d after, dirs = before ++ d :: after → value d = some none →
        ∃ p ∈ after.zipIdx (n + before.length + 1), (value p.1).isSome ∧ label p.2 p.1 = label (n + before.length) d := by
  induction dirs generalizing n with
  | nil => simp [entriesFrom, PythonData.get]
  | cons d dirs ih =>
    rw [get_isSome_cons, mem_keys_entriesFrom, ih (n + 1)]
    constructor
    · rintro ⟨hd, hrest⟩ before e after hsplit hvalue
      cases before with
      | nil =>
        cases hsplit
        exact hd hvalue
      | cons b before =>
        cases hsplit
        have hlater := hrest before e after rfl hvalue
        rwa [Nat.add_right_comm n 1] at hlater
    · intro h
      constructor
      · intro hvalue
        exact h [] d dirs rfl hvalue
      · intro before e after hsplit hvalue
        have hlater := h (d :: before) e after (by rw [hsplit]; rfl) hvalue
        rwa [List.length_cons, ← Nat.add_assoc, Nat.add_right_comm n before.length 1] at hlater

end Loop

theorem merged_of_dumped {dir : ResultDir} (h : ∀ text ∈ dir.texts, ∃ samples, text = LatencyHistogram.csvText samples) :
    ∃ samples, merged dir = some samples := by
  refine ⟨_, merged_eq_some_iff.mpr ⟨?_, rfl⟩⟩
  intro file hfile
  obtain ⟨samples, htext⟩ := h file.2 (mem_texts_of_mem_sources hfile)
  have hread : LatencyCsv.Analyze.loadLatencyCsv file.2 = _ := htext ▸ LatencyCsv.latenciesNs_csvText samples
  rw [fileSamples, hread, Option.getD_some]

def aggregateAt (std : List ℚ → ℚ) (fs : FileSystem) (d : Text) : Option (Option Stats) :=
  (answerAt fs (analyzeExperiment std) d).map Analysis.aggregate

theorem analyze_dumped (std : List ℚ → ℚ) (h : Dumped fs dirs) {d : Text} (hd : d ∈ dirs) :
    onPath fs (analyzeExperiment std) d = .ok (answerAt fs (analyzeExperiment std) d) ∧
      ((aggregateAt std fs d).isSome ↔ HasFiles fs d) ∧ (aggregateAt std fs d = some none ↔ Barren fs d) := by
  obtain ⟨dir, hfs, htexts⟩ := h d hd
  obtain ⟨samples, hmerged⟩ := merged_of_dumped htexts
  have heq := analyzeExperiment_eq std hmerged
  refine ⟨onPath_eq hfs heq, ?_⟩
  simp only [HasFiles, Barren, aggregateAt, answerAt, hfs, heq, hmerged, Option.bind_some, Option.join_some,
    Option.some.injEq, exists_eq_left']
  by_cases hnil : sources dir = []
  · simp [hnil]
  · have hnone : ¬ (computeStats std samples).isSome ↔ ¬ samples ≠ [] := not_congr (isSome_computeStats std)
    simp only [hnil, if_false, Option.map_some, Option.isSome_some, ne_eq, not_false_eq_true, true_and,
      Option.some.injEq]
    rwa [Option.not_isSome_iff_eq_none, not_not] at hnone

theorem sampling_hasFiles {d : Text} (h : Sampling fs d) : HasFiles fs d := by
  obtain ⟨dir, samples, hfs, hmerged, hne⟩ := h
  exact ⟨dir, hfs, sources_ne_nil hmerged hne⟩

theorem aggregates_eq_entriesFrom (std : List ℚ → ℚ) (fs : FileSystem) :
    aggregates (answerAt fs (analyzeExperiment std)) labels dirs =
      entriesFrom (aggregateAt std fs) (fun i d => labelOf labels i (basename d)) 0 dirs := aggregates_eq_entries _

theorem aggregates_isSome_iff (std : List ℚ → ℚ) (h : Dumped fs dirs) :
    (∀ k s, PythonData.get (aggregates (answerAt fs (analyzeExperiment std)) labels dirs) k = some s → s.isSome) ↔
      ∀ before d after, dirs = before ++ d :: after → Barren fs d →
        Shadowed fs (fun i d => labelOf labels i (basename d)) before.length d after := by
  rw [aggregates_eq_entriesFrom, forall_get_isSome_iff]
  refine forall₃_congr (fun before d after => forall_congr' (fun hsplit => ?_))
  have hd : d ∈ dirs := by simp [hsplit]
  rw [(analyze_dumped std h hd).2.2, Shadowed, Nat.zero_add]
  refine imp_congr_right (fun _ => exists_congr (fun p => and_congr_right (fun hp => ?_)))
  have hlater : p.1 ∈ dirs := by
    rw [hsplit]
    exact List.mem_append_right before (List.mem_cons_of_mem d (List.fst_mem_of_mem_zipIdx hp))
  rw [(analyze_dumped std h hlater).2.1]

/-- The comparison returns exactly when each directory without samples is
shadowed. -/
theorem compare_ok_iff (std : List ℚ → ℚ) (h : Dumped fs dirs) {ret : Option (List (Text × Option Stats))} :
    (∃ lines, compareExperiments std fs dirs labels = .ok (ret, lines)) ↔
      ret = (if aggregates (answerAt fs (analyzeExperiment std)) labels dirs = [] then none
        else some (aggregates (answerAt fs (analyzeExperiment std)) labels dirs)) ∧
      ∀ before d after, dirs = before ++ d :: after → Barren fs d →
        Shadowed fs (fun i d => labelOf labels i (basename d)) before.length d after := by
  rw [← aggregates_isSome_iff std h]
  exact compareExperiments_ok_iff (fun d hd => (analyze_dumped std h hd).1)

theorem compare_returns_iff (std : List ℚ → ℚ) (h : Dumped fs dirs) :
    (∃ ret lines, compareExperiments std fs dirs labels = .ok (ret, lines) ∧
      Reported fs dirs (fun i d => labelOf labels i (basename d)) (ret.getD [])) ↔
    ∀ before d after, dirs = before ++ d :: after → Barren fs d →
      Shadowed fs (fun i d => labelOf labels i (basename d)) before.length d after := by
  constructor
  · rintro ⟨ret, lines, hok, -⟩
    exact ((compare_ok_iff std h).mp ⟨lines, hok⟩).2
  · intro hshadowed
    obtain ⟨lines, hok⟩ := (compare_ok_iff std h).mpr ⟨rfl, hshadowed⟩
    refine ⟨_, lines, hok, ?_⟩
    intro p hp hsampling
    rw [getD_ret]
    have hfiles := (analyze_dumped std h (List.fst_mem_of_mem_zipIdx hp)).2.1.mpr (sampling_hasFiles hsampling)
    have hkey : labelOf labels p.2 (basename p.1) ∈
        (aggregates (answerAt fs (analyzeExperiment std)) labels dirs).map Prod.fst := by
      rw [aggregates_eq_entriesFrom, mem_keys_entriesFrom]
      exact ⟨p, hp, hfiles, rfl⟩
    obtain ⟨s, hs⟩ := Option.ne_none_iff_exists'.mp (mt PythonData.get_eq_none_iff.mp (not_not.mpr hkey))
    obtain ⟨stats, rfl⟩ := Option.isSome_iff_exists.mp ((aggregates_isSome_iff std h).mpr hshadowed _ s hs)
    exact ⟨stats, hs⟩

theorem main_returns_iff (std : List ℚ → ℚ) (dumps : Analysis → Text) (dumpsAll : List (Text × Option Stats) → Text)
    {args : Args} {d : Text} (hargs : args.dirs = [d]) (h : Dumped fs args.dirs) :
    (∃ output, CompareExperiments.main std fs dumps dumpsAll args = .ok output) ↔ args.json = true ∨ ¬ Barren fs d := by
  have hd : d ∈ args.dirs := by simp [hargs]
  obtain ⟨hpath, -, hbarren⟩ := analyze_dumped std h hd
  simp only [CompareExperiments.main, hargs, hpath]
  rw [← hbarren, aggregateAt]
  cases answerAt fs (analyzeExperiment std) d with
  | none => exact ⟨fun _ => .inr (nofun), fun _ => ⟨_, rfl⟩⟩
  | some result =>
    obtain ⟨agg, perClient⟩ := result
    cases hjson : args.json with
    | true => exact ⟨fun _ => .inl rfl, fun _ => ⟨_, rfl⟩⟩
    | false =>
      cases agg with
      | none =>
        constructor
        · rintro ⟨output, hout⟩
          cases hout
        · rintro (hfalse | hnot)
          · cases hfalse
          · exact absurd rfl hnot
      | some stats => exact ⟨fun _ => .inr (nofun), fun _ => ⟨_, rfl⟩⟩

/-- Which analyses return on runs that may have recorded nothing. -/
theorem analysis_returns_iff (std : List ℚ → ℚ) (dumps : Analysis → Text)
    (dumpsAll : List (Text × Option Stats) → Text) (h : Dumped fs dirs) :
    (∀ d ∈ dirs, ∃ analysis, onPath fs (analyzeExperiment std) d = .ok analysis) ∧
    ((∃ ret lines, compareExperiments std fs dirs labels = .ok (ret, lines) ∧
        Reported fs dirs (fun i d => labelOf labels i (basename d)) (ret.getD [])) ↔
      ∀ before d after, dirs = before ++ d :: after → Barren fs d →
        Shadowed fs (fun i d => labelOf labels i (basename d)) before.length d after) ∧
    ∀ d ∈ dirs, ∀ args : Args, args.dirs = [d] →
      ((∃ output, CompareExperiments.main std fs dumps dumpsAll args = .ok output) ↔
        args.json = true ∨ ¬ Barren fs d) := by
  refine ⟨fun d hd => ⟨_, (analyze_dumped std h hd).1⟩, compare_returns_iff std h, ?_⟩
  intro d hd args hargs
  refine main_returns_iff std dumps dumpsAll hargs ?_
  intro e he
  rw [hargs, List.mem_singleton] at he
  exact h e (he ▸ hd)

/-- Runs in directories of their own, of which one recorded nothing. -/
def runs : FileSystem := fun d => some (oneClient (if d = "results/homa".toList then [] else [5000, 7000]))

theorem dumped_runs (dirs : List Text) : Dumped runs dirs := by
  intro d _
  refine ⟨_, rfl, ?_⟩
  intro text htext
  simp only [oneClient, ResultDir.texts, ResultDir.latencyFiles, List.filterMap_cons, Option.map_some,
    List.filterMap_nil, List.map_cons, List.map_nil, List.append_nil, List.mem_singleton] at htext
  exact ⟨_, htext⟩

theorem barren_runs_iff {d : Text} : Barren runs d ↔ d = "results/homa".toList := by
  constructor
  · rintro ⟨dir, hdir, -, hmerged⟩
    by_contra hd
    cases hdir
    rw [if_neg hd, merged_oneClient] at hmerged
    cases hmerged
  · rintro rfl
    exact ⟨_, rfl, List.cons_ne_nil _ _, merged_oneClient _⟩

/-- The empty run, a run of the other protocol, and a later run that has taken
over the label of the empty one. -/
def repeated : List Text := ["results/homa".toList, "results/tcp".toList, "later/homa".toList]

theorem analysis_returns_iff_repeated :
    Barren runs "results/homa".toList ∧
    (∃ ret lines, compareExperiments (fun _ => 0) runs repeated none = .ok (ret, lines) ∧
      Reported runs repeated (fun i d => labelOf none i (basename d)) (ret.getD [])) ∧
    ∃ output, CompareExperiments.main (fun _ => 0) runs (fun _ => []) (fun _ => [])
      ⟨["results/homa".toList], none, true, none⟩ = .ok output := by
  obtain ⟨-, hcompare, hmain⟩ := analysis_returns_iff (fun _ => 0) (fun _ => []) (fun _ => []) (dumped_runs repeated)
  refine ⟨barren_runs_iff.mpr rfl, hcompare.mpr ?_, ?_⟩
  · intro before d after hsplit hbarren
    rw [barren_runs_iff] at hbarren
    subst hbarren
    -- only the first directory is the empty one
    obtain ⟨rfl, rfl⟩ : before = [] ∧ after = ["results/tcp".toList, "later/homa".toList] := by
      cases before with
      | nil => exact ⟨rfl, (List.cons.inj hsplit).2.symm⟩
      | cons first rest =>
        have hmem : "results/homa".toList ∈ ["results/tcp".toList, "later/homa".toList] := by
          rw [(List.cons.inj hsplit).2]
          simp
        exact absurd hmem (by decide)
    refine ⟨("later/homa".toList, 2), by decide, ?_, by decide⟩
    exact ⟨_, rfl, List.cons_ne_nil _ _⟩
  · exact (hmain _ List.mem_cons_self ⟨["results/homa".toList], none, true, none⟩ rfl).mpr (.inl rfl)

/-- A run that recorded nothing stops the comparison and its own summary. -/
theorem empty_run_raises :
    Dumped runs ["results/tcp".toList, "results/homa".toList] ∧
    (¬ ∃ ret lines, compareExperiments (fun _ => 0) runs ["results/tcp".toList, "results/homa".toList] none =
      .ok (ret, lines)) ∧
    ¬ ∃ output, CompareExperiments.main (fun _ => 0) runs (fun _ => []) (fun _ => [])
      ⟨["results/homa".toList], none, false, none⟩ = .ok output := by
  have hbarren := barren_runs_iff.mpr (rfl : "results/homa".toList = _)
  refine ⟨dumped_runs _, ?_, ?_⟩
  · rintro ⟨ret, hlines⟩
    have hshadowed := ((compare_ok_iff _ (dumped_runs _)).mp hlines).2
    obtain ⟨p, hp, -⟩ := hshadowed ["results/tcp".toList] "results/homa".toList [] rfl hbarren
    cases hp
  · rw [main_returns_iff _ _ _ rfl (dumped_runs _)]
    rintro (hfalse | hnot)
    · cases hfalse
    · exact hnot hbarren

end DcBench.EmptyRuns

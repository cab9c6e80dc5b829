import DcBench.Fairness
import DcBench.Lib.PythonFormat
import Mathlib.Data.List.DropRight

namespace DcBench.CompareExperiments

open DcBench.Lib DcBench.Lib.PythonFormat DcBench.Analyze DcBench.Fairness

/-- What the scripts can raise: a directory that does not exist, a file that the
loader rejects, a key that a dict does not have. -/
inductive Error
  | fileNotFound
  | badFile
  | keyError (key : String)
deriving DecidableEq

abbrev FileSystem := Text → Option ResultDir

/-- `os.path.basename`: what stands after the last slash. -/
def basename (path : Text) : Text := path.rtakeWhile (fun c => c ≠ '/')

def rstripSlash (path : Text) : Text := path.rdropWhile (fun c => c = '/')

/-- `labels[i] if labels and i < len(labels) else other`. -/
def labelOf (labels : Option (List Text)) (i : Nat) (other : Text) : Text :=
  match labels with
  | none => other
  | some ls => if ls ≠ [] ∧ i < ls.length then ls.getD i other else other

def onPath {α : Type} (fs : FileSystem) (analyze : ResultDir → Option α) (d : Text) : Except Error α :=
  match fs d with
  | none => .error .fileNotFound
  | some dir =>
    match analyze dir with
    | none => .error .badFile
    | some a => .ok a

/-- The loop over the directories that fills the dict `results`. A directory that
is answered with `None` gets no entry. -/
def collect {α : Type} (analyze : Text → Except Error (Option α)) (label : Nat → Text → Text) (dirs : List Text) :
    Except Error (List (Text × α)) := do
  let rows ← dirs.zipIdx.mapM (fun p => do
    let analysis ← analyze p.1
    pure (analysis.map (fun a => (label p.2 p.1, a))))
  pure (rows.filterMap id)

def entries {α : Type} (answer : Text → Option α) (label : Nat → Text → Text) (dirs : List Text) : List (Text × α) :=
  dirs.zipIdx.filterMap (fun p => (answer p.1).map (fun a => (label p.2 p.1, a)))

theorem collect_eq {α : Type} {analyze : Text → Except Error (Option α)} {answer : Text → Option α} {dirs : List Text}
    (h : ∀ d ∈ dirs, analyze d = .ok (answer d)) (label : Nat → Text → Text) :
    collect analyze label dirs = .ok (entries answer label dirs) := by
  have hrows : dirs.zipIdx.mapM (fun p => do
      let analysis ← analyze p.1
      pure (analysis.map (fun a => (label p.2 p.1, a)))) =
      .ok (dirs.zipIdx.map (fun p => (answer p.1).map (fun a => (label p.2 p.1, a)))) := by
    apply PythonData.mapM_ok_eq_map
    intro p hp
    rw [h p.1 (List.fst_mem_of_mem_zipIdx hp)]
    rfl
  rw [collect, hrows]
  change Except.ok _ = _
  rw [List.filterMap_map]
  rfl

section AnalyzeScript

variable (std : List ℚ → ℚ) (fs : FileSystem)

/-- `stats[key]`, which raises on the empty dict. -/
def field {α : Type} (key : String) (read : Stats → α) (stats : Option Stats) : Except Error α :=
  match stats with
  | none => .error (.keyError key)
  | some s => .ok (read s)

def header : Text :=
  left 25 "Config".toList ++ " ".toList ++ right 10 "P50".toList ++ " ".toList ++ right 10 "P95".toList ++
    " ".toList ++ right 10 "P99".toList ++ " ".toList ++ right 10 "P99.9".toList ++ " ".toList ++
    right 10 "Mean".toList ++ " ".toList ++ right 10 "Count".toList

def tableRow (label : Text) (stats : Option Stats) : Except Error Text := do
  let p50 ← field "p50_us" Stats.p50Us stats
  let p95 ← field "p95_us" Stats.p95Us stats
  let p99 ← field "p99_us" Stats.p99Us stats
  let p999 ← field "p999_us" Stats.p999Us stats
  let mean ← field "mean_us" Stats.meanUs stats
  let count ← field "count" Stats.count stats
  pure (join " ".toList [left 25 label, right 9 (fixed 1 p50), right 9 (fixed 1 p95), right 9 (fixed 1 p99),
    right 9 (fixed 1 p999), right 9 (fixed 1 mean), right 10 (Decimal.natText count)])

def printTable (results : List (Text × Option Stats)) : Except Error (List Text) := do
  let rows ← (PythonData.items results).mapM (fun entry => tableRow entry.1 entry.2)
  pure (header :: List.replicate header.length '-' :: rows)

/-- The returned dict (`None` when it is empty) and the lines that are printed. -/
def compareExperiments (dirs : List Text) (labels : Option (List Text)) :
    Except Error (Option (List (Text × Option Stats)) × List Text) := do
  let analyses ← collect (onPath fs (analyzeExperiment std)) (fun i d => labelOf labels i (basename d)) dirs
  let results := analyses.map (fun entry => (entry.1, entry.2.aggregate))
  if results = [] then pure (none, [])
  else
    let lines ← printTable results
    pure (some results, lines)

theorem isSome_computeStats {samplesNs : List Int} : (computeStats std samplesNs).isSome ↔ samplesNs ≠ [] := by
  constructor
  · rintro h rfl
    cases h
  · intro hne
    have hne' : samplesUs samplesNs ≠ [] := by rwa [samplesUs, Ne, List.map_eq_nil_iff]
    obtain ⟨a, ha⟩ := Option.isSome_iff_exists.mp (Percentile.isSome_percentile hne' (p := 50) (by norm_num))
    obtain ⟨b, hb⟩ := Option.isSome_iff_exists.mp (Percentile.isSome_percentile hne' (p := 95) (by norm_num))
    obtain ⟨c, hc⟩ := Option.isSome_iff_exists.mp (Percentile.isSome_percentile hne' (p := 99) (by norm_num))
    obtain ⟨d, hd⟩ := Option.isSome_iff_exists.mp (Percentile.isSome_percentile hne' (p := 999 / 10) (by norm_num))
    obtain ⟨stats, hstats, -⟩ := computeStats_eq_some std hne ha hb hc hd
    rw [hstats]
    rfl

def fileSamples (text : List Char) : List Int := (LatencyCsv.Analyze.loadLatencyCsv text).getD []

theorem merged_eq_some_iff {dir : ResultDir} {samples : List Int} : merged dir = some samples ↔
    (∀ file ∈ sources dir, LatencyCsv.Analyze.loadLatencyCsv file.2 = some (fileSamples file.2)) ∧
      samples = (sources dir).flatMap (fun file => fileSamples file.2) := by
  have hflat (all : List (List Int)) : (some all.flatten : Option (List Int)) = some samples ↔ samples = all.flatten := by
    rw [Option.some.injEq, eq_comm]
  constructor
  · intro h
    obtain ⟨all, hall, hsome⟩ := Option.bind_eq_some_iff.mp h
    have hread : ∀ file ∈ sources dir, LatencyCsv.Analyze.loadLatencyCsv file.2 = some (fileSamples file.2) := by
      intro file hfile
      obtain ⟨s, -, hs⟩ := PythonData.exists_of_mapM hall hfile
      rw [fileSamples, hs, Option.getD_some]
    rw [PythonData.mapM_eq_map hread] at hall
    cases hall
    exact ⟨hread, (hflat _).mp hsome⟩
  · rintro ⟨hread, rfl⟩
    rw [merged, PythonData.mapM_eq_map hread]
    rfl

def clientStats (dir : ResultDir) : List (String × Option Stats) :=
  (sources dir).map (fun file => (file.1, computeStats std (fileSamples file.2)))

theorem analyzeExperiment_eq {dir : ResultDir} {samples : List Int} (h : merged dir = some samples) :
    analyzeExperiment std dir =
      some (if sources dir = [] then none else some ⟨computeStats std samples, clientStats std dir⟩) := by
  have hread := (merged_eq_some_iff.mp h).1
  have hper : (sources dir).mapM (fun file =>
      (LatencyCsv.Analyze.loadLatencyCsv file.2).map (fun s => (file.1, computeStats std s))) =
      some (clientStats std dir) := by
    apply PythonData.mapM_eq_map
    intro file hfile
    rw [hread file hfile, Option.map_some]
  simp only [analyzeExperiment, hper, h, Option.bind_eq_bind, Option.bind_some]
  split_ifs <;> rfl

theorem tableRow_ok_iff {label : Text} {stats : Option Stats} :
    (∃ line, tableRow label stats = .ok line) ↔ stats.isSome := by
  cases stats with
  | none =>
    constructor
    · rintro ⟨line, h⟩
      cases h
    · intro h
      cases h
  | some s => exact ⟨fun _ => rfl, fun _ => ⟨_, rfl⟩⟩

theorem printTable_ok_iff {results : List (Text × Option Stats)} :
    (∃ lines, printTable results = .ok lines) ↔ ∀ k s, PythonData.get results k = some s → s.isSome := by
  have hrows : (∃ lines, printTable results = .ok lines) ↔
      ∃ rows, (PythonData.items results).mapM (fun entry => tableRow entry.1 entry.2) = .ok rows := by
    rw [printTable]
    cases (PythonData.items results).mapM (fun entry => tableRow entry.1 entry.2) with
    | error e => exact ⟨fun ⟨_, h⟩ => (nomatch h), fun ⟨_, h⟩ => (nomatch h)⟩
    | ok rows => exact ⟨fun _ => ⟨rows, rfl⟩, fun _ => ⟨_, rfl⟩⟩
  rw [hrows, PythonData.exists_mapM_ok_iff]
  simp only [tableRow_ok_iff, Prod.forall, PythonData.mem_items]

theorem getD_ret (results : List (Text × Option Stats)) :
    (if results = [] then none else some results).getD [] = results := by
  split
  case isTrue hnil => exact hnil.symm
  · rfl

def aggregates (answer : Text → Option Analysis) (labels : Option (List Text)) (dirs : List Text) :
    List (Text × Option Stats) :=
  (entries answer (fun i d => labelOf labels i (basename d)) dirs).map (fun entry => (entry.1, entry.2.aggregate))

section

variable {std fs} {answer : Text → Option Analysis} {dirs : List Text} {labels : Option (List Text)}
    (h : ∀ d ∈ dirs, onPath fs (analyzeExperiment std) d = .ok (answer d))

include h

theorem compareExperiments_eq : compareExperiments std fs dirs labels =
    if aggregates answer labels dirs = [] then .ok (none, [])
    else (printTable (aggregates answer labels dirs)).map (fun lines => (some (aggregates answer labels dirs), lines)) := by
  rw [compareExperiments, collect_eq h]
  rfl

theorem compareExperiments_ok_iff {ret : Option (List (Text × Option Stats))} :
    (∃ lines, compareExperiments std fs dirs labels = .ok (ret, lines)) ↔
      ret = (if aggregates answer labels dirs = [] then none else some (aggregates answer labels dirs)) ∧
      ∀ k s, PythonData.get (aggregates answer labels dirs) k = some s → s.isSome := by
  rw [compareExperiments_eq h]
  by_cases hnil : aggregates answer labels dirs = []
  · rw [if_pos hnil, if_pos hnil, hnil]
    constructor
    · rintro ⟨lines, hret⟩
      cases hret
      exact ⟨rfl, fun k s hget => (nomatch hget)⟩
    · rintro ⟨rfl, -⟩
      exact ⟨[], rfl⟩
  · rw [if_neg hnil, if_neg hnil, ← printTable_ok_iff]
    cases hprint : printTable (aggregates answer labels dirs) with
    | error e => simp [Except.map]
    | ok lines => simp [Except.map, eq_comm]

end

structure Args where
  dirs : List Text
  labels : Option (List Text)
  json : Bool
  output : Option Text

def summary (stats : Option Stats) : Except Error Text := do
  let count ← field "count" Stats.count stats
  let low ← field "min_us" Stats.minUs stats
  let mean ← field "mean_us" Stats.meanUs stats
  let p50 ← field "p50_us" Stats.p50Us stats
  let p95 ← field "p95_us" Stats.p95Us stats
  let p99 ← field "p99_us" Stats.p99Us stats
  let p999 ← field "p999_us" Stats.p999Us stats
  let high ← field "max_us" Stats.maxUs stats
  pure ("Aggregate (".toList ++ Decimal.natText count ++ " samples):\n".toList ++
    "  min:    ".toList ++ fixed 1 low ++ " us\n".toList ++ "  mean:   ".toList ++ fixed 1 mean ++ " us\n".toList ++
    "  p50:    ".toList ++ fixed 1 p50 ++ " us\n".toList ++ "  p95:    ".toList ++ fixed 1 p95 ++ " us\n".toList ++
    "  p99:    ".toList ++ fixed 1 p99 ++ " us\n".toList ++ "  p99.9:  ".toList ++ fixed 1 p999 ++ " us\n".toList ++
    "  max:    ".toList ++ fixed 1 high ++ " us\n".toList)

/-- What `main` prints and the file it writes. The texts of `json.dumps` are
parameters. -/
structure Output where
  printed : List Text
  written : Option (Text × Text)

def main (dumps : Analysis → Text) (dumpsAll : List (Text × Option Stats) → Text) (args : Args) :
    Except Error Output :=
  match args.dirs with
  | [d] => do
    match ← onPath fs (analyzeExperiment std) d with
    | none => pure ⟨[], none⟩
    | some result =>
      let output ← if args.json then pure (dumps result) else summary result.aggregate
      pure ⟨[output], args.output.map (fun path => (path, output))⟩
  | dirs => do
    let (results, lines) ← compareExperiments std fs dirs args.labels
    pure ⟨lines, results.bind (fun rs => args.output.map (fun path => (path, dumpsAll rs)))⟩

end AnalyzeScript

section FairnessScript

variable {K : Type} [Field K] [LinearOrder K] (std : List K → K) (fs : FileSystem)

/-- How `main` of `fairness.py` ends: with status 1, with the results as JSON, or
with a table for each entry and, for more than one, a summary. -/
inductive Ending (K : Type)
  | noData
  | json (results : List (Text × FairnessData K))
  | tables (results : List (Text × FairnessData K)) (summary : Bool)

def Ending.results {K : Type} : Ending K → List (Text × FairnessData K)
  | .noData => []
  | .json results => results
  | .tables results _ => results

def fairnessMain (dirs : List Text) (labels : Option (List Text)) (poolSize : Int) (asJson : Bool) :
    Except Error (Ending K) := do
  let results ← collect (onPath fs (fun dir => analyzeFairness std dir poolSize))
    (fun i d => labelOf labels i (basename (rstripSlash d))) dirs
  if results = [] then pure .noData
  else if asJson then pure (.json results)
  else pure (.tables results (1 < (PythonData.keys results).length))

end FairnessScript

end DcBench.CompareExperiments

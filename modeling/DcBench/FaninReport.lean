import DcBench.LatencyCsv
import DcBench.Lib.Percentile
import DcBench.Lib.PythonData

namespace DcBench.FaninReport

open DcBench.Lib DcBench.LatencyCsv

/-- The directory of an experiment: its subdirectories in the order of their
names, each with the text of its `latency.csv` if there is one. -/
structure Experiment where
  clients : List (String × Option (List Char))
  nodup : (clients.map Prod.fst).Nodup

def Experiment.files (exp : Experiment) : List (String × List Char) :=
  exp.clients.filterMap (fun client => client.2.map (fun text => (client.1, text)))

/-- The results directory. A directory of each of its three levels, for a trial,
a fan-in and an experiment, may be missing. -/
def Results := String → Option (String → Option (String → Option Experiment))

structure Config where
  label : String
  subdir : Int → String
  poolSize : Nat

def configs : List Config :=
  [⟨"Homa", fun fi => s!"homa_fi{fi}", 1⟩,
   ⟨"TCP single", fun fi => s!"tcp_single_fi{fi}", 1⟩,
   ⟨"TCP DCTCP-32", fun fi => s!"tcp_dctcp_fi{fi}", 32⟩]

def Results.trialRoot (results : Results) (trial : Int) : Option (String → Option (String → Option Experiment)) :=
  results s!"fanin_test{trial}"

def expDir (root : String → Option (String → Option Experiment)) (config : Config) (fi : Int) : Option Experiment :=
  (root s!"fanin_{fi}").bind (fun dir => dir (config.subdir fi))

inductive Metric
  | p50
  | p95
  | p99
  | p999
  | mean
  | jain
  | cv
  | minMax
deriving DecidableEq

section

variable {K : Type} [Field K] [LinearOrder K] (std : List K → K)

def mean (xs : List K) : K := xs.sum / xs.length

def load (loader : (ℚ → ℚ) → List Char → Option (List ℚ)) (text : List Char) : Option (List K) :=
  (loader id text).map (fun samples => samples.map (fun x : ℚ => (x : K)))

def perClientSamples (exp : Option Experiment) : Option (List (String × List K)) :=
  match exp with
  | none => some []
  | some exp => do
    let loaded ← exp.files.mapM (fun file => (load FaninReport.loadLatencyCsv file.2).map (fun s => (file.1, s)))
    some (loaded.filter (fun client => client.2 ≠ []))

/-- A missing number is `nan`. -/
structure LatencyStats (K : Type) where
  count : Nat
  meanUs : Option K
  p50Us : Option K
  p95Us : Option K
  p99Us : Option K
  p999Us : Option K

def latencyStats (samplesNs : List K) : LatencyStats K :=
  let us := samplesNs.map (fun x => x / 1000)
  { count := us.length
    meanUs := some (mean us)
    p50Us := Percentile.percentile us 50
    p95Us := Percentile.percentile us 95
    p99Us := Percentile.percentile us 99
    p999Us := Percentile.percentile us (999 / 10) }

structure FairnessStats (K : Type) where
  jain : Option K
  cv : Option K
  minMax : Option K

def throughput (poolSize : Nat) (samples : List K) : K := poolSize * 10 ^ 9 / mean samples

/-- `arr.min() / arr.max()` when the largest is positive. -/
def minMaxRatio (arr : List K) : Option K := do
  let low ← arr.min?
  let high ← arr.max?
  if 0 < high then some (low / high) else none

def fairnessStats (clients : List (String × List K)) (poolSize : Nat) : FairnessStats K :=
  if clients = [] then ⟨none, none, none⟩
  else
    let tputs := (PythonData.values clients).filterMap (fun samples =>
      if mean samples ≤ 0 then none else some (throughput poolSize samples))
    if tputs = [] then ⟨none, none, none⟩
    else
      let denom : K := tputs.length * (tputs.map (fun x : K => x * x)).sum
      { jain := if 0 < denom then some (tputs.sum ^ 2 / denom) else none
        cv := if 0 < mean tputs then some (std tputs / mean tputs) else none
        minMax := minMaxRatio tputs }

structure Row (K : Type) where
  latency : LatencyStats K
  fairness : FairnessStats K
  nClients : Nat

def Row.metric (row : Row K) : Metric → Option K
  | .p50 => row.latency.p50Us
  | .p95 => row.latency.p95Us
  | .p99 => row.latency.p99Us
  | .p999 => row.latency.p999Us
  | .mean => row.latency.meanUs
  | .jain => row.fairness.jain
  | .cv => row.fairness.cv
  | .minMax => row.fairness.minMax

/-- The row of a table, `None` without samples. -/
def collectRow (clients : List (String × List K)) (poolSize : Nat) : Option (Row K) :=
  if clients = [] then none
  else some
    { latency := latencyStats (PythonData.values clients).flatten
      fairness := fairnessStats std clients poolSize
      nClients := (PythonData.keys clients).length }

abbrev Table (K : Type) := List ((String × Int) × Option (Row K))

def collectOneTrial (results : Results) (trial : Int) (fanIns : List Int) : Option (Table K) :=
  (fanIns.flatMap (fun fi => configs.map (fun config => (config, fi)))).mapM (fun (config, fi) => do
    let exp := (results.trialRoot trial).bind (fun root => expDir root config fi)
    let clients ← perClientSamples exp
    some ((config.label, fi), collectRow std clients config.poolSize))

structure AveragedRow (K : Type) extends Row K where
  nTrials : Nat

/-- `mean_field`: the numbers that are not `nan` are averaged. -/
def meanField (rows : List (Row K)) (m : Metric) : Option K :=
  let vals := rows.filterMap (fun row => row.metric m)
  if vals = [] then none else some (mean vals)

def averageRow (rows : List (Row K)) : Option (AveragedRow K) :=
  match rows with
  | [] => none
  | first :: _ => some
    { latency :=
        { count := (rows.map (fun row => row.latency.count)).sum / rows.length
          meanUs := meanField rows .mean
          p50Us := meanField rows .p50
          p95Us := meanField rows .p95
          p99Us := meanField rows .p99
          p999Us := meanField rows .p999 }
      fairness := ⟨meanField rows .jain, meanField rows .cv, meanField rows .minMax⟩
      nClients := first.nClients
      nTrials := rows.length }

def averageTrials (allTrials : List (Table K)) : List ((String × Int) × Option (AveragedRow K)) :=
  let keys := (allTrials.flatMap PythonData.keys).dedup
  keys.map (fun key => (key, averageRow (allTrials.filterMap (fun table => (PythonData.get table key).join))))

omit [LinearOrder K] in
theorem join_get_averageTrials (allTrials : List (Table K)) (key : String × Int) :
    (PythonData.get (averageTrials allTrials) key).join =
      averageRow (allTrials.filterMap (fun table => (PythonData.get table key).join)) := by
  rw [averageTrials, PythonData.get_eq_ite (f := fun key => some (averageRow
    (allTrials.filterMap (fun table => (PythonData.get table key).join))))]
  · split_ifs with hkey
    · rfl
    · have hrows : allTrials.filterMap (fun table => (PythonData.get table key).join) = [] := by
        rw [List.filterMap_eq_nil_iff]
        intro table htable
        rw [PythonData.get_eq_none_iff.mpr]
        · rfl
        · intro hmem
          apply hkey
          rw [List.map_map, List.mem_map]
          exact ⟨key, List.mem_dedup.mpr (List.mem_flatMap.mpr ⟨table, htable, PythonData.mem_keys.mpr hmem⟩), rfl⟩
      rw [hrows]
      rfl
  · intro p hp
    obtain ⟨key, _, rfl⟩ := List.mem_map.mp hp
    rfl

end

end DcBench.FaninReport

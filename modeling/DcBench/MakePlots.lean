import DcBench.FaninReport

namespace DcBench.MakePlots

open DcBench.Lib DcBench.LatencyCsv DcBench.FaninReport

def protos : List Config :=
  [⟨"Homa", fun fi => s!"homa_fi{fi}", 1⟩,
   ⟨"TCP single", fun fi => s!"tcp_single_fi{fi}", 1⟩,
   ⟨"TCP DCTCP-32", fun fi => s!"tcp_dctcp_fi{fi}", 32⟩]

variable {K : Type} [Field K] [LinearOrder K] (std : List K → K)

structure PlotRow (K : Type) where
  metric : Metric → Option K
  nClients : Nat

/-- A mean of zero raises `ZeroDivisionError`. -/
def tput (pool : Nat) (samples : List K) : Option K :=
  if mean samples = 0 then none else some (throughput pool samples)

/-- A quotient of zeros is `nan`. -/
def plotMetric (allUs tputs : List K) : Metric → Option K
  | .p50 => Percentile.percentile allUs 50
  | .p95 => Percentile.percentile allUs 95
  | .p99 => Percentile.percentile allUs 99
  | .p999 => Percentile.percentile allUs (999 / 10)
  | .mean => some (mean allUs)
  | .jain =>
    let denom : K := tputs.length * (tputs.map (fun x : K => x ^ 2)).sum
    if denom = 0 then none else some (tputs.sum ^ 2 / denom)
  | .cv => if 0 < mean tputs then some (std tputs / mean tputs) else none
  | .minMax => minMaxRatio tputs

/-- One experiment. The inner `none` is a `continue`. -/
def collectExperiment (exp : Experiment) (pool : Nat) : Option (Option (PlotRow K)) := do
  let loaded ← exp.files.mapM (fun file => (load MakePlots.loadLatencyNs file.2).map (fun s => (file.1, s)))
  let clients := loaded.filter (fun client => client.2 ≠ [])
  let merged := clients.map Prod.snd
  if merged = [] then some none
  else
    let allUs := merged.flatten.map (fun x => x / 1000)
    let tputs ← (PythonData.values clients).mapM (tput pool)
    some (some ⟨plotMetric std allUs tputs, (PythonData.keys clients).length⟩)

abbrev PerTrial (K : Type) := List ((String × Int × Int) × PlotRow K)

def experiments (results : Results) (fanIns trials : List Int) : List ((Config × Int × Int) × Experiment) :=
  trials.flatMap (fun t =>
    match results.trialRoot t with
    | none => []
    | some root => fanIns.flatMap (fun fi => protos.filterMap (fun proto =>
        (expDir root proto fi).map (fun exp => ((proto, fi, t), exp)))))

def collectPerTrial (results : Results) (fanIns trials : List Int) : Option (PerTrial K) := do
  let rows ← (experiments results fanIns trials).mapM (fun ((proto, fi, t), exp) =>
    (collectExperiment std exp proto.poolSize).map (fun row => row.map (fun r => ((proto.label, fi, t), r))))
  some (rows.filterMap id)

/-- The numbers of one metric over the trials. One `nan` makes each of them
`nan`. -/
structure Summary (K : Type) where
  mean : Option K
  min : Option K
  max : Option K
  std : Option K

def summary (vals : List (Option K)) : Summary K :=
  match vals.mapM id with
  | none => ⟨none, none, none, none⟩
  | some xs => ⟨some (mean xs), xs.min?, xs.max?, some (std xs)⟩

def averageEntry (rows : List (PlotRow K)) : Option (Metric → Summary K) :=
  if rows = [] then none else some (fun m => summary std (rows.map (fun row => row.metric m)))

def averageAcrossTrials (perTrial : PerTrial K) (trials fanIns : List Int) :
    List ((String × Int) × (Metric → Summary K)) :=
  ["Homa", "TCP single", "TCP DCTCP-32"].flatMap (fun proto => fanIns.filterMap (fun fi =>
    let rows := trials.filterMap (fun t => PythonData.get perTrial (proto, fi, t))
    (averageEntry std rows).map (fun entry => ((proto, fi), entry))))

end DcBench.MakePlots

import DcBench.LatencyCsv
import DcBench.Lib.Percentile

namespace DcBench.Analyze

open DcBench.Lib DcBench.LatencyCsv

/-- A directory with the results of an experiment: its subdirectories in the
order of their names, each with its `latency.csv` if there is one, and the csv
files next to them in the order of the directory. -/
structure ResultDir where
  clients : List (String × Option (List Char))
  csvFiles : List (String × List Char)

def ResultDir.latencyFiles (dir : ResultDir) : List (String × List Char) :=
  dir.clients.filterMap (fun client => client.2.map (fun text => (client.1, text)))

def ResultDir.texts (dir : ResultDir) : List (List Char) :=
  dir.latencyFiles.map Prod.snd ++ dir.csvFiles.map Prod.snd

/-- The statistics of `compute_stats`, with `np.std` as a parameter. -/
structure Stats where
  count : Nat
  minUs : ℚ
  meanUs : ℚ
  p50Us : ℚ
  p95Us : ℚ
  p99Us : ℚ
  p999Us : ℚ
  maxUs : ℚ
  stdUs : ℚ
deriving DecidableEq

/-- `samples_ns / 1000.0`: the integers become doubles before the division. -/
def samplesUs (samplesNs : List Int) : List ℚ :=
  samplesNs.map (fun n : Int => Binary64.nearest (Binary64.nearest n / 1000))

/-- No statistics (`{}`) without samples. -/
def computeStats (std : List ℚ → ℚ) (samplesNs : List Int) : Option Stats := do
  let us := samplesUs samplesNs
  let p50 ← Percentile.percentile us 50
  let p95 ← Percentile.percentile us 95
  let p99 ← Percentile.percentile us 99
  let p999 ← Percentile.percentile us (999 / 10)
  let low ← us.min?
  let high ← us.max?
  some ⟨us.length, low, us.sum / us.length, p50, p95, p99, p999, high, std us⟩

/-- The csv files of the directory itself are read only when no client has one. -/
def sources (dir : ResultDir) : List (String × List Char) :=
  if dir.latencyFiles = [] then dir.csvFiles else dir.latencyFiles

def merged (dir : ResultDir) : Option (List Int) := do
  let allSamples ← (sources dir).mapM (fun file => Analyze.loadLatencyCsv file.2)
  some allSamples.flatten

structure Analysis where
  aggregate : Option Stats
  perClient : List (String × Option Stats)
deriving DecidableEq

/-- The inner `none` is the answer `None` for a directory without files. -/
def analyzeExperiment (std : List ℚ → ℚ) (dir : ResultDir) : Option (Option Analysis) := do
  let perClient ← (sources dir).mapM (fun file =>
    (Analyze.loadLatencyCsv file.2).map (fun samples => (file.1, computeStats std samples)))
  let samples ← merged dir
  if sources dir = [] then some none else some (some ⟨computeStats std samples, perClient⟩)

theorem mem_texts_of_mem_sources {dir : ResultDir} {file : String × List Char} (h : file ∈ sources dir) :
    file.2 ∈ dir.texts := by
  rw [sources] at h
  rw [ResultDir.texts, List.mem_append]
  split_ifs at h
  · exact .inr (List.mem_map_of_mem h)
  · exact .inl (List.mem_map_of_mem h)

theorem computeStats_eq_some (std : List ℚ → ℚ) {samplesNs : List Int} {a b c d : ℚ} (hne : samplesNs ≠ [])
    (ha : Percentile.percentile (samplesUs samplesNs) 50 = some a)
    (hb : Percentile.percentile (samplesUs samplesNs) 95 = some b)
    (hc : Percentile.percentile (samplesUs samplesNs) 99 = some c)
    (hd : Percentile.percentile (samplesUs samplesNs) (999 / 10) = some d) :
    ∃ stats, computeStats std samplesNs = some stats ∧
      [stats.p50Us, stats.p95Us, stats.p99Us, stats.p999Us] = [a, b, c, d] := by
  have hne' : samplesUs samplesNs ≠ [] := by rwa [samplesUs, Ne, List.map_eq_nil_iff]
  obtain ⟨low, hlow⟩ := Option.isSome_iff_exists.mp (List.isSome_min?_of_ne_nil hne')
  obtain ⟨high, hhigh⟩ := Option.isSome_iff_exists.mp (List.isSome_max?_of_ne_nil hne')
  simp only [computeStats, ha, hb, hc, hd, hlow, hhigh, Option.bind_eq_bind, Option.bind_some, Option.some.injEq,
    exists_eq_left']

end DcBench.Analyze

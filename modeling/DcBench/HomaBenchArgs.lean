import DcBench.TcpBenchArgs
import DcBench.WorkloadGenerator

namespace DcBench.HomaBenchArgs

open DcBench.Lib DcBench.Lib.CommandLine DcBench.WorkloadGenerator
open DcBench.TcpBenchArgs (Doubles Stop missingValue unknownOption)

variable {D : Type}

structure Args (D : Type) where
  mode : List Char
  host : List Char
  port : UInt16
  threads : UInt32
  concurrency : UInt32
  dist : List Char
  arrival : List Char
  rps : D
  msgSize : UInt32
  requests : UInt32
  warmup : UInt32
  output : List Char
  bimodalSmall : UInt32
  bimodalLarge : UInt32
  bimodalRatio : D
  paretoShape : D
  paretoScale : UInt32
  uniformMin : UInt32
  uniformMax : UInt32
  cpuMonitor : Bool
  deriving DecidableEq

def Args.init (d : Doubles D) : Args D where
  mode := []
  host := "127.0.0.1".toList
  port := 9500
  threads := 4
  concurrency := 8
  dist := "fixed".toList
  arrival := "closed".toList
  rps := d.ofRat 10000
  msgSize := 1024
  requests := 100000
  warmup := 1000
  output := "./results".toList
  bimodalSmall := 256
  bimodalLarge := 1048576
  bimodalRatio := d.ofRat (9 / 10)
  paretoShape := d.ofRat (3 / 2)
  paretoScale := 256
  uniformMin := 64
  uniformMax := 65536
  cpuMonitor := false

def printUsage : List Char :=
  ("Usage: homa_bench <server|client> [options]\n\n" ++
   "Server options:\n" ++
   "  --port PORT          Listen port (default: 9500)\n" ++
   "  --threads N          Worker threads (default: 4)\n\n" ++
   "Client options:\n" ++
   "  --host HOST          Server address\n" ++
   "  --port PORT          Server port\n" ++
   "  --concurrency N      Concurrent RPCs (default: 8)\n" ++
   "  --dist DIST          fixed|uniform|bimodal|pareto\n" ++
   "  --arrival MODEL      open|closed\n" ++
   "  --rps RATE           Target requests/sec for open-loop\n" ++
   "  --msg-size BYTES     Fixed message size\n" ++
   "  --requests N         Number of requests\n" ++
   "  --warmup N           Warmup requests\n" ++
   "  --output DIR         Output directory\n" ++
   "  --cpu-monitor        Track CPU utilization\n").toList

inductive Branch (D : Type)
  | alone (set : Args D → Args D)
  | next (set : Args D → List Char → Except StdException (Args D))

def text (set : Args D → List Char → Args D) : Branch D := .next (fun a v => .ok (set a v))

def uint16 (set : Args D → UInt16 → Args D) : Branch D :=
  .next (fun a v => (stoi v).map (fun n => set a (UInt16.ofInt n)))

def uint32 (set : Args D → UInt32 → Args D) : Branch D :=
  .next (fun a v => (stoi v).map (fun n => set a (UInt32.ofInt n)))

def double (d : Doubles D) (set : Args D → D → Args D) : Branch D := .next (fun a v => (d.stod v).map (set a))

def branches (d : Doubles D) : List (List Char × Branch D) :=
  [("--host".toList, text fun a v => { a with host := v }),
   ("--port".toList, uint16 fun a n => { a with port := n }),
   ("--threads".toList, uint32 fun a n => { a with threads := n }),
   ("--concurrency".toList, uint32 fun a n => { a with concurrency := n }),
   ("--dist".toList, text fun a v => { a with dist := v }),
   ("--arrival".toList, text fun a v => { a with arrival := v }),
   ("--rps".toList, double d fun a x => { a with rps := x }),
   ("--msg-size".toList, uint32 fun a n => { a with msgSize := n }),
   ("--requests".toList, uint32 fun a n => { a with requests := n }),
   ("--warmup".toList, uint32 fun a n => { a with warmup := n }),
   ("--output".toList, text fun a v => { a with output := v }),
   ("--bimodal-small".toList, uint32 fun a n => { a with bimodalSmall := n }),
   ("--bimodal-large".toList, uint32 fun a n => { a with bimodalLarge := n }),
   ("--bimodal-ratio".toList, double d fun a x => { a with bimodalRatio := x }),
   ("--pareto-shape".toList, double d fun a x => { a with paretoShape := x }),
   ("--pareto-scale".toList, uint32 fun a n => { a with paretoScale := n }),
   ("--uniform-min".toList, uint32 fun a n => { a with uniformMin := n }),
   ("--uniform-max".toList, uint32 fun a n => { a with uniformMax := n }),
   ("--cpu-monitor".toList, .alone fun a => { a with cpuMonitor := true })]

def parseOptions (d : Doubles D) (a : Args D) : List (List Char) → Except Stop (Args D)
  | [] => .ok a
  | key :: rest =>
    match (branches d).lookup key with
    | none => .error (unknownOption key)
    | some (.alone set) => parseOptions d (set a) rest
    | some (.next set) =>
      match rest with
      | [] => .error (missingValue key)
      | v :: rest =>
        match set a v with
        | .ok a => parseOptions d a rest
        | .error e => .error (.threw e)

def parseArgs (d : Doubles D) : List (List Char) → Except Stop (Args D)
  | _ :: mode :: words => parseOptions d { Args.init d with mode := mode } words
  | _ => .error (.exit printUsage)

inductive ArrivalModel
  | openLoop
  | closedLoop
  deriving DecidableEq, Repr

/-- The `std::runtime_error` of a name that is not known, by its text. -/
def parseDistribution (name : List Char) : Except (List Char) SizeDistribution :=
  if name = "fixed".toList then .ok .fixed
  else if name = "uniform".toList then .ok .uniform
  else if name = "bimodal".toList then .ok .bimodal
  else if name = "pareto".toList then .ok .pareto
  else .error ("Unknown distribution: ".toList ++ name)

def parseArrivalModel (name : List Char) : Except (List Char) ArrivalModel :=
  if name = "open".toList then .ok .openLoop
  else if name = "closed".toList then .ok .closedLoop
  else .error ("Unknown arrival model: ".toList ++ name)

/-- The `WorkloadConfig` that `run_client` of `homa_bench` fills in. -/
def Args.workload (a : Args D) : Except (List Char) (GeneratorConfig D × ArrivalModel) := do
  let distribution ← parseDistribution a.dist
  let arrival ← parseArrivalModel a.arrival
  pure ({
    distribution := distribution
    fixedSize := a.msgSize
    targetRps := a.rps
    numRequests := a.requests
    warmupRequests := a.warmup
    bimodalSmall := a.bimodalSmall
    bimodalLarge := a.bimodalLarge
    bimodalSmallFraction := a.bimodalRatio
    paretoShape := a.paretoShape
    paretoScale := a.paretoScale
    paretoMax := 2097152
    uniformMin := a.uniformMin
    uniformMax := a.uniformMax
    closedLoopConcurrency := a.concurrency }, arrival)

/-- The same in `tcp_bench`. -/
def tcpWorkload (a : TcpBenchArgs.Args D) : Except (List Char) (GeneratorConfig D × ArrivalModel) := do
  let distribution ← parseDistribution a.dist
  let arrival ← parseArrivalModel a.arrival
  pure ({
    distribution := distribution
    fixedSize := a.msgSize
    targetRps := a.rps
    numRequests := a.requests
    warmupRequests := a.warmup
    bimodalSmall := a.bimodalSmall
    bimodalLarge := a.bimodalLarge
    bimodalSmallFraction := a.bimodalRatio
    paretoShape := a.paretoShape
    paretoScale := a.paretoScale
    paretoMax := 2097152
    uniformMin := a.uniformMin
    uniformMax := a.uniformMax
    closedLoopConcurrency := a.poolSize }, arrival)

end DcBench.HomaBenchArgs

import DcBench.Lib.CommandLine

namespace DcBench.TcpBenchArgs

open DcBench.Lib DcBench.Lib.CommandLine

/-- What the two programs do with a double: `str` of a Python float, the double
next to a number, and `std::stod`. -/
structure Doubles (D : Type) where
  text : D → List Char
  ofRat : ℚ → D
  stod : List Char → Except StdException D

variable {D : Type}

/-- A value of `params`, as the JSON of the config gives it. -/
inductive PyValue (D : Type)
  | bool (b : Bool)
  | int (n : Int)
  | float (x : D)
  | str (s : List Char)
  deriving DecidableEq

def intText (n : Int) : List Char :=
  if n < 0 then '-' :: Decimal.natText n.natAbs else Decimal.natText n.natAbs

def PyValue.text (d : Doubles D) : PyValue D → List Char
  | .bool true => "True".toList
  | .bool false => "False".toList
  | .int n => intText n
  | .float x => d.text x
  | .str s => s

/-- `flag` of a key: underscores become hyphens. -/
def flag (key : List Char) : List Char := "--".toList ++ key.map (fun c => if c = '_' then '-' else c)

/-- What one entry of `params` adds to `args`. -/
def entryArgs (d : Doubles D) : List Char × PyValue D → List (List Char)
  | (key, .bool val) => if val then [flag key] else []
  | (key, val) => [flag key, val.text d]

def buildTcpArgs (d : Doubles D) (params : List (List Char × PyValue D)) : List Char :=
  [' '].intercalate (params.flatMap (entryArgs d))

structure Args (D : Type) where
  mode : List Char
  host : List Char
  port : UInt16
  poolSize : UInt32
  nodelay : Bool
  dctcp : Bool
  scheduling : List Char
  dist : List Char
  arrival : List Char
  rps : D
  msgSize : UInt32
  requests : UInt32
  warmup : UInt32
  output : List Char
  sendBuf : UInt32
  recvBuf : UInt32
  bimodalSmall : UInt32
  bimodalLarge : UInt32
  bimodalRatio : D
  paretoShape : D
  paretoScale : UInt32
  uniformMin : UInt32
  uniformMax : UInt32
  cpuMonitor : Bool
  deriving DecidableEq

def Args.init (d : Doubles D) : Args D where
  mode := []
  host := "127.0.0.1".toList
  port := 9000
  poolSize := 1
  nodelay := true
  dctcp := false
  scheduling := "round_robin".toList
  dist := "fixed".toList
  arrival := "closed".toList
  rps := d.ofRat 10000
  msgSize := 1024
  requests := 100000
  warmup := 1000
  output := "./results".toList
  sendBuf := 0
  recvBuf := 0
  bimodalSmall := 256
  bimodalLarge := 1048576
  bimodalRatio := d.ofRat (9 / 10)
  paretoShape := d.ofRat (3 / 2)
  paretoScale := 256
  uniformMin := 64
  uniformMax := 65536
  cpuMonitor := false

def printUsage : List Char :=
  ("Usage: tcp_bench <server|client> [options]\n\n" ++
   "Server options:\n" ++
   "  --port PORT          Listen port (default: 9000)\n" ++
   "  --dctcp              Enable DCTCP congestion control\n\n" ++
   "Client options:\n" ++
   "  --host HOST          Server address (default: 127.0.0.1)\n" ++
   "  --port PORT          Server port (default: 9000)\n" ++
   "  --pool-size N        Connection pool size (default: 1)\n" ++
   "  --no-nodelay         Disable TCP_NODELAY\n" ++
   "  --dctcp              Enable DCTCP\n" ++
   "  --scheduling POLICY  round_robin|size_aware|random\n" ++
   "  --dist DIST          fixed|uniform|bimodal|pareto\n" ++
   "  --arrival MODEL      open|closed (default: closed)\n" ++
   "  --rps RATE           Target requests/sec for open-loop\n" ++
   "  --msg-size BYTES     Fixed message size (default: 1024)\n" ++
   "  --requests N         Number of requests (default: 100000)\n" ++
   "  --warmup N           Warmup requests (default: 1000)\n" ++
   "  --output DIR         Output directory (default: ./results)\n" ++
   "  --send-buf BYTES     SO_SNDBUF size (0 = default)\n" ++
   "  --recv-buf BYTES     SO_RCVBUF size (0 = default)\n" ++
   "  --bimodal-small N    Small message size for bimodal\n" ++
   "  --bimodal-large N    Large message size for bimodal\n" ++
   "  --bimodal-ratio F    Fraction of small messages (0-1)\n" ++
   "  --pareto-shape F     Pareto distribution shape\n" ++
   "  --pareto-scale N     Pareto distribution scale\n" ++
   "  --uniform-min N      Uniform min size\n" ++
   "  --uniform-max N      Uniform max size\n" ++
   "  --cpu-monitor        Track CPU utilization\n").toList

/-- How `parse_args` does not return: after a message on the error stream, or by
an exception that nobody catches. -/
inductive Stop
  | exit (message : List Char)
  | threw (e : StdException)
  deriving DecidableEq

def missingValue (key : List Char) : Stop := .exit ("Missing value for ".toList ++ key ++ ['\n'])

def unknownOption (key : List Char) : Stop := .exit ("Unknown option: ".toList ++ key ++ ['\n'])

/-- A branch of `parse_args`. Some of them call `next`. -/
inductive Branch (D : Type)
  | alone (set : Args D → Args D)
  | next (set : Args D → List Char → Except StdException (Args D))

def text (set : Args D → List Char → Args D) : Branch D := .next (fun a v => .ok (set a v))

def uint16 (set : Args D → UInt16 → Args D) : Branch D :=
  .next (fun a v => (stoi v).map (fun n => set a (UInt16.ofInt n)))

def uint32 (set : Args D → UInt32 → Args D) : Branch D :=
  .next (fun a v => (stoi v).map (fun n => set a (UInt32.ofInt n)))

def double (d : Doubles D) (set : Args D → D → Args D) : Branch D := .next (fun a v => (d.stod v).map (set a))

def branches (d : Doubles D) : List (List Char × Branch D) :=
  [("--host".toList, text fun a v => { a with host := v }),
   ("--port".toList, uint16 fun a n => { a with port := n }),
   ("--pool-size".toList, uint32 fun a n => { a with poolSize := n }),
   ("--no-nodelay".toList, .alone fun a => { a with nodelay := false }),
   ("--dctcp".toList, .alone fun a => { a with dctcp := true }),
   ("--scheduling".toList, text fun a v => { a with scheduling := v }),
   ("--dist".toList, text fun a v => { a with dist := v }),
   ("--arrival".toList, text fun a v => { a with arrival := v }),
   ("--rps".toList, double d fun a x => { a with rps := x }),
   ("--msg-size".toList, uint32 fun a n => { a with msgSize := n }),
   ("--requests".toList, uint32 fun a n => { a with requests := n }),
   ("--warmup".toList, uint32 fun a n => { a with warmup := n }),
   ("--output".toList, text fun a v => { a with output := v }),
   ("--send-buf".toList, uint32 fun a n => { a with sendBuf := n }),
   ("--recv-buf".toList, uint32 fun a n => { a with recvBuf := n }),
   ("--bimodal-small".toList, uint32 fun a n => { a with bimodalSmall := n }),
   ("--bimodal-large".toList, uint32 fun a n => { a with bimodalLarge := n }),
   ("--bimodal-ratio".toList, double d fun a x => { a with bimodalRatio := x }),
   ("--pareto-shape".toList, double d fun a x => { a with paretoShape := x }),
   ("--pareto-scale".toList, uint32 fun a n => { a with paretoScale := n }),
   ("--uniform-min".toList, uint32 fun a n => { a with uniformMin := n }),
   ("--uniform-max".toList, uint32 fun a n => { a with uniformMax := n }),
   ("--cpu-monitor".toList, .alone fun a => { a with cpuMonitor := true })]

/-- The loop over the words after the mode. -/
def parseOptions (d : Doubles D) (a : Args D) : List (List Char) → Except Stop (Args D)
  | [] => .ok a
  | key :: rest =>
    match (branches d).lookup key with
    | none => .error (unknownOption key)
    | some (.alone set) => parseOptions d (set a) rest
    | some (.next set) =>
      match rest with
      | [] => .error (missingValue key)
      | v :: rest =>
        match set a v with
        | .ok a => parseOptions d a rest
        | .error e => .error (.threw e)

/-- `parse_args` of the words of the command, of which the first is the program. -/
def parseArgs (d : Doubles D) : List (List Char) → Except Stop (Args D)
  | _ :: mode :: words => parseOptions d { Args.init d with mode := mode } words
  | _ => .error (.exit printUsage)

end DcBench.TcpBenchArgs

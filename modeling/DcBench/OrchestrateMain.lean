import DcBench.Orchestrate

namespace DcBench.OrchestrateMain

open DcBench.Lib DcBench.Orchestrate

/-- A node of the JSON file. A key that the file does not have is `none`. -/
structure RawNode where
  hostname : Option String
  user : Option String
  deriving DecidableEq, Repr

/-- The value of `output_dir`: its components, and whether a slash ends it. -/
structure OutputDir where
  path : List String
  slash : Bool
  deriving DecidableEq, Repr

structure RawConfig where
  name : Option String
  protocol : Option String
  server : Option RawNode
  clients : Option (List RawNode)
  binaryDir : Option String
  outputDir : Option OutputDir
  deriving DecidableEq, Repr

structure Experiment where
  protocol : String
  server : NodeConfig
  clients : List NodeConfig
  binaryDir : String
  outputDir : OutputDir
  deriving DecidableEq, Repr

def RawNode.load (node : RawNode) : Option NodeConfig :=
  node.hostname.map (fun hostname => ⟨hostname, node.user.getD "root"⟩)

def RawConfig.baseOutput (raw : RawConfig) (name : String) : OutputDir :=
  raw.outputDir.getD ⟨[".", "results", name], false⟩

/-- A key that is missing raises. -/
def loadExperiment (raw : RawConfig) : Option Experiment := do
  let server ← (← raw.server).load
  let clients ← (← raw.clients).mapM RawNode.load
  let name ← raw.name
  let protocol ← raw.protocol
  pure {
    protocol := protocol
    server := server
    clients := clients
    binaryDir := raw.binaryDir.getD "./build"
    outputDir := raw.baseOutput name }

def Experiment.nodes (x : Experiment) : List NodeConfig := x.server :: x.clients

def Experiment.config (x : Experiment) (protocol : Protocol) : ExperimentConfig :=
  ⟨protocol, x.server, x.clients, x.outputDir.path⟩

def protocolOf (protocol : String) : Option Protocol :=
  if protocol = "tcp" then some .tcp else if protocol = "homa" then some .homa else none

def expectedBinary : Protocol → String
  | .tcp => "tcp_bench"
  | .homa => "homa_bench"

/-- Where `main` stands. The loops over the nodes carry the nodes that are left;
`copy` and `chmod` also the binaries that are left for their node. -/
inductive Phase
  | outside
  | mkdir (x : Experiment) (node : NodeConfig) (nodes : List NodeConfig)
  | copy (x : Experiment) (node : NodeConfig) (nodes : List NodeConfig) (binary : String) (binaries : List String)
  | chmod (x : Experiment) (node : NodeConfig) (nodes : List NodeConfig) (binary : String) (binaries : List String)
  | verify (x : Experiment) (protocol : Protocol) (nodes : List NodeConfig) (missing : List String)
  | ready (x : Experiment) (protocol : Protocol)
  | running
  | exited (code : Nat)
  deriving DecidableEq, Repr

/-- The process of the orchestrator and the nodes. `executable` says of a binary
under the home directory of a node's user whether `test -x` finds it. -/
structure State where
  phase : Phase
  executable : NodeConfig × String → Bool
  orch : Orchestrate.State

inductive Event
  | start (raw : RawConfig) (deploy : Bool)
  | ssh (r : Ssh)
  | scp (ok : Bool) (executable : Bool)
  | test (reached : Bool)
  | call
  | inside (e : Orchestrate.Event)
  | exit
  | background (e : Orchestrate.Event)
  deriving DecidableEq, Repr

/-- The clients on the nodes act on their own. -/
def isBackground : Orchestrate.Event → Bool
  | .dumpCsv _ | .exit _ => true
  | _ => false

def isRun : Orchestrate.Event → Bool
  | .run _ => true
  | _ => false

/-- After the last node. A protocol with no binary is refused at the end of `main`. -/
def verifying (x : Experiment) : Phase :=
  match protocolOf x.protocol with
  | some protocol => .verify x protocol x.nodes []
  | none => .exited 1

def deploying (x : Experiment) : List NodeConfig → Phase
  | [] => verifying x
  | node :: nodes => .mkdir x node nodes

/-- `deploy_binaries` skips a binary that was not built. `built` is what
`os.path.exists` says of the paths below `binary_dir`. -/
def copying (built : String → String → Bool) (x : Experiment) (node : NodeConfig) (nodes : List NodeConfig) :
    List String → Phase
  | [] => deploying x nodes
  | binary :: binaries =>
    if built x.binaryDir binary then .copy x node nodes binary binaries else copying built x node nodes binaries

def verified (x : Experiment) (protocol : Protocol) : List NodeConfig → List String → Phase
  | [], [] => .ready x protocol
  | [], _ :: _ => .exited 1
  | node :: nodes, missing => .verify x protocol (node :: nodes) missing

/-- The status of the process: an exception gives 1. -/
def exitCode (c : Call) : Nat := if c.phase = .returned then 0 else 1

def binaries : List String := ["tcp_bench", "homa_bench"]

def step (built : String → String → Bool) (s : State) : Event → Option State
  | .start raw deploy =>
    match s.phase with
    | .outside | .exited _ =>
      match loadExperiment raw with
      | some x => some { s with phase := if deploy then deploying x x.nodes else verifying x }
      | none => some { s with phase := .exited 1 }
    | _ => none
  | .ssh r =>
    match s.phase with
    | .mkdir x node nodes =>
      some { s with phase := if r = .ok then copying built x node nodes binaries else .exited 1 }
    | .chmod x node nodes binary rest =>
      some { s with
        phase := if r = .ok then copying built x node nodes rest else .exited 1
        executable := if r.ran then Function.update s.executable (node, binary) true else s.executable }
    | _ => none
  | .scp ok executable =>
    match s.phase with
    | .copy x node nodes binary rest =>
      some { s with
        phase := if ok then .chmod x node nodes binary rest else .exited 1
        executable := Function.update s.executable (node, binary) executable }
    | _ => none
  | .test reached =>
    match s.phase with
    | .verify x protocol (node :: nodes) missing =>
      let found := reached && s.executable (node, expectedBinary protocol)
      some { s with
        phase := verified x protocol nodes (if found then missing else missing ++ [node.hostname]) }
    | _ => none
  | .call =>
    match s.phase with
    | .ready x protocol =>
      (Orchestrate.step s.orch (.run (x.config protocol))).map (fun orch =>
        { s with phase := .running, orch := orch })
    | _ => none
  | .inside e =>
    match s.phase with
    | .running =>
      if isRun e || isBackground e then none
      else (Orchestrate.step s.orch e).map (fun orch => { s with orch := orch })
    | _ => none
  | .exit =>
    match s.phase, s.orch.call with
    | .running, some c => if c.over then some { s with phase := .exited (exitCode c) } else none
    | _, _ => none
  | .background e =>
    if isBackground e then (Orchestrate.step s.orch e).map (fun orch => { s with orch := orch }) else none

/-- A history of the process: the world at its last call of an experiment, and
what has happened in it since. -/
abbrev History := Option (Orchestrate.State × List Orchestrate.Event)

def follow (world : Orchestrate.State) (started : History) : Event → History
  | .call => some (world, [])
  | .inside e | .background e => started.map (fun h => (h.1, h.2 ++ [e]))
  | .start _ _ | .ssh _ | .scp _ _ | .test _ | .exit => started

end DcBench.OrchestrateMain

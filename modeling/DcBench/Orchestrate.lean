import DcBench.Lib.Transition
import DcBench.Lib.LastWrite

namespace DcBench.Orchestrate

open DcBench.Lib

inductive Protocol
  | tcp
  | homa
  deriving DecidableEq, Repr

structure NodeConfig where
  hostname : String
  user : String
  deriving DecidableEq, Repr

/-- An experiment. The protocol decides between `run_tcp_experiment` and
`run_homa_experiment`; the output directory is a path of components. -/
structure ExperimentConfig where
  protocol : Protocol
  server : NodeConfig
  clients : List NodeConfig
  outputDir : List String
  deriving DecidableEq, Repr

/-- Who wrote a `latency.csv`: a client of an experiment, the experiments being
numbered in the order of the calls. -/
structure Origin where
  experiment : Nat
  index : Nat
  deriving DecidableEq, Repr

structure Client where
  origin : Origin
  protocol : Protocol
  node : NodeConfig
  deriving DecidableEq, Repr

structure Server where
  experiment : Nat
  protocol : Protocol
  node : NodeConfig
  deriving DecidableEq, Repr

/-- The result file of client `i`, below the home directory of its user. The
argument `--output` of the client names its directory. -/
def resultsCsv (i : Nat) : String := s!"tmp/dc-bench/results_{i}/latency.csv"

def Client.file (q : Client) : NodeConfig × String := (q.node, resultsCsv q.origin.index)

def clientDir (i : Nat) : String := s!"client_{i}"

def ExperimentConfig.localCsv (config : ExperimentConfig) (i : Nat) : List String :=
  config.outputDir ++ [clientDir i, "latency.csv"]

/-- Where the call stands. The loops over the clients carry their index. -/
inductive Phase
  | startServer
  | detectIp
  | startClient (i : Nat)
  | poll (i : Nat)
  | readLog (i : Nat)
  | stopServer
  | makeOutputDir
  | makeClientDir (i : Nat)
  | copyCsv (i : Nat)
  | copyServerLog
  | returned
  | raised
  deriving DecidableEq, Repr

structure Call where
  experiment : Nat
  config : ExperimentConfig
  phase : Phase
  deriving DecidableEq, Repr

/-- How `ssh` ends. A connection that fails can have run the command. -/
inductive Ssh
  | ok
  | failed (ran : Bool)
  deriving DecidableEq, Repr

def Ssh.ran : Ssh → Bool
  | .ok => true
  | .failed ran => ran

/-- How `scp` ends. One that fails leaves the local file as it was, or holding
the first bytes of the remote one. -/
inductive Scp
  | copied
  | failed
  | truncated
  deriving DecidableEq, Repr

/-- The steps of the orchestrator with their outcomes, and those of the clients
in the background. -/
inductive Event
  | run (config : ExperimentConfig)
  | startServer (r : Ssh)
  | detectIp
  | startClient (r : Ssh)
  | pgrep (reached : Bool)
  | catLog
  | pkill (reached : Bool)
  | makedirs (ok : Bool)
  | copyCsv (i : Nat) (r : Scp)
  | copyServerLog (ok : Bool)
  | dumpCsv (q : Client)
  | exit (q : Client)
  deriving DecidableEq, Repr

/-- The nodes and the local directory. The clients are those that have not
written their results, and those that have and not yet exited; the servers are
those that have not been sent a signal. -/
structure State where
  experiments : Nat
  call : Option Call
  servers : List Server
  running : List Client
  leaving : List Client
  remote : NodeConfig × String → Option Origin
  files : List String → Option Origin

namespace ExperimentConfig

variable (config : ExperimentConfig)

def finishing : Phase :=
  match config.protocol with
  | .tcp => .copyServerLog
  | .homa => .returned

def copying (i : Nat) : Phase := if i < config.clients.length then .makeClientDir i else config.finishing

def polling (i : Nat) : Phase := if i < config.clients.length then .poll i else .stopServer

def starting (i : Nat) : Phase := if i < config.clients.length then .startClient i else config.polling 0

end ExperimentConfig

def Call.client (c : Call) (i : Nat) (node : NodeConfig) : Client := ⟨⟨c.experiment, i⟩, c.config.protocol, node⟩

def Call.over (c : Call) : Bool := decide (c.phase = .returned ∨ c.phase = .raised)

namespace State

variable (s : State)

def idle : Bool := s.call.all Call.over

def enter (c : Call) (phase : Phase) : State := { s with call := some { c with phase := phase } }

/-- A step made with `check=True`, or a `makedirs`: its failure is raised. -/
def checked (c : Call) (ok : Bool) (phase : Phase) : State := s.enter c (if ok then phase else .raised)

def serve (c : Call) (ran : Bool) : State :=
  if ran then { s with servers := s.servers ++ [⟨c.experiment, c.config.protocol, c.config.server⟩] } else s

def launch (q : Client) (ran : Bool) : State := if ran then { s with running := s.running ++ [q] } else s

/-- `pgrep -f` finds a client of the protocol, of any user and any experiment. -/
def pgrep (protocol : Protocol) (node : NodeConfig) : Bool :=
  (s.running ++ s.leaving).any (fun q => decide (q.protocol = protocol ∧ q.node.hostname = node.hostname))

/-- `pkill -f` of the binary. The clients have a handler for the signal and go on. -/
def pkill (c : Call) (reached : Bool) : State :=
  if reached then
    { s with servers := s.servers.filter (fun q =>
        !decide (q.protocol = c.config.protocol ∧ q.node.hostname = c.config.server.hostname)) }
  else s

def store (path : List String) (o : Origin) : State := { s with files := Function.update s.files path (some o) }

end State

/-- One step of `run_tcp_experiment` or `run_homa_experiment`. -/
def advance (c : Call) (s : State) : Phase → Event → Option State
  | .startServer, .startServer r => some ((s.serve c r.ran).checked c (r = .ok) .detectIp)
  | .detectIp, .detectIp => some (s.enter c (c.config.starting 0))
  | .startClient i, .startClient r =>
    c.config.clients[i]?.map (fun node =>
      (s.launch (c.client i node) r.ran).checked c (r = .ok) (c.config.starting (i + 1)))
  | .poll i, .pgrep reached =>
    c.config.clients[i]?.map (fun node =>
      if reached && s.pgrep c.config.protocol node then s else s.enter c (.readLog i))
  | .readLog i, .catLog => some (s.enter c (c.config.polling (i + 1)))
  | .stopServer, .pkill reached => some ((s.pkill c reached).enter c .makeOutputDir)
  | .makeOutputDir, .makedirs ok => some (s.checked c ok (c.config.copying 0))
  | .makeClientDir i, .makedirs ok => some (s.checked c ok (.copyCsv i))
  | .copyCsv i, .copyCsv j r =>
    if i = j then
      match r with
      | .failed => some (s.enter c .raised)
      | .copied =>
        c.config.clients[i]?.bind (fun node => (s.remote (node, resultsCsv i)).map (fun o =>
          (s.store (c.config.localCsv i) o).enter c (c.config.copying (i + 1))))
      | .truncated =>
        c.config.clients[i]?.bind (fun node => (s.remote (node, resultsCsv i)).map (fun o =>
          (s.store (c.config.localCsv i) o).enter c .raised))
    else none
  | .copyServerLog, .copyServerLog ok => some (s.checked c ok .returned)
  | _, _ => none

def step (s : State) : Event → Option State
  | .run config =>
    if s.idle then
      some { s with experiments := s.experiments + 1, call := some ⟨s.experiments, config, .startServer⟩ }
    else none
  | .dumpCsv q =>
    if q ∈ s.running then
      some { s with running := s.running.erase q, leaving := s.leaving ++ [q],
                    remote := Function.update s.remote q.file (some q.origin) }
    else none
  | .exit q =>
    if q ∈ s.running then some { s with running := s.running.erase q }
    else if q ∈ s.leaving then some { s with leaving := s.leaving.erase q }
    else none
  | e => s.call.bind (fun c => advance c s c.phase e)

end DcBench.Orchestrate

import DcBench.OrchestrateMain

namespace DcBench.StressSweep

open DcBench.Lib DcBench.OrchestrateMain

/-- What the script does with a loss rate: `loss_pct > 0` and `str(loss)`. -/
structure Rates (F : Type) where
  positive : F → Bool
  text : F → String

/-- The arguments of `stress_sweep.py`, with the JSON files for their paths. -/
structure Args (F : Type) where
  configs : List RawConfig
  loss : List F
  iface : Option String

/-- Where `main` stands. From `del` to `clear` it is inside the `try`; `clear`
also says whether an exception is on its way. -/
inductive Phase
  | outer
  | detect
  | inner
  | del
  | add
  | process
  | move
  | clear (raising : Bool)
  | returned
  | raised
  deriving DecidableEq, Repr

/-- `config` and `rate` are the indices of the two loops, `host`, `base` and
`iface` the variables of the outer one. `qdisc` is the loss at the root of an
interface of a host, and `started` is history: the orchestrator's world at the
last call of an experiment, and what has happened in it since. -/
structure State (F : Type) where
  phase : Phase
  config : Nat
  rate : Nat
  host : String
  base : OutputDir
  iface : String
  qdisc : String × String → Option F
  main : OrchestrateMain.State
  started : History

/-- How `tc qdisc add` ends. It can have taken effect though `ssh` fails. -/
inductive Tc
  | added
  | failed (applied : Bool)
  deriving DecidableEq, Repr

def Tc.applied : Tc → Bool
  | .added => true
  | .failed applied => applied

/-- How the results are moved. `rmtree` can fail half way, having removed some of
the paths. -/
inductive Move
  | moved
  | rmtreeFails (removed : List String → Bool)
  | moveFails

inductive Event
  | openConfig
  | detect (iface : String)
  | next
  | del (ran : Bool)
  | add (r : Tc)
  | process (e : OrchestrateMain.Event)
  | exited
  | interrupt
  | move (r : Move)
  | clear (ran interrupted : Bool)

variable {F : Type}

/-- The host of the server and the output directory. A missing key raises, the
user's too, though the orchestrator has a default for it. -/
def serverAndBase (raw : RawConfig) : Option (String × OutputDir) := do
  let server ← raw.server
  let name ← raw.name
  let host ← server.hostname
  let _ ← server.user
  pure (host, raw.baseOutput name)

/-- `args.iface or detect_bench_iface(...)`: an empty name counts as none. -/
def Args.given (args : Args F) : Option String := args.iface.filter (fun iface => iface ≠ "")

def Rates.tag (rates : Rates F) (loss : F) : String :=
  "loss" ++ (rates.text loss).map (fun c => if c = '.' then 'p' else c)

/-- `f"{base_output}_{tag}"`, a sibling of the output directory unless a slash
ends the latter. -/
def dest (base : OutputDir) (tag : String) : List String :=
  if base.slash then base.path ++ ["_" ++ tag]
  else base.path.dropLast ++ [base.path.getLastD "" ++ "_" ++ tag]

namespace State

variable (s : State F)

def files : List String → Option Orchestrate.Origin := s.main.orch.files

def setFiles (files : List String → Option Orchestrate.Origin) : State F :=
  { s with main := { s.main with orch := { s.main.orch with files := files } } }

def setQdisc (q : Option F) : State F :=
  { s with qdisc := Function.update s.qdisc (s.host, s.iface) q }

def delQdisc (ran : Bool) : State F := if ran then s.setQdisc none else s

end State

/-- The files after a directory has been moved to a place where there is none. -/
def moveDir (files : List String → Option Orchestrate.Origin) (src dst path : List String) :
    Option Orchestrate.Origin :=
  if dst <+: path then files (src ++ path.drop dst.length)
  else if src <+: path then none
  else files path

def isBackground : OrchestrateMain.Event → Bool
  | .background _ => true
  | _ => false

def isStart : OrchestrateMain.Event → Bool
  | .start _ _ => true
  | _ => false

/-- The process of the orchestrator takes a step. Its clients on the nodes go on
when it has ended. -/
def State.process (built : String → String → Bool) (s : State F) (e : OrchestrateMain.Event) : Option (State F) :=
  (OrchestrateMain.step built s.main e).map (fun main =>
    { s with main := main, started := follow s.main.orch s.started e })

def step (rates : Rates F) (built : String → String → Bool) (args : Args F) (s : State F) : Event → Option (State F)
  | .openConfig =>
    match s.phase with
    | .outer =>
      match args.configs[s.config]? with
      | none => some { s with phase := .returned }
      | some raw =>
        match serverAndBase raw with
        | none => some { s with phase := .raised }
        | some (host, base) =>
          match args.given with
          | some iface => some { s with phase := .inner, rate := 0, host := host, base := base, iface := iface }
          | none => some { s with phase := .detect, rate := 0, host := host, base := base }
    | _ => none
  | .detect iface =>
    match s.phase with
    | .detect => some (if iface = "" then { s with phase := .raised }
        else { s with phase := .inner, iface := iface })
    | _ => none
  | .next =>
    match s.phase with
    | .inner =>
      match args.loss[s.rate]? with
      | none => some { s with phase := .outer, config := s.config + 1 }
      | some _ => some { s with phase := .del }
    | _ => none
  | .del ran =>
    match s.phase, args.loss[s.rate]? with
    | .del, some loss => some { s.delQdisc ran with phase := if rates.positive loss then .add else .process }
    | _, _ => none
  | .add r =>
    match s.phase, args.loss[s.rate]? with
    | .add, some loss =>
      -- The root of an interface holds one queueing discipline; `add` never replaces it.
      if r.applied && (s.qdisc (s.host, s.iface)).isSome then none
      else some { if r.applied then s.setQdisc (some loss) else s with
        phase := if r = .added then .process else .clear true }
    | _, _ => none
  | .process e =>
    if isBackground e then s.process built e
    else match s.phase, args.configs[s.config]? with
      | .process, some raw => if isStart e && e ≠ .start raw false then none else s.process built e
      | _, _ => none
  | .exited =>
    match s.phase, s.main.phase with
    | .process, .exited code =>
      some { s with
        main := { s.main with phase := .outside }
        phase := if code = 0 then .move else .clear false }
    | _, _ => none
  | .interrupt =>
    match s.phase with
    | .outer | .detect | .inner => some { s with phase := .raised }
    | .del | .add | .move => some { s with phase := .clear true }
    -- The signal reaches the orchestrator too.
    | .process => some { s with main := { s.main with phase := .exited 1 }, phase := .clear true }
    | _ => none
  | .move r =>
    match s.phase, args.loss[s.rate]? with
    | .move, some loss =>
      let target := dest s.base (rates.tag loss)
      match r with
      | .moved =>
        if s.base.slash then none
        else some { s.setFiles (moveDir s.files s.base.path target) with phase := .clear false }
      | .rmtreeFails removed =>
        some { s.setFiles (fun path => if target <+: path ∧ removed path then none else s.files path) with
          phase := .clear true }
      | .moveFails =>
        some { s.setFiles (fun path => if target <+: path then none else s.files path) with phase := .clear true }
    | _, _ => none
  | .clear ran interrupted =>
    match s.phase with
    | .clear raising =>
      -- An interrupt of the `finally` leaves the script, whether or not the command has arrived.
      some { s.delQdisc ran with
        phase := if raising || interrupted then .raised else .inner
        rate := if raising || interrupted then s.rate else s.rate + 1 }
    | _ => none

def start (qdisc : String × String → Option F) (main : OrchestrateMain.State) : State F :=
  ⟨.outer, 0, 0, "", ⟨[], false⟩, "", qdisc, main, none⟩

end DcBench.StressSweep

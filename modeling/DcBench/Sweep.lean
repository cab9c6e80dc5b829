import DcBench.Lib.Product
import DcBench.Lib.PythonData
import DcBench.Lib.PythonFormat

namespace DcBench.Sweep

open DcBench.Lib DcBench.Lib.PythonFormat DcBench.Lib.Product

/-- A JSON scalar as Python holds it. `F` is the type of its floats. -/
inductive Scalar (F : Type)
  | null
  | bool (b : Bool)
  | int (n : Int)
  | float (x : F)
  | str (t : Text)
deriving DecidableEq

/-- A JSON value. `N` is the type of the lists and objects, which the script only
passes on. -/
inductive Json (F N : Type)
  | scalar (s : Scalar F)
  | nested (n : N)
deriving DecidableEq

abbrev Dict (F N : Type) := List (Text × Json F N)

/-- The object of a config. Its entry `params` is an object of its own, given by
its address. -/
structure ConfigObject (F N : Type) where
  fields : Dict F N
  params : Nat

/-- The objects that the script can write to, by their addresses. -/
structure Memory (F N : Type) where
  configs : List (ConfigObject F N)
  dicts : List (Dict F N)

inductive Error
  | keyError (key : String)
  | typeError
deriving DecidableEq

/-- What `str` makes of floats, and of lists and objects. -/
structure Texts (F N : Type) where
  float : F → Text
  nested : N → Text

variable {F N : Type} (texts : Texts F N)

def Scalar.text : Scalar F → Text
  | .null => "None".toList
  | .bool true => "True".toList
  | .bool false => "False".toList
  | .int n => intText n
  | .float x => texts.float x
  | .str t => t

def Json.text : Json F N → Text
  | .scalar s => s.text texts
  | .nested n => texts.nested n

namespace Memory

variable (mem : Memory F N)

def config (a : Nat) : ConfigObject F N := mem.configs.getD a ⟨[], 0⟩

def params (a : Nat) : Dict F N := mem.dicts.getD (mem.config a).params []

/-- `copy.deepcopy`: a new object with a new object for its params. -/
def deepcopy (a : Nat) : Memory F N × Nat :=
  (⟨mem.configs ++ [⟨(mem.config a).fields, mem.dicts.length⟩], mem.dicts ++ [mem.params a]⟩, mem.configs.length)

def setParam (cfg : Nat) (key : Text) (val : Scalar F) : Memory F N :=
  { mem with dicts := mem.dicts.modify (mem.config cfg).params (fun d => d ++ [(key, .scalar val)]) }

def setField (cfg : Nat) (key val : Text) : Memory F N :=
  { mem with configs := mem.configs.modify cfg (fun o => { o with fields := o.fields ++ [(key, .scalar (.str val))] }) }

end Memory

def pathJoin (a b : Text) : Text :=
  if b.head? = some '/' then b
  else if a = [] ∨ a.getLast? = some '/' then a ++ b
  else a ++ '/' :: b

def baseName (fields : Dict F N) : Except Error (Json F N) :=
  match PythonData.get fields "name".toList with
  | none => .error (.keyError "name")
  | some v => .ok v

/-- `base_config.get("output_dir", "./results")`, which `os.path.join` rejects when
it is not a string. -/
def baseDir (fields : Dict F N) : Except Error Text :=
  match PythonData.get fields "output_dir".toList with
  | none => .ok "./results".toList
  | some (.scalar (.str t)) => .ok t
  | some _ => .error .typeError

def part (key : Text) (val : Scalar F) : Text := key ++ '=' :: val.text texts

/-- The loop over the keys, which writes the params and collects the parts of the
name. -/
def assign (cfg : Nat) (state : Memory F N × List Text) (p : Text × Scalar F) : Memory F N × List Text :=
  (state.1.setParam cfg p.1 p.2, state.2 ++ [part texts p.1 p.2])

/-- One turn of the loop over the product. -/
def sweepOne (mem : Memory F N) (base : Nat) (keys : List Text) (combo : List (Scalar F)) :
    Except Error (Memory F N × Nat) := do
  let fields := (mem.config base).fields
  let (mem, cfg) := mem.deepcopy base
  let first ← baseName fields
  let (mem, parts) := (keys.zip combo).foldl (assign texts cfg) (mem, [first.text texts])
  let name := join "_".toList parts
  let mem := mem.setField cfg "name".toList name
  let dir ← baseDir fields
  pure (mem.setField cfg "output_dir".toList (pathJoin dir name), cfg)

def sweepAll (base : Nat) (keys : List Text) (mem : Memory F N) :
    List (List (Scalar F)) → Except Error (Memory F N × List Nat)
  | [] => .ok (mem, [])
  | combo :: combos => do
    let (mem, cfg) ← sweepOne texts mem base keys combo
    let (mem, cfgs) ← sweepAll base keys mem combos
    pure (mem, cfg :: cfgs)

/-- The configs are returned by their addresses. -/
def generateSweepConfigs (mem : Memory F N) (base : Nat) (sweep : List (Text × List (Scalar F))) :
    Except Error (Memory F N × List Nat) :=
  sweepAll texts base (sweep.map Prod.fst) mem (product (sweep.map Prod.snd))

end DcBench.Sweep

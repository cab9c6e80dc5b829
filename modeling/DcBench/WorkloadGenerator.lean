import DcBench.Lib.Source
import DcBench.Workload

namespace DcBench.WorkloadGenerator

open DcBench.Lib DcBench.Workload

/-- What the generator uses of the C++ library: the type `double` and its
arithmetic, and `std::mt19937_64` with the distributions drawn from it. -/
structure Library (D G : Type) where
  literal : ℚ → D
  ofUInt32 : UInt32 → D
  toUInt32 : D → UInt32
  value : D → ℚ
  le : D → D → Bool
  sub : D → D → D
  div : D → D → D
  pow : D → D → D
  engine : UInt64 → G
  uniformInt : UInt32 → UInt32 → G → UInt32 × G
  uniformReal : D → D → G → D × G
  bernoulli : D → G → Bool × G
  exponential : D → G → D × G

inductive SizeDistribution
  | fixed
  | uniform
  | bimodal
  | pareto
deriving DecidableEq, Repr

/-- `WorkloadConfig` with the fields that the generator reads. -/
structure GeneratorConfig (D : Type) extends WorkloadConfig where
  distribution : SizeDistribution
  fixedSize : UInt32
  uniformMin : UInt32
  uniformMax : UInt32
  bimodalSmall : UInt32
  bimodalLarge : UInt32
  bimodalSmallFraction : D
  paretoShape : D
  paretoScale : UInt32
  paretoMax : UInt32
  targetRps : D
  closedLoopConcurrency : UInt32

variable {D G : Type} (lib : Library D G) (cfg : GeneratorConfig D)

def generatePareto (g : G) : UInt32 × G :=
  let (sample, g) := lib.uniformReal (lib.literal 0) (lib.literal 1) g
  let value := lib.div (lib.ofUInt32 cfg.paretoScale)
    (lib.pow (lib.sub (lib.literal 1) sample) (lib.div (lib.literal 1) cfg.paretoShape))
  (min (lib.toUInt32 value) cfg.paretoMax, g)

def nextSize (g : G) : UInt32 × G :=
  match cfg.distribution with
  | .fixed => (cfg.fixedSize, g)
  | .uniform => lib.uniformInt cfg.uniformMin cfg.uniformMax g
  | .bimodal =>
    let (coin, g) := lib.bernoulli cfg.bimodalSmallFraction g
    (if coin then cfg.bimodalSmall else cfg.bimodalLarge, g)
  | .pareto => generatePareto lib cfg g

def nextInterarrivalUs (g : G) : D × G :=
  if lib.le cfg.targetRps (lib.literal 0) then (lib.literal 0, g)
  else
    let meanIntervalUs := lib.div (lib.literal 1000000) cfg.targetRps
    lib.exponential (lib.div (lib.literal 1) meanIntervalUs) g

/-- What one turn of an open loop draws from its generator. -/
structure Arrival where
  waitUs : ℚ
  size : UInt32
deriving DecidableEq

def nextArrival (g : G) : Arrival × G :=
  let (waitUs, g) := nextInterarrivalUs lib cfg g
  let (size, g) := nextSize lib cfg g
  (⟨lib.value waitUs, size⟩, g)

/-- The seed of worker `i` of `TcpClient`. The index goes through an `int`. -/
def tcpSeed (i : UInt32) : UInt64 := 42 + i.toInt32.toInt64.toUInt64

/-- The seed of worker `i` of `HomaClient`. The sum is a `uint32_t`. -/
def homaSeed (i : UInt32) : UInt64 := (42 + i).toUInt64

theorem tcpSeed_eq_homaSeed {i : UInt32} (h : i.toNat < 2 ^ 31) : tcpSeed i = homaSeed i := by
  have hmsb : i.toBitVec.msb = false := by
    rw [BitVec.msb_eq_decide, decide_eq_false_iff_not]
    simpa using h
  have hcast : i.toInt32.toInt64.toUInt64.toNat = i.toNat := by
    change (i.toBitVec.signExtend 64).toNat = i.toNat
    rw [BitVec.signExtend_eq_setWidth_of_msb_false hmsb, BitVec.toNat_setWidth]
    exact Nat.mod_eq_of_lt (by have := i.toNat_lt; omega)
  rw [tcpSeed, homaSeed, ← UInt64.toNat_inj, UInt64.toNat_add, hcast, UInt32.toNat_toUInt64, UInt32.toNat_add]
  change (42 + i.toNat) % 2 ^ 64 = (42 + i.toNat) % 2 ^ 32
  omega

def sizes (i : UInt32) (k : Nat) : UInt32 := Source.stream (nextSize lib cfg) (lib.engine (homaSeed i)) k

def arrivals (k : Nat) : Arrival := Source.stream (nextArrival lib cfg) (lib.engine 42) k

end DcBench.WorkloadGenerator

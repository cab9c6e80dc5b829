import DcBench.Lib.Numerals
import Mathlib.Data.Rat.Floor

namespace DcBench.Workload

/-- The two counts of a run. -/
structure WorkloadConfig where
  warmupRequests : UInt32
  numRequests : UInt32

def WorkloadConfig.total (cfg : WorkloadConfig) : UInt32 := cfg.warmupRequests + cfg.numRequests

/-- The share of worker `j` of a closed loop in `num_requests`. -/
def WorkloadConfig.count (cfg : WorkloadConfig) (poolSize j : UInt32) : UInt32 :=
  cfg.numRequests / poolSize + if j < cfg.numRequests % poolSize then 1 else 0

def WorkloadConfig.warmup (cfg : WorkloadConfig) (poolSize : UInt32) : UInt32 := cfg.warmupRequests / poolSize

def priorityForSize (size : UInt32) : UInt8 :=
  if size ≤ 256 then 7
  else if size ≤ 1024 then 6
  else if size ≤ 4096 then 5
  else if size ≤ 16384 then 4
  else if size ≤ 65536 then 3
  else if size ≤ 262144 then 2
  else if size ≤ 1048576 then 1
  else 0

/-- The cast of a `double` to `int64_t` drops the fractional part. -/
def truncate (x : ℚ) : Int := if 0 ≤ x then ⌊x⌋ else ⌈x⌉

/-- What one turn of an open loop takes from its `WorkloadGenerator`. `draw` is
the uniform draw that the random policy makes in the same turn. -/
structure Turn where
  waitUs : ℚ
  size : UInt32
  draw : UInt32 → UInt32 → UInt32

theorem toNat_succ_of_lt {i n : UInt32} (h : i < n) : (i + 1).toNat = i.toNat + 1 := by
  have hlt := UInt32.lt_iff_toNat_lt.mp h
  have hmax := n.toNat_lt
  rw [UInt32.toNat_add, UInt32.toNat_one, Nat.mod_eq_of_lt (by omega)]

end DcBench.Workload

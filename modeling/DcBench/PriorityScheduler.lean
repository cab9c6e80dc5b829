import Mathlib.Order.Defs.LinearOrder

namespace DcBench.PriorityScheduler

inductive SchedulingPolicy
  | roundRobin
  | sizeAware
  | random
deriving DecidableEq

structure Scheduler where
  policy : SchedulingPolicy
  poolSize : UInt32
  rrCounter : UInt32
deriving DecidableEq

/-- `rr_counter_.fetch_add(1) % n`. The remainder by zero is not defined. -/
def Scheduler.nextMod (s : Scheduler) (n : UInt32) : Option (UInt32 × Scheduler) :=
  if n = 0 then none else some (s.rrCounter % n, { s with rrCounter := s.rrCounter + 1 })

def Scheduler.roundRobin (s : Scheduler) : Option (UInt32 × Scheduler) :=
  s.nextMod s.poolSize

def Scheduler.largePool (s : Scheduler) : UInt32 := max 1 (s.poolSize / 4)

def Scheduler.smallPool (s : Scheduler) : UInt32 := s.poolSize - s.largePool

def Scheduler.sizeAware (s : Scheduler) (messageSize : UInt32) :
    Option (UInt32 × Scheduler) :=
  if 4096 < messageSize then (s.nextMod s.largePool).map (fun r => (s.smallPool + r.1, r.2))
  else s.nextMod s.smallPool

/-- `draw lo hi` is the value that `uniform_int_distribution(lo, hi)` returns. -/
def Scheduler.randomSelect (s : Scheduler) (draw : UInt32 → UInt32 → UInt32) :
    UInt32 × Scheduler :=
  (draw 0 (s.poolSize - 1), s)

def Scheduler.select (s : Scheduler) (messageSize : UInt32) (draw : UInt32 → UInt32 → UInt32) :
    Option (UInt32 × Scheduler) :=
  match s.policy with
  | .roundRobin => s.roundRobin
  | .sizeAware => s.sizeAware messageSize
  | .random => some (s.randomSelect draw)

def fresh (policy : SchedulingPolicy) (poolSize : UInt32) : Scheduler := ⟨policy, poolSize, 0⟩

theorem nextMod_some {s s' : Scheduler} {n idx : UInt32} (h : s.nextMod n = some (idx, s')) :
    n ≠ 0 ∧ idx = s.rrCounter % n ∧ s' = { s with rrCounter := s.rrCounter + 1 } := by
  rw [Scheduler.nextMod] at h
  split at h
  · cases h
  · cases h
    exact ⟨‹_›, rfl, rfl⟩

theorem toNat_largePool (s : Scheduler) : s.largePool.toNat = max 1 (s.poolSize.toNat / 4) := by
  have hdiv : (s.poolSize / 4).toNat = s.poolSize.toNat / 4 := UInt32.toNat_div _ _
  have hmax : s.largePool = if (1 : UInt32) ≤ s.poolSize / 4 then s.poolSize / 4 else 1 := rfl
  by_cases hle : (1 : UInt32) ≤ s.poolSize / 4
  · have hnat : 1 ≤ (s.poolSize / 4).toNat := UInt32.le_iff_toNat_le.mp hle
    rw [hmax, if_pos hle]
    omega
  · have hnat : ¬ 1 ≤ (s.poolSize / 4).toNat := fun h => hle (UInt32.le_iff_toNat_le.mpr h)
    rw [hmax, if_neg hle, UInt32.toNat_one]
    omega

theorem toNat_smallPool (s : Scheduler) (hp : 1 ≤ s.poolSize.toNat) :
    s.smallPool.toNat = s.poolSize.toNat - max 1 (s.poolSize.toNat / 4) := by
  have hl := toNat_largePool s
  rw [Scheduler.smallPool, UInt32.toNat_sub_of_le _ _ (UInt32.le_iff_toNat_le.mpr (by omega)), hl]

/-- With two connections or more, large messages go to the last connections and
small ones to the others. -/
theorem sizeAware_class {s s' : Scheduler} {size idx : UInt32} (hp : 2 ≤ s.poolSize.toNat)
    (h : s.sizeAware size = some (idx, s')) :
    (4096 < size ↔ s.smallPool.toNat ≤ idx.toNat) ∧ idx.toNat < s.poolSize.toNat := by
  have hl := toNat_largePool s
  have hs := toNat_smallPool s (by omega)
  rw [Scheduler.sizeAware] at h
  by_cases hsize : 4096 < size
  · rw [if_pos hsize, Option.map_eq_some_iff] at h
    obtain ⟨⟨r, t⟩, hr, heq⟩ := h
    obtain ⟨hne, rfl, rfl⟩ := nextMod_some hr
    obtain ⟨rfl, rfl⟩ := Prod.mk.inj heq
    have hmod : (s.rrCounter % s.largePool).toNat < s.largePool.toNat := by
      rw [UInt32.toNat_mod]
      exact Nat.mod_lt _ (by omega)
    have hadd : (s.smallPool + s.rrCounter % s.largePool).toNat =
        s.smallPool.toNat + (s.rrCounter % s.largePool).toNat := by
      have hlt := s.poolSize.toNat_lt
      rw [UInt32.toNat_add, Nat.mod_eq_of_lt (by omega)]
    simp only [hadd, hsize, true_iff]
    omega
  · rw [if_neg hsize] at h
    obtain ⟨hne, rfl, rfl⟩ := nextMod_some h
    have hmod : (s.rrCounter % s.smallPool).toNat < s.smallPool.toNat := by
      rw [UInt32.toNat_mod]
      exact Nat.mod_lt _ (by omega)
    simp only [hsize, false_iff]
    omega

theorem select_frame {s s' : Scheduler} {size idx : UInt32} {draw : UInt32 → UInt32 → UInt32}
    (h : s.select size draw = some (idx, s')) : s'.policy = s.policy ∧ s'.poolSize = s.poolSize := by
  cases hp : s.policy with
  | roundRobin =>
    simp only [Scheduler.select, hp, Scheduler.roundRobin] at h
    obtain ⟨-, -, rfl⟩ := nextMod_some h
    exact ⟨hp, rfl⟩
  | sizeAware =>
    simp only [Scheduler.select, hp, Scheduler.sizeAware] at h
    split at h
    · obtain ⟨⟨r, t⟩, hr, heq⟩ := Option.map_eq_some_iff.mp h
      obtain ⟨-, -, rfl⟩ := nextMod_some hr
      obtain ⟨-, rfl⟩ := Prod.mk.inj heq
      exact ⟨hp, rfl⟩
    · obtain ⟨-, -, rfl⟩ := nextMod_some h
      exact ⟨hp, rfl⟩
  | random =>
    simp only [Scheduler.select, hp, Scheduler.randomSelect, Option.some.injEq, Prod.mk.injEq] at h
    exact ⟨h.2 ▸ hp, congrArg _ h.2.symm⟩

end DcBench.PriorityScheduler

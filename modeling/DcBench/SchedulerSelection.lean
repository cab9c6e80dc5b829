import DcBench.OpenLoopMoves
import DcBench.Lib.Transition

namespace DcBench.SchedulerSelection

open DcBench.Lib DcBench.Message DcBench.Workload DcBench.PriorityScheduler DcBench.OpenLoop DcBench.OpenLoopMoves

/-- The value that `select` returns is an index of the pool, and under the size
aware policy it separates the two classes of messages. -/
def Valid (s : Scheduler) (size : UInt32) (draw : UInt32 → UInt32 → UInt32) : Prop :=
  ∃ idx s', s.select size draw = some (idx, s') ∧ idx.toNat < s.poolSize.toNat ∧
    (s.policy = .sizeAware → 2 ≤ s.poolSize.toNat →
      (s.poolSize.toNat - max 1 (s.poolSize.toNat / 4) ≤ idx.toNat ↔ 4096 < size))

/-- A small message under the size aware policy, and the only connection is kept
for the large ones. -/
def NoSmallPool (policy : SchedulingPolicy) (poolSize size : UInt32) : Prop :=
  policy = .sizeAware ∧ poolSize = 1 ∧ size ≤ 4096

instance (policy : SchedulingPolicy) (poolSize size : UInt32) : Decidable (NoSmallPool policy poolSize size) :=
  inferInstanceAs (Decidable (_ ∧ _))

variable {s : Scheduler} {size : UInt32} {draw : UInt32 → UInt32 → UInt32}

theorem nextMod_of_pos {n : UInt32} (hn : 0 < n.toNat) :
    s.nextMod n = some (s.rrCounter % n, { s with rrCounter := s.rrCounter + 1 }) := by
  rw [Scheduler.nextMod, if_neg]
  rintro rfl
  exact absurd hn (by decide)

theorem toNat_mod_lt {a n : UInt32} (hn : 0 < n.toNat) : (a % n).toNat < n.toNat := by
  rw [UInt32.toNat_mod]
  exact Nat.mod_lt _ hn

theorem select_sizeAware (hpol : s.policy = .sizeAware) : s.select size draw = s.sizeAware size := by
  simp only [Scheduler.select, hpol]

/-- The size aware choice is a connection of the message's class. Its place there is
the counter modulo the size of the class. -/
theorem sizeAware_eq (hp : 2 ≤ s.poolSize.toNat) (size : UInt32) :
    s.sizeAware size = some
      (if 4096 < size then s.smallPool + s.rrCounter % s.largePool else s.rrCounter % s.smallPool,
        { s with rrCounter := s.rrCounter + 1 }) := by
  have hl := toNat_largePool s
  have hs := toNat_smallPool s (by omega)
  rw [Scheduler.sizeAware, nextMod_of_pos (by omega), nextMod_of_pos (by omega)]
  split <;> rfl

theorem select_roundRobin (hp : 0 < s.poolSize.toNat) (hpol : s.policy = .roundRobin) :
    s.select size draw = some (s.rrCounter % s.poolSize, { s with rrCounter := s.rrCounter + 1 }) := by
  have hsel : s.select size draw = s.nextMod s.poolSize := by simp only [Scheduler.select, hpol, Scheduler.roundRobin]
  exact hsel.trans (nextMod_of_pos hp)

theorem valid_roundRobin (hp : 1 ≤ s.poolSize.toNat) (hpol : s.policy = .roundRobin) : Valid s size draw := by
  refine ⟨_, _, select_roundRobin hp hpol, toNat_mod_lt hp, fun h => ?_⟩
  rw [hpol] at h
  cases h

theorem valid_random (hp : 1 ≤ s.poolSize.toNat) (hpol : s.policy = .random)
    (hdraw : draw 0 (s.poolSize - 1) ≤ s.poolSize - 1) : Valid s size draw := by
  refine ⟨draw 0 (s.poolSize - 1), s, ?_, ?_, fun h => ?_⟩
  · rw [Scheduler.select, hpol, Scheduler.randomSelect]
  · have hle := UInt32.le_iff_toNat_le.mp hdraw
    rw [UInt32.toNat_sub_of_le s.poolSize 1 (UInt32.le_iff_toNat_le.mpr hp), UInt32.toNat_one] at hle
    omega
  · rw [hpol] at h
    cases h

theorem valid_sizeAware (hp : 2 ≤ s.poolSize.toNat) (hpol : s.policy = .sizeAware) : Valid s size draw := by
  have hsel := sizeAware_eq hp size
  obtain ⟨hclass, hlt⟩ := sizeAware_class hp hsel
  refine ⟨_, { s with rrCounter := s.rrCounter + 1 }, ?_, hlt, fun _ _ => ?_⟩
  · rw [select_sizeAware hpol]
    exact hsel
  · rw [← toNat_smallPool s (by omega)]
    exact hclass.symm

theorem select_eq_none (h : NoSmallPool s.policy s.poolSize size) : s.select size draw = none := by
  obtain ⟨hpol, hone, hsize⟩ := h
  have hempty : s.smallPool = 0 := by
    rw [Scheduler.smallPool, Scheduler.largePool, hone]
    decide
  rw [select_sizeAware hpol, Scheduler.sizeAware, if_neg (UInt32.not_lt.mpr hsize), Scheduler.nextMod, if_pos hempty]

theorem valid_sizeAware_one (hone : s.poolSize = 1) (hpol : s.policy = .sizeAware) (hsize : 4096 < size) :
    Valid s size draw := by
  have hl := toNat_largePool s
  have hs := toNat_smallPool s (by simp [hone])
  rw [hone, UInt32.toNat_one] at hl hs
  refine ⟨s.smallPool + s.rrCounter % s.largePool, { s with rrCounter := s.rrCounter + 1 }, ?_, ?_, fun _ h2 => ?_⟩
  · rw [select_sizeAware hpol, Scheduler.sizeAware, if_pos hsize, nextMod_of_pos (by omega)]
    rfl
  · have hmod := toNat_mod_lt (a := s.rrCounter) (n := s.largePool) (by omega)
    rw [UInt32.toNat_add, hs, hone, UInt32.toNat_one]
    omega
  · rw [hone, UInt32.toNat_one] at h2
    omega

theorem valid_iff_not_noSmallPool (hp : 1 ≤ s.poolSize.toNat) (hdraw : draw 0 (s.poolSize - 1) ≤ s.poolSize - 1) :
    Valid s size draw ↔ ¬ NoSmallPool s.policy s.poolSize size := by
  cases hpol : s.policy with
  | roundRobin => exact iff_of_true (valid_roundRobin hp hpol) (by simp [NoSmallPool])
  | random => exact iff_of_true (valid_random hp hpol hdraw) (by simp [NoSmallPool])
  | sizeAware =>
    rw [← hpol]
    by_cases hone : s.poolSize = 1
    · by_cases hsize : 4096 < size
      · exact iff_of_true (valid_sizeAware_one hone hpol hsize) fun h => absurd hsize (UInt32.not_lt.mpr h.2.2)
      · have hno : NoSmallPool s.policy s.poolSize size := ⟨hpol, hone, UInt32.not_lt.mp hsize⟩
        refine iff_of_false ?_ (not_not.mpr hno)
        rintro ⟨idx, s', hsel, -⟩
        rw [select_eq_none hno] at hsel
        cases hsel
    · have hne : s.poolSize.toNat ≠ 1 := fun h => hone (UInt32.toNat_inj.mp h)
      exact iff_of_true (valid_sizeAware (by omega) hpol) fun h => hone h.2.1

variable {P : Nat} {cfg : WorkloadConfig} {gen : Nat → Turn}

/-- The producer of `run_open_loop` is about to push its next request. -/
def Due (cfg : WorkloadConfig) (gen : Nat → Turn) (s : State P) : Prop :=
  s.running = true ∧ s.i < cfg.total ∧ s.nextTime + 1000 * truncate (gen s.i.toNat).waitUs ≤ s.clock.toNat

theorem scheduler_of_step {s s' : State P} {ev : Event P} (h : OpenLoop.step cfg gen s ev = some s') :
    s'.scheduler.policy = s.scheduler.policy ∧ s'.scheduler.poolSize = s.scheduler.poolSize := by
  cases ev with
  | tick t =>
    simp only [OpenLoop.step, Option.ite_none_right_eq_some, Option.some.injEq] at h
    obtain ⟨-, rfl⟩ := h
    exact ⟨rfl, rfl⟩
  | push =>
    obtain ⟨j, hpush⟩ := pushed_of_step h
    obtain ⟨connIdx, hsel, -⟩ := hpush.chosen
    exact select_frame hsel
  | stop =>
    simp only [OpenLoop.step, Option.ite_none_right_eq_some, Option.some.injEq] at h
    obtain ⟨-, rfl⟩ := h
    exact ⟨rfl, rfl⟩
  | worker j ev =>
    obtain ⟨w, -, rfl⟩ := worker_of_step h
    exact ⟨rfl, rfl⟩

theorem scheduler_of_run {s s' : State P} {evs : List (Event P)}
    (h : Transition.run (OpenLoop.step cfg gen) s evs = some s') :
    s'.scheduler.policy = s.scheduler.policy ∧ s'.scheduler.poolSize = s.scheduler.poolSize := by
  refine Transition.invariant (P := fun t => t.scheduler.policy = s.scheduler.policy ∧
    t.scheduler.poolSize = s.scheduler.poolSize) ?_ ⟨rfl, rfl⟩ h
  intro t ev u ht hu
  obtain ⟨hpol, hpool⟩ := scheduler_of_step hu
  exact ⟨hpol.trans ht.1, hpool.trans ht.2⟩

theorem push_isSome_iff {s : State P} {policy : SchedulingPolicy} {poolSize : UInt32} (hdue : Due cfg gen s)
    (hpol : s.scheduler.policy = policy) (hpool : s.scheduler.poolSize = poolSize) (hP : poolSize.toNat = P) (hp : 1 ≤ P)
    (hdraw : (gen s.i.toNat).draw 0 (poolSize - 1) ≤ poolSize - 1) :
    (OpenLoop.step cfg gen s .push).isSome ↔ ¬ NoSmallPool policy poolSize (gen s.i.toNat).size := by
  subst hpol hpool
  constructor
  · intro h hno
    obtain ⟨s', hs'⟩ := Option.isSome_iff_exists.mp h
    obtain ⟨j, hpush⟩ := pushed_of_step hs'
    obtain ⟨connIdx, hsel, -⟩ := hpush.chosen
    rw [select_eq_none hno] at hsel
    cases hsel
  · intro hno
    obtain ⟨connIdx, sch, hsel, hlt, -⟩ := (valid_iff_not_noSmallPool (by omega) hdraw).mpr hno
    rw [hP] at hlt
    rw [Due] at hdue
    simp only [OpenLoop.step, if_pos hdue, hsel, dif_pos hlt, Option.isSome_some]

/-- Every choice is valid, for every value of the counter, and every due request of
`run_open_loop` finds its queue, unless a small message meets the size aware
policy with one connection only. -/
theorem select_valid_iff (policy : SchedulingPolicy) (poolSize : UInt32) (hp : 1 ≤ poolSize.toNat) :
    (∀ (rrCounter size : UInt32) (draw : UInt32 → UInt32 → UInt32), draw 0 (poolSize - 1) ≤ poolSize - 1 →
      (Valid ⟨policy, poolSize, rrCounter⟩ size draw ↔ ¬ NoSmallPool policy poolSize size)) ∧
    ∀ (clock : UInt64) (stack stack' : Fin poolSize.toNat → Fin headerSize → UInt8)
      (sendBuf recvBuf : Fin poolSize.toNat → List UInt8) (cfg : WorkloadConfig) (gen : Nat → Turn)
      (evs : List (Event poolSize.toNat)) (s : State poolSize.toNat),
      Transition.run (OpenLoop.step cfg gen) (OpenLoop.start clock policy poolSize stack stack' sendBuf recvBuf) evs =
        some s →
      Due cfg gen s → (gen s.i.toNat).draw 0 (poolSize - 1) ≤ poolSize - 1 →
      ((OpenLoop.step cfg gen s .push).isSome ↔ ¬ NoSmallPool policy poolSize (gen s.i.toNat).size) := by
  refine ⟨?_, ?_⟩
  · intro rrCounter size draw hdraw
    exact valid_iff_not_noSmallPool (s := ⟨policy, poolSize, rrCounter⟩) hp hdraw
  · intro clock stack stack' sendBuf recvBuf cfg gen evs s hrun hdue hdraw
    obtain ⟨hpol, hpool⟩ := scheduler_of_run hrun
    exact push_isSome_iff hdue hpol hpool rfl hp hdraw

/-- The counter before it wraps around, and the first push of an open loop. -/
theorem select_valid_eight : Valid ⟨.sizeAware, 8, 4294967295⟩ 4097 (fun _ b => b) ∧
    (OpenLoop.step ⟨0, 1⟩ (fun _ => ⟨0, 64, fun a _ => a⟩)
      (OpenLoop.start 5 .sizeAware 8 (fun _ _ => 0) (fun _ _ => 0) (fun _ => []) (fun _ => [])) .push).isSome := by
  obtain ⟨hvalid, hpush⟩ := select_valid_iff .sizeAware 8 (by decide)
  refine ⟨(hvalid 4294967295 4097 (fun _ b => b) (by decide)).mpr (by decide), ?_⟩
  refine (hpush 5 _ _ _ _ ⟨0, 1⟩ (fun _ => ⟨0, 64, fun a _ => a⟩) [] _ rfl ?_ (by decide)).mpr (by decide)
  exact ⟨rfl, by decide, by simp [OpenLoop.start, truncate]⟩

/-- One connection under the size aware policy: the remainder is taken by zero. -/
theorem select_one_connection : (fresh .sizeAware 1).smallPool = 0 ∧
    (fresh .sizeAware 1).select 64 (fun a _ => a) = none ∧ ¬ Valid (fresh .sizeAware 1) 64 (fun a _ => a) := by
  refine ⟨by decide, by decide, ?_⟩
  rintro ⟨idx, s', hsel, -⟩
  rw [show (fresh .sizeAware 1).select 64 (fun a _ => a) = none by decide] at hsel
  cases hsel

end DcBench.SchedulerSelection

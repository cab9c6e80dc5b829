import DcBench.SizeBalance

namespace DcBench.RoundRobinSpread

open DcBench.Lib DcBench.Message DcBench.Workload DcBench.PriorityScheduler DcBench.OpenLoop DcBench.OpenLoopMoves
open DcBench.SchedulerSelection DcBench.SizeBalance

/-- The choices are spread evenly over `P` connections, as a whole and in every
window of `P` choices. -/
structure Even (P : Nat) (conns : List Nat) : Prop where
  count : ∀ c < P, conns.count c = conns.length / P ∨ conns.count c = (conns.length + P - 1) / P
  window : ∀ k, k + P ≤ conns.length → ((conns.drop k).take P).Nodup

def rounds (P n : Nat) : List Nat := (List.range n).map (· % P)

theorem rounds_succ (P n : Nat) : rounds P (n + 1) = rounds P n ++ [n % P] := by
  rw [rounds, List.range_succ, List.map_append, List.map_singleton, rounds]

theorem count_rounds {P c : Nat} (n : Nat) (hc : c < P) :
    (rounds P n).count c = n / P + if c < n % P then 1 else 0 := by
  rw [← countP_range_mod n hc, rounds, List.count, List.countP_map]
  apply List.countP_congr
  intro k _
  simp

theorem div_ceil_eq {P : Nat} (n : Nat) (hP : 0 < P) : (n + P - 1) / P = n / P + if 0 < n % P then 1 else 0 := by
  have hn := Nat.div_add_mod n P
  have hlt := Nat.mod_lt n hP
  have hsplit : n + P - 1 = (n % P + P - 1) + P * (n / P) := by omega
  rw [hsplit, Nat.add_mul_div_left _ _ hP, Nat.add_comm]
  congr 1
  split
  · rename_i hpos
    rw [Nat.div_eq_of_lt_le] <;> omega
  · exact Nat.div_eq_of_lt (by omega)

theorem window_rounds {P n k : Nat} (hk : k + P ≤ n) : (((rounds P n).drop k).take P).Nodup := by
  have hwindow : ((rounds P n).drop k).take P = (List.range' k P).map (· % P) := by
    rw [rounds, List.range_eq_range', ← List.map_drop, ← List.map_take, List.drop_range',
      List.take_range'_of_length_ge (by omega), Nat.zero_add, Nat.mul_one]
  rw [hwindow]
  apply List.Nodup.map_on
  · intro i hi j hj heq
    rw [List.mem_range'_1] at hi hj
    -- two numbers of the window with the same residue are less than `P` apart
    have hdiv := Nat.div_add_mod i P
    have hdiv' := Nat.div_add_mod j P
    rw [heq] at hdiv
    obtain hlt | heq' | hlt := Nat.lt_trichotomy (i / P) (j / P)
    · have hmul := Nat.mul_le_mul_left P hlt
      rw [Nat.mul_succ] at hmul
      omega
    · rw [heq'] at hdiv
      omega
    · have hmul := Nat.mul_le_mul_left P hlt
      rw [Nat.mul_succ] at hmul
      omega
  · exact List.nodup_range'

theorem even_rounds {P : Nat} (hP : 0 < P) (n : Nat) : Even P (rounds P n) := by
  have hlen : (rounds P n).length = n := by rw [rounds, List.length_map, List.length_range]
  constructor
  · intro c hc
    rw [count_rounds n hc, hlen, div_ceil_eq n hP]
    split <;> split <;> omega
  · intro k hk
    rw [hlen] at hk
    exact window_rounds hk

theorem selectAll_rounds (draw : UInt32 → UInt32 → UInt32) {poolSize : UInt32} (hp : 0 < poolSize.toNat)
    {sizes : List UInt32} (hlen : sizes.length < 2 ^ 32) :
    ∃ assigned, selectAll draw (fresh .roundRobin poolSize) sizes = some assigned ∧
      assigned.map (fun m => m.2.toNat) = rounds poolSize.toNat sizes.length := by
  have hzero : (0 : UInt32).toNat + sizes.length < 2 ^ 32 := by
    rw [UInt32.toNat_zero]
    omega
  obtain ⟨assigned, hall, hmap⟩ := @selectAll_of_select draw (fun _ k => k % poolSize.toNat)
    (fresh .roundRobin poolSize) (fun c size => ⟨_, select_roundRobin hp rfl, UInt32.toNat_mod _ _⟩) sizes 0
    hzero
  refine ⟨assigned, hall, ?_⟩
  have hsnd := congrArg (List.map Prod.snd) hmap
  rw [List.map_map, List.map_map] at hsnd
  refine hsnd.trans ?_
  change (sizes.zipIdx 0).map ((· % poolSize.toNat) ∘ Prod.snd) = _
  rw [← List.map_map, List.zipIdx_map_snd, ← List.range_eq_range', rounds]

section Run

variable {poolSize : UInt32} {cfg : WorkloadConfig} {gen : Nat → Turn}

/-- The scheduler counts the requests of the producer. -/
structure Counting (poolSize : UInt32) (s : State poolSize.toNat) : Prop where
  scheduler : s.scheduler = ⟨.roundRobin, poolSize, s.i⟩
  conns : s.issued.map Issued.conn = rounds poolSize.toNat s.i.toNat

theorem counting_step {s s' : State poolSize.toNat} {e : Event poolSize.toNat} (h : Counting poolSize s)
    (hs : OpenLoop.step cfg gen s e = some s') : Counting poolSize s' := by
  cases e with
  | tick t =>
    obtain ⟨-, heq⟩ := Option.ite_none_right_eq_some.mp hs
    cases heq
    exact ⟨h.scheduler, h.conns⟩
  | push =>
    obtain ⟨j, hpush⟩ := pushed_of_step hs
    obtain ⟨connIdx, hsel, hconn⟩ := hpush.chosen
    have hp : 0 < s.scheduler.poolSize.toNat := by
      rw [h.scheduler]
      exact Nat.zero_lt_of_lt j.isLt
    have hpol : s.scheduler.policy = .roundRobin := by rw [h.scheduler]
    rw [select_roundRobin hp hpol, Option.some.injEq, Prod.mk.injEq] at hsel
    obtain ⟨rfl, hsched⟩ := hsel
    have hi : s'.i = s.i + 1 := congrArg State.i hpush.eq
    have hissued := congrArg State.issued hpush.eq
    constructor
    · rw [← hsched, h.scheduler, hi]
    · rw [hissued, List.map_append, List.map_singleton, h.conns, hi, toNat_succ_of_lt hpush.lt, rounds_succ]
      rw [h.scheduler, UInt32.toNat_mod] at hconn
      rw [hconn]
  | stop =>
    obtain ⟨-, heq⟩ := Option.ite_none_right_eq_some.mp hs
    cases heq
    exact ⟨h.scheduler, h.conns⟩
  | worker j ev =>
    obtain ⟨w, -, rfl⟩ := worker_of_step hs
    exact ⟨h.scheduler, h.conns⟩

theorem counting_run {clock : UInt64} {stack stack' : Fin poolSize.toNat → Fin headerSize → UInt8}
    {sendBuf recvBuf : Fin poolSize.toNat → List UInt8} {evs : List (Event poolSize.toNat)} {s : State poolSize.toNat}
    (hrun : Transition.run (OpenLoop.step cfg gen)
      (OpenLoop.start clock .roundRobin poolSize stack stack' sendBuf recvBuf) evs = some s) : Counting poolSize s :=
  Transition.invariant (fun _ _ _ => counting_step) ⟨rfl, rfl⟩ hrun

end Run

/-- Round robin spreads any sequence of messages that the counter can number, and
the requests of every run of `run_open_loop`, evenly over the connections. -/
theorem roundRobin_even (poolSize : UInt32) (hp : 1 ≤ poolSize.toNat) :
    (∀ (draw : UInt32 → UInt32 → UInt32) (sizes : List UInt32), sizes.length < 2 ^ 32 →
      ∃ assigned, selectAll draw (fresh .roundRobin poolSize) sizes = some assigned ∧
        assigned.length = sizes.length ∧ Even poolSize.toNat (assigned.map (fun m => m.2.toNat))) ∧
    ∀ (cfg : WorkloadConfig) (gen : Nat → Turn) (clock : UInt64)
      (stack stack' : Fin poolSize.toNat → Fin headerSize → UInt8) (sendBuf recvBuf : Fin poolSize.toNat → List UInt8)
      (evs : List (Event poolSize.toNat)) (s : State poolSize.toNat),
      Transition.run (OpenLoop.step cfg gen)
        (OpenLoop.start clock .roundRobin poolSize stack stack' sendBuf recvBuf) evs = some s →
      Even poolSize.toNat (s.issued.map Issued.conn) := by
  constructor
  · intro draw sizes hlen
    obtain ⟨assigned, hall, hmap⟩ := selectAll_rounds draw hp hlen
    refine ⟨assigned, hall, ?_, ?_⟩
    · simpa [rounds] using congrArg List.length hmap
    · rw [hmap]
      exact even_rounds hp _
  · intro cfg gen clock stack stack' sendBuf recvBuf evs s hrun
    rw [(counting_run hrun).conns]
    exact even_rounds hp _

theorem roundRobin_even_three : ∃ assigned,
    selectAll (fun a _ => a) (fresh .roundRobin 3) [64, 8192, 64, 64, 4096] = some assigned ∧
      assigned.map (fun m => m.2.toNat) = [0, 1, 2, 0, 1] ∧ Even 3 (assigned.map (fun m => m.2.toNat)) := by
  obtain ⟨assigned, hall, -, heven⟩ :=
    (roundRobin_even 3 (by decide)).1 (fun a _ => a) [64, 8192, 64, 64, 4096] (by decide)
  have hsome : selectAll (fun a _ => a) (fresh .roundRobin 3) [64, 8192, 64, 64, 4096] =
      some [(64, 0), (8192, 1), (64, 2), (64, 0), (4096, 1)] := by decide
  obtain rfl := Option.some.inj (hall.symm.trans hsome)
  exact ⟨_, hall, by decide, heven⟩

end DcBench.RoundRobinSpread

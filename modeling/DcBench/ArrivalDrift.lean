import DcBench.OfferedWorkload

namespace DcBench.ArrivalDrift

open DcBench.Lib DcBench.Message DcBench.Workload DcBench.OfferedWorkload

/-- The sum of the first `n` draws, in microseconds. -/
def drawn (gen : Nat → Turn) (n : Nat) : ℚ := ((List.range n).map (fun k => (gen k).waitUs)).sum

/-- What the casts to whole microseconds have dropped of the first `n` draws. -/
def dropped (gen : Nat → Turn) (n : Nat) : ℚ := ((List.range n).map (fun k => Int.fract (gen k).waitUs)).sum

/-- The target `nextTime` of the `n`-th request is less than one microsecond away
from where the draws put it. -/
def OnTime (start : UInt64) (gen : Nat → Turn) (n : Nat) (nextTime : Int) : Prop :=
  |(nextTime : ℚ) / 1000 - ((start.toNat : ℚ) / 1000 + drawn gen n)| < 1

variable {gen : Nat → Turn}

theorem drawn_succ (gen : Nat → Turn) (n : Nat) : drawn gen (n + 1) = drawn gen n + (gen n).waitUs := by
  rw [drawn, List.range_succ, List.map_append, List.sum_append, List.map_singleton, List.sum_singleton, drawn]

theorem dropped_succ (gen : Nat → Turn) (n : Nat) : dropped gen (n + 1) = dropped gen n + Int.fract (gen n).waitUs := by
  rw [dropped, List.range_succ, List.map_append, List.sum_append, List.map_singleton, List.sum_singleton, dropped]

theorem dropped_nonneg (gen : Nat → Turn) (n : Nat) : 0 ≤ dropped gen n := by
  induction n with
  | zero => exact le_rfl
  | succ n ih =>
    rw [dropped_succ]
    exact add_nonneg ih (Int.fract_nonneg _)

/-- The schedule falls behind the draws by what the casts drop. -/
theorem offset_eq (hw : ∀ k, 0 ≤ (gen k).waitUs) (n : Nat) :
    (offset gen n : ℚ) / 1000 = drawn gen n - dropped gen n := by
  induction n with
  | zero => simp [offset, drawn, dropped]
  | succ n ih =>
    have hfloor : (truncate (gen n).waitUs : ℚ) = (gen n).waitUs - Int.fract (gen n).waitUs := by
      rw [truncate, if_pos (hw n), Int.self_sub_fract]
    rw [offset_succ, drawn_succ, dropped_succ, Int.cast_add, Int.cast_mul, hfloor, add_div, ih]
    push_cast
    ring

theorem onTime_iff (hw : ∀ k, 0 ≤ (gen k).waitUs) {start : UInt64} {n : Nat} {nextTime : Int}
    (h : nextTime - start.toNat = offset gen n) : OnTime start gen n nextTime ↔ dropped gen n < 1 := by
  have hcast : (nextTime : ℚ) = start.toNat + offset gen n := by
    rw [← h]
    push_cast
    ring
  have hbehind : (nextTime : ℚ) / 1000 - ((start.toNat : ℚ) / 1000 + drawn gen n) = -dropped gen n := by
    rw [hcast, add_div, offset_eq hw]
    ring
  rw [OnTime, hbehind, abs_neg, abs_of_nonneg (dropped_nonneg gen n)]

theorem time_of_offers {os : List Offer} {m n : Nat} {o : Offer} (h : os = offers gen m) (ho : os[n]? = some o) :
    o.time = offset gen (n + 1) := by
  rw [h, offers, List.getElem?_map] at ho
  obtain ⟨k, hk, rfl⟩ := Option.map_eq_some_iff.mp ho
  obtain ⟨hlt, rfl⟩ := List.getElem?_eq_some_iff.mp hk
  rw [List.getElem_range]
  rfl

/-- The target of a request is on time exactly when the fractions of a microsecond
that its draw and the earlier ones have lost stay below one. -/
theorem onTime_iff_dropped_lt_one (cfg : WorkloadConfig) (gen : Nat → Turn) (hw : ∀ k, 0 ≤ (gen k).waitUs)
    (start : UInt64) :
    (∀ (policy : PriorityScheduler.SchedulingPolicy) (poolSize : UInt32)
      (stack stack' : Fin poolSize.toNat → Fin headerSize → UInt8) (sendBuf recvBuf : Fin poolSize.toNat → List UInt8)
      (evs : List (OpenLoop.Event poolSize.toNat)) (s : OpenLoop.State poolSize.toNat),
      Transition.run (OpenLoop.step cfg gen) (OpenLoop.start start policy poolSize stack stack' sendBuf recvBuf) evs =
        some s →
      ∀ n x, s.issued[n]? = some x → (OnTime start gen (n + 1) x.arrival ↔ dropped gen (n + 1) < 1)) ∧
    ∀ (evs : List HomaOpenLoop.Event) (s : HomaOpenLoop.State × List Offer),
      Transition.run (homaStep cfg gen) (HomaOpenLoop.start start, []) evs = some s →
      ∀ n o, s.2[n]? = some o → (OnTime start gen (n + 1) o.time ↔ dropped gen (n + 1) < 1) := by
  constructor
  · intro policy poolSize stack stack' sendBuf recvBuf evs s hrun n x hx
    have hsched : Scheduled gen start s :=
      Transition.invariant (fun _ _ _ => scheduled_step) ⟨(add_zero _).symm, rfl⟩ hrun
    apply onTime_iff hw
    have hget : (tcpOffers start s)[n]? = some ⟨x.arrival - start.toNat, x.req.call⟩ := by
      rw [tcpOffers, List.getElem?_map, hx, Option.map_some]
    exact time_of_offers hsched.offers hget
  · intro evs s hrun n o ho
    have hstamped : Stamped cfg gen start s :=
      Transition.invariant (fun _ _ _ => stamped_step) (stamped_start cfg gen start) hrun
    apply onTime_iff hw
    have hget : (homaOffers start s.2)[n]? = some { o with time := o.time - start.toNat } := by
      rw [homaOffers, List.getElem?_map, ho, Option.map_some]
    exact time_of_offers hstamped.offers hget

/-- Whole microseconds lose nothing. -/
theorem onTime_whole_microseconds : ∃ s : OpenLoop.State 1,
    Transition.run (OpenLoop.step ⟨0, 2⟩ (fun _ => ⟨1, 0, fun a _ => a⟩))
      (OpenLoop.start 3 .roundRobin 1 (fun _ _ => 0) (fun _ _ => 0) (fun _ => []) (fun _ => []))
        [.tick 4000, .push, .push] = some s ∧
    ∃ x, s.issued[1]? = some x ∧ OnTime 3 (fun _ => ⟨1, 0, fun a _ => a⟩) 2 x.arrival := by
  have hrun : (Transition.run (OpenLoop.step ⟨0, 2⟩ (fun _ => ⟨1, 0, fun a _ => a⟩))
      (OpenLoop.start 3 .roundRobin 1 (fun _ _ => 0) (fun _ _ => 0) (fun _ => []) (fun _ => []))
        [.tick 4000, .push, .push]).map (fun s : OpenLoop.State 1 => s.issued.length) = some 2 := by decide +kernel
  obtain ⟨s, hs, hlen⟩ := Option.map_eq_some_iff.mp hrun
  have hx : s.issued[1]? = some (s.issued.get ⟨1, by omega⟩) := List.getElem?_eq_getElem (by omega)
  refine ⟨s, hs, _, hx, ?_⟩
  refine ((onTime_iff_dropped_lt_one ⟨0, 2⟩ (fun _ => ⟨1, 0, fun a _ => a⟩) (fun _ => zero_le_one) 3).1 .roundRobin 1
    _ _ _ _ _ s hs 1 _ hx).mpr ?_
  simp [dropped, List.range_succ]

/-- Two draws of half a microsecond: the target of the second request is a whole
microsecond early. -/
theorem half_microseconds_dropped : ∃ s : OpenLoop.State 1,
    Transition.run (OpenLoop.step ⟨0, 2⟩ (fun _ => ⟨1 / 2, 0, fun a _ => a⟩))
      (OpenLoop.start 3 .roundRobin 1 (fun _ _ => 0) (fun _ _ => 0) (fun _ => []) (fun _ => []))
        [.push, .push] = some s ∧
    ∃ x, s.issued[1]? = some x ∧ x.arrival = 3 ∧ ¬ OnTime 3 (fun _ => ⟨1 / 2, 0, fun a _ => a⟩) 2 x.arrival := by
  have hrun : (Transition.run (OpenLoop.step ⟨0, 2⟩ (fun _ => ⟨1 / 2, 0, fun a _ => a⟩))
      (OpenLoop.start 3 .roundRobin 1 (fun _ _ => 0) (fun _ _ => 0) (fun _ => []) (fun _ => []))
        [.push, .push]).map (fun s : OpenLoop.State 1 => s.issued[1]?.map OpenLoop.Issued.arrival) = some (some 3) := by
    decide +kernel
  obtain ⟨s, hs, harr⟩ := Option.map_eq_some_iff.mp hrun
  obtain ⟨x, hx, hthree⟩ := Option.map_eq_some_iff.mp harr
  refine ⟨s, hs, x, hx, hthree, ?_⟩
  have hstart : (3 : UInt64).toNat = 3 := rfl
  rw [OnTime, hthree, drawn, hstart]
  norm_num [List.range_succ]

end DcBench.ArrivalDrift

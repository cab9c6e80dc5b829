import DcBench.HomaClosedLoop
import DcBench.OpenLoopResult
import Mathlib.Algebra.Order.BigOperators.Group.Finset

namespace DcBench.ClosedLoopSplit

open DcBench.Lib DcBench.Message DcBench.Workload DcBench.Accounts
open DcBench.ClosedLoopBooks (call callOf id_of_callOf)

variable {cfg : WorkloadConfig} {poolSize : UInt32}

theorem toNat_warmup (cfg : WorkloadConfig) (poolSize : UInt32) :
    (cfg.warmup poolSize).toNat = cfg.warmupRequests.toNat / poolSize.toNat := UInt32.toNat_div _ _

theorem toNat_count {j : Nat} (hj : j < poolSize.toNat) :
    (cfg.count poolSize (UInt32.ofNat j)).toNat =
      cfg.numRequests.toNat / poolSize.toNat + if j < cfg.numRequests.toNat % poolSize.toNat then 1 else 0 := by
  have hmax := poolSize.toNat_lt
  have hn := cfg.numRequests.toNat_lt
  have hj' : (UInt32.ofNat j).toNat = j := UInt32.toNat_ofNat_of_lt' (hj.trans hmax)
  have hlt : UInt32.ofNat j < cfg.numRequests % poolSize ↔ j < cfg.numRequests.toNat % poolSize.toNat := by
    rw [UInt32.lt_iff_toNat_lt, hj', UInt32.toNat_mod]
  rw [WorkloadConfig.count, UInt32.toNat_add, UInt32.toNat_div]
  simp only [hlt]
  split
  · rename_i hrem
    -- a remainder leaves room for one more
    have hpos : 0 < poolSize.toNat := by omega
    have hdiv := Nat.div_add_mod cfg.numRequests.toNat poolSize.toNat
    have hle : cfg.numRequests.toNat / poolSize.toNat ≤ poolSize.toNat * (cfg.numRequests.toNat / poolSize.toNat) :=
      Nat.le_mul_of_pos_left _ hpos
    rw [UInt32.toNat_one, Nat.mod_eq_of_lt (by omega)]
  · rw [UInt32.toNat_zero, Nat.add_zero, Nat.mod_eq_of_lt]
    exact lt_of_le_of_lt (Nat.div_le_self _ _) hn

theorem sum_count (cfg : WorkloadConfig) (hp : 0 < poolSize.toNat) :
    ∑ j : Fin poolSize.toNat, (cfg.count poolSize (UInt32.ofNat j)).toNat = cfg.numRequests.toNat := by
  rw [← Partition.sum_shares cfg.numRequests.toNat hp]
  exact Finset.sum_congr rfl (fun j _ => toNat_count j.isLt)

theorem count_le_succ (i j : Fin poolSize.toNat) :
    (cfg.count poolSize (UInt32.ofNat i)).toNat ≤ (cfg.count poolSize (UInt32.ofNat j)).toNat + 1 := by
  rw [toNat_count i.isLt, toNat_count j.isLt]
  split <;> split <;> omega

theorem toNat_limit (hlt : cfg.warmupRequests.toNat / poolSize.toNat + cfg.numRequests.toNat < 2 ^ 32)
    (j : Fin poolSize.toNat) :
    (cfg.warmup poolSize + cfg.count poolSize (UInt32.ofNat j)).toNat =
      (cfg.warmup poolSize).toNat + (cfg.count poolSize (UInt32.ofNat j)).toNat := by
  have hsum := sum_count cfg (Nat.zero_lt_of_lt j.isLt)
  have hle := Finset.single_le_sum (f := fun j : Fin poolSize.toNat => (cfg.count poolSize (UInt32.ofNat j)).toNat)
    (fun _ _ => Nat.zero_le _) (Finset.mem_univ j)
  rw [hsum] at hle
  rw [UInt32.toNat_add, toNat_warmup]
  exact Nat.mod_eq_of_lt (by omega)

theorem filterMap_eq_map_drop {α β : Type} {xs : List α} {f : α → Option β} {g : α → β} {w : Nat}
    (h : ∀ k x, xs[k]? = some x → f x = if w ≤ k then some (g x) else none) :
    xs.filterMap f = (xs.drop w).map g := by
  have htake : (xs.take w).filterMap f = [] := by
    apply List.filterMap_eq_nil_iff.mpr
    intro x hx
    obtain ⟨k, hk, rfl⟩ := List.mem_take_iff_getElem.mp hx
    rw [h k _ (List.getElem?_eq_getElem (by omega)), if_neg (by omega)]
  have hdrop : (xs.drop w).filterMap f = (xs.drop w).map g := by
    rw [← List.filterMap_eq_map]
    apply List.filterMap_congr
    intro x hx
    obtain ⟨k, hk, rfl⟩ := List.mem_drop_iff_getElem.mp hx
    rw [h (w + k) _ (List.getElem?_eq_getElem (by omega)), if_pos (by omega)]
    rfl
  nth_rewrite 1 [← List.take_append_drop w xs]
  rw [List.filterMap_append, htake, hdrop, List.nil_append]

variable {α : Type} {req : α → MessageHeader} {xs : List α} {sizes : Nat → UInt32} {n k : Nat} {x : α}

theorem call_at (h : xs.map (fun x => callOf (req x)) = (List.range n).map (call sizes)) (hk : xs[k]? = some x) :
    k < n ∧ callOf (req x) = call sizes k := by
  have hget := congrArg (fun ys => ys[k]?) h
  simp only [List.getElem?_map, hk, Option.map_some] at hget
  by_cases hn : k < n
  · rw [List.getElem?_range hn, Option.map_some, Option.some.injEq] at hget
    exact ⟨hn, hget⟩
  · rw [List.getElem?_eq_none (by simpa using hn)] at hget
    cases hget

theorem le_id_iff (h : xs.map (fun x => callOf (req x)) = (List.range n).map (call sizes)) (hn : n ≤ 2 ^ 32)
    (hk : xs[k]? = some x) (warmup : UInt32) : warmup.toUInt64 ≤ (req x).id ↔ warmup.toNat ≤ k := by
  obtain ⟨hlt, hcall⟩ := call_at h hk
  have hid : (req x).id = UInt64.ofNat k := congrArg DoRequest.Call.id hcall
  rw [hid, UInt64.le_iff_toNat_le, UInt32.toNat_toUInt64, UInt64.toNat_ofNat_of_lt' (by rw [UInt64.size]; omega)]

theorem length_of_calls (h : xs.map (fun x => callOf (req x)) = (List.range n).map (call sizes)) : xs.length = n := by
  simpa using congrArg List.length h

/-- A worker whose requests have all succeeded: the requests it has issued, and its
samples, which are the round trips `rtt` from the measured requests on. -/
structure Measured (req : α → MessageHeader) (rtt : α → UInt64) (sizes : Nat → UInt32) (warmup count : Nat)
    (xs : List α) (samples : List UInt64) : Prop where
  issued : xs.map (fun x => callOf (req x)) = (List.range (warmup + count)).map (call sizes)
  samples : samples = (xs.drop warmup).map rtt

theorem Measured.length {rtt : α → UInt64} {warmup count : Nat} {samples : List UInt64}
    (h : Measured req rtt sizes warmup count xs samples) : samples.length = count := by
  rw [h.samples, List.length_map, List.length_drop, length_of_calls h.issued, Nat.add_sub_cancel_left]

variable {gens : Fin poolSize.toNat → Nat → UInt32}

/-- Every request of every worker has been answered, and the clock has moved. -/
def TcpSucceeds (cfg : WorkloadConfig) (s : ClosedLoop.State poolSize.toNat) : Prop :=
  ∀ j : Fin poolSize.toNat, ∀ k < (cfg.warmup poolSize).toNat + (cfg.count poolSize (UInt32.ofNat j)).toNat,
    ∃ x, (s.workers j).client.exchanges[k]? = some x ∧ x.answer.isSome ∧ x.rtt ≠ 0

theorem tcp_measured {s : ClosedLoop.State poolSize.toNat}
    (hlt : cfg.warmupRequests.toNat / poolSize.toNat + cfg.numRequests.toNat < 2 ^ 32)
    (h : ClosedLoopBooks.Inv cfg poolSize gens s) (hfin : ClosedLoopBooks.Finished s) (hok : TcpSucceeds cfg s)
    (j : Fin poolSize.toNat) :
    Measured DoRequest.Exchange.request DoRequest.Exchange.rtt (gens j) (cfg.warmup poolSize).toNat
      (cfg.count poolSize (UInt32.ofNat j)).toNat (s.workers j).client.exchanges (s.workers j).samples := by
  have hcalls := ClosedLoopBooks.calls_of_exited (h.workers j) (hfin j)
  have hmax := (cfg.warmup poolSize + cfg.count poolSize (UInt32.ofNat j)).toNat_lt
  refine ⟨by rw [← toNat_limit hlt]; exact hcalls, ?_⟩
  rw [(h.workers j).samples, ClosedLoopBooks.accounted_of_exited (hfin j)]
  apply filterMap_eq_map_drop
  intro k x hk
  have hk' := (call_at hcalls hk).1
  rw [toNat_limit hlt] at hk'
  obtain ⟨y, hy, -, hpos⟩ := hok j k hk'
  obtain rfl : x = y := Option.some.inj (hk.symm.trans hy)
  simp only [ClosedLoopBooks.entry, le_id_iff hcalls hmax.le hk, UInt64.pos_iff_ne_zero, ne_eq, hpos, not_false_eq_true,
    true_and]

def roundTrip (x : HomaClosedLoop.Exchange) : UInt64 :=
  match x.outcome with
  | .success rtt => rtt
  | .sendFails | .recvFails => 0

def HomaSucceeds (cfg : WorkloadConfig) (s : HomaClosedLoop.State poolSize.toNat) : Prop :=
  ∀ j : Fin poolSize.toNat, ∀ k < (cfg.warmup poolSize).toNat + (cfg.count poolSize (UInt32.ofNat j)).toNat,
    ∃ x rtt, (s.workers j).exchanges[k]? = some x ∧ x.outcome = .success rtt ∧ rtt ≠ 0

theorem homa_measured {s : HomaClosedLoop.State poolSize.toNat}
    (hlt : cfg.warmupRequests.toNat / poolSize.toNat + cfg.numRequests.toNat < 2 ^ 32)
    (h : HomaClosedLoop.Inv cfg poolSize gens s) (hok : HomaSucceeds cfg s) (j : Fin poolSize.toNat) :
    Measured HomaClosedLoop.Exchange.request roundTrip (gens j) (cfg.warmup poolSize).toNat
      (cfg.count poolSize (UInt32.ofNat j)).toNat (s.workers j).exchanges (s.workers j).samples := by
  have hcalls := (h.workers j).calls
  have hlim := toNat_limit hlt j
  have hturn := UInt32.le_iff_toNat_le.mp (h.workers j).turn
  have hlen := length_of_calls hcalls
  have hmax := (s.workers j).i.toNat_lt
  -- the last request is in the history, so the worker has not returned early
  have hall : (s.workers j).i.toNat = (cfg.warmup poolSize).toNat + (cfg.count poolSize (UInt32.ofNat j)).toNat := by
    by_contra hne
    obtain ⟨x, rtt, hx, -⟩ := hok j (s.workers j).i.toNat (by omega)
    rw [← hlen, List.getElem?_length] at hx
    cases hx
  refine ⟨by rw [← hall]; exact hcalls, ?_⟩
  rw [(h.workers j).samples]
  apply filterMap_eq_map_drop
  intro k x hk
  have hk' := (call_at hcalls hk).1
  obtain ⟨y, rtt, hy, hout, -⟩ := hok j k (by omega)
  obtain rfl : x = y := Option.some.inj (hk.symm.trans hy)
  simp only [HomaClosedLoop.entry, roundTrip, hout, le_id_iff hcalls hmax.le hk]

theorem card_samples {P : Nat} {samples : Fin P → List UInt64} {counts : Fin P → Nat}
    (h : ∀ j, (samples j).length = counts j) : Multiset.card (∑ j, (samples j : Multiset UInt64)) = ∑ j, counts j := by
  rw [Multiset.card_sum]
  exact Finset.sum_congr rfl (fun j _ => h j)

/-- The measured requests are split exactly over the workers of both closed loops,
and when all requests succeed each worker's samples are those of its measured
requests in issue order, and the total is `num_requests`. -/
theorem closed_loops_split_exactly (cfg : WorkloadConfig) (poolSize : UInt32) (hp : 1 ≤ poolSize.toNat)
    (hlt : cfg.warmupRequests.toNat / poolSize.toNat + cfg.numRequests.toNat < 2 ^ 32)
    (gens : Fin poolSize.toNat → Nat → UInt32) :
    (∑ j : Fin poolSize.toNat, (cfg.count poolSize (UInt32.ofNat j)).toNat = cfg.numRequests.toNat ∧
      ∀ i j : Fin poolSize.toNat,
        (cfg.count poolSize (UInt32.ofNat i)).toNat ≤ (cfg.count poolSize (UInt32.ofNat j)).toNat + 1) ∧
    (∀ clock stack stack' sendBuf recvBuf es s,
      Transition.run (ClosedLoop.step cfg poolSize gens) (ClosedLoop.start clock poolSize stack stack' sendBuf recvBuf) es =
        some s → ClosedLoopBooks.Finished s → TcpSucceeds cfg s →
      (ClosedLoopBooks.result s).totalRequests = cfg.numRequests.toNat ∧
      ∀ j, Measured DoRequest.Exchange.request DoRequest.Exchange.rtt (gens j) (cfg.warmup poolSize).toNat
        (cfg.count poolSize (UInt32.ofNat j)).toNat (s.workers j).client.exchanges (s.workers j).samples) ∧
    ∀ clock es s,
      Transition.run (HomaClosedLoop.step cfg poolSize gens) (HomaClosedLoop.start clock poolSize) es = some s →
      HomaClosedLoop.Finished s → HomaSucceeds cfg s →
      (HomaClosedLoop.result s).totalRequests = cfg.numRequests.toNat ∧
      ∀ j, Measured HomaClosedLoop.Exchange.request roundTrip (gens j) (cfg.warmup poolSize).toNat
        (cfg.count poolSize (UInt32.ofNat j)).toNat (s.workers j).exchanges (s.workers j).samples := by
  have hsum := sum_count cfg hp
  refine ⟨⟨hsum, count_le_succ⟩, ?_, ?_⟩
  · intro clock stack stack' sendBuf recvBuf es s hrun hfin hok
    have hm := tcp_measured hlt (ClosedLoopBooks.inv_run hrun) hfin hok
    refine ⟨?_, hm⟩
    rw [← hsum]
    exact card_samples (fun j => (hm j).length)
  · intro clock es s hrun _ hok
    have hm := homa_measured hlt (HomaClosedLoop.inv_run hrun) hok
    refine ⟨?_, hm⟩
    rw [← hsum]
    exact card_samples (fun j => (hm j).length)

def twoAnswered : List (ClosedLoop.Event 1) :=
  [.worker 0 .next, .worker 0 (.send (.sent 22)),
    .worker 0 (.recv (.data (serializeHeader ⟨0, 0, 7, response, 3⟩))), .tick 7, .worker 0 .now, .worker 0 .account,
    .worker 0 .next, .worker 0 (.send (.sent 22)),
    .worker 0 (.recv (.data (serializeHeader ⟨1, 0, 7, response, 7⟩))), .tick 9, .worker 0 .now, .worker 0 .account,
    .worker 0 .next]

theorem split_two_answered : ∃ s : ClosedLoop.State 1,
    Transition.run (ClosedLoop.step ⟨1, 1⟩ 1 (fun _ _ => 0))
      (ClosedLoop.start 3 1 (fun _ _ => 0) (fun _ _ => 0) (fun _ => []) (fun _ => [])) twoAnswered = some s ∧
    (@ClosedLoopBooks.result 1 s).totalRequests = 1 ∧ (s.workers 0).samples = [2] := by
  have hrun : (Transition.run (ClosedLoop.step ⟨1, 1⟩ 1 (fun _ _ => 0))
      (ClosedLoop.start 3 1 (fun _ _ => 0) (fun _ _ => 0) (fun _ => []) (fun _ => [])) twoAnswered).map
        (fun s : ClosedLoop.State 1 => (decide (@ClosedLoopBooks.Finished 1 s), (s.workers 0).client.exchanges)) =
      some (true, [⟨⟨0, 0, 7, request, 3⟩, [], some (⟨0, 0, 7, response, 3⟩, []), 4⟩,
        ⟨⟨1, 0, 7, request, 7⟩, [], some (⟨1, 0, 7, response, 7⟩, []), 2⟩]) := by decide +kernel
  obtain ⟨s, hs, heq⟩ := Option.map_eq_some_iff.mp hrun
  simp only [Prod.mk.injEq, decide_eq_true_eq] at heq
  obtain ⟨hfin, hxs⟩ := heq
  have hok : @TcpSucceeds 1 ⟨1, 1⟩ s := by
    intro (j : Fin 1) k hk
    have hk' : k < 2 := hk
    rw [Subsingleton.elim j 0, hxs]
    obtain rfl | rfl : k = 0 ∨ k = 1 := by omega
    · exact ⟨_, rfl, rfl, by decide⟩
    · exact ⟨_, rfl, rfl, by decide⟩
  obtain ⟨htotal, hm⟩ := (closed_loops_split_exactly ⟨1, 1⟩ 1 (by decide) (by decide) (fun _ _ => 0)).2.1 3 _ _ _ _ _ s hs
    hfin hok
  have hsamples := (hm (0 : Fin 1)).samples
  refine ⟨s, hs, htotal, hsamples.trans ?_⟩
  rw [hxs]
  decide

/-- The warm-up requests that the workers of a closed loop have issued. -/
def closedWarmup (cfg : WorkloadConfig) (s : ClosedLoop.State poolSize.toNat) : Nat :=
  ∑ j, (s.workers j).client.calls.countP (fun hdr => hdr.id < (cfg.warmup poolSize).toUInt64)

/-- The requests that an open loop has issued with the warm-up flag. -/
def openWarmup {P : Nat} (s : OpenLoop.State P) : Nat := s.issued.countP (fun x => x.req.warmup)

theorem countP_range_lt (w n : Nat) : (List.range n).countP (· < w) = min w n := by
  induction n with
  | zero => simp
  | succ n ih =>
    rw [List.range_succ, List.countP_append, ih, List.countP_singleton]
    split
    · rename_i h
      rw [decide_eq_true_iff] at h
      omega
    · rename_i h
      rw [decide_eq_true_iff] at h
      omega

theorem countP_warmup {hdrs : List MessageHeader} (h : hdrs.map callOf = (List.range n).map (call sizes))
    (hn : n ≤ 2 ^ 32) (warmup : UInt32) : hdrs.countP (fun hdr => hdr.id < warmup.toUInt64) = min warmup.toNat n := by
  have hcount := congrArg (List.countP (fun args : DoRequest.Call => decide (args.id < warmup.toUInt64))) h
  rw [List.countP_map, List.countP_map] at hcount
  rw [← countP_range_lt]
  refine Eq.trans hcount (List.countP_congr ?_)
  intro k hk
  rw [List.mem_range] at hk
  have hk' : (UInt64.ofNat k).toNat = k := UInt64.toNat_ofNat_of_lt' (by rw [UInt64.size]; omega)
  simp [call, UInt64.lt_iff_toNat_lt, hk']

theorem closedWarmup_eq {s : ClosedLoop.State poolSize.toNat}
    (hlt : cfg.warmupRequests.toNat / poolSize.toNat + cfg.numRequests.toNat < 2 ^ 32)
    (h : ClosedLoopBooks.Inv cfg poolSize gens s) (hfin : ClosedLoopBooks.Finished s) :
    closedWarmup cfg s = poolSize.toNat * (cfg.warmupRequests.toNat / poolSize.toNat) := by
  have hworker (j : Fin poolSize.toNat) :
      (s.workers j).client.calls.countP (fun hdr => hdr.id < (cfg.warmup poolSize).toUInt64) =
        cfg.warmupRequests.toNat / poolSize.toNat := by
    have hcalls := (h.workers j).calls
    have hph := (h.workers j).phase
    have hmax := (cfg.warmup poolSize + cfg.count poolSize (UInt32.ofNat j)).toNat_lt
    simp only [ClosedLoopBooks.PhaseOk, hfin j] at hph
    simp only [ClosedLoopBooks.issued, hfin j, hph.2] at hcalls
    rw [countP_warmup hcalls hmax.le, toNat_limit hlt, toNat_warmup]
    omega
  rw [closedWarmup, Finset.sum_congr rfl (fun j _ => hworker j), Finset.sum_const, Finset.card_univ, Fintype.card_fin,
    smul_eq_mul]

theorem openWarmup_eq {P : Nat} {gen : Nat → Turn} {s : OpenLoop.State P}
    (hlt : cfg.warmupRequests.toNat + cfg.numRequests.toNat < 2 ^ 32) (h : OpenLoopDelivery.Inv cfg gen s)
    (hfin : OpenLoop.Finished s) : openWarmup s = cfg.warmupRequests.toNat := by
  have htotal : cfg.total.toNat = cfg.warmupRequests.toNat + cfg.numRequests.toNat := by
    rw [WorkloadConfig.total, UInt32.toNat_add]
    exact Nat.mod_eq_of_lt hlt
  have hcount := congrArg (List.countP OpenLoop.PendingRequest.warmup) h.issued
  rw [List.countP_map, h.stopped hfin.1, OpenLoopDelivery.requests, List.countP_map] at hcount
  have hmin := countP_range_lt cfg.warmupRequests.toNat cfg.total.toNat
  rw [htotal, Nat.min_eq_left (Nat.le_add_right _ _)] at hmin
  rw [← hmin, ← htotal]
  refine Eq.trans hcount (List.countP_congr ?_)
  intro k hk
  rw [List.mem_range] at hk
  have hk' : (UInt32.ofNat k).toNat = k := UInt32.toNat_ofNat_of_lt' (hk.trans cfg.total.toNat_lt)
  simp only [Function.comp_apply, OpenLoop.pending, UInt32.lt_iff_toNat_lt, hk', decide_eq_true_eq]

/-- A closed loop runs the configured warm-up, as the open loop does, exactly when
the pool size divides it: the remainder is dropped. -/
theorem warmup_agrees_iff_dvd (cfg : WorkloadConfig) (poolSize : UInt32)
    (hlt : cfg.warmupRequests.toNat + cfg.numRequests.toNat < 2 ^ 32) (gens : Fin poolSize.toNat → Nat → UInt32)
    (gen : Nat → Turn) (policy : PriorityScheduler.SchedulingPolicy) {clock clock' : UInt64}
    {stack stack' stack₁ stack₁' : Fin poolSize.toNat → Fin headerSize → UInt8}
    {sendBuf recvBuf sendBuf₁ recvBuf₁ : Fin poolSize.toNat → List UInt8} {es : List (ClosedLoop.Event poolSize.toNat)}
    {es' : List (OpenLoop.Event poolSize.toNat)} {s : ClosedLoop.State poolSize.toNat} {t : OpenLoop.State poolSize.toNat}
    (hs : Transition.run (ClosedLoop.step cfg poolSize gens)
      (ClosedLoop.start clock poolSize stack stack' sendBuf recvBuf) es = some s)
    (ht : Transition.run (OpenLoop.step cfg gen)
      (OpenLoop.start clock' policy poolSize stack₁ stack₁' sendBuf₁ recvBuf₁) es' = some t)
    (hfin : ClosedLoopBooks.Finished s) (hfin' : OpenLoop.Finished t) :
    (closedWarmup cfg s = cfg.warmupRequests.toNat ∧ closedWarmup cfg s = openWarmup t) ↔
      poolSize.toNat ∣ cfg.warmupRequests.toNat := by
  have hle := Nat.div_le_self cfg.warmupRequests.toNat poolSize.toNat
  have hclosed := closedWarmup_eq (by omega) (ClosedLoopBooks.inv_run hs) hfin
  have hopen := openWarmup_eq hlt
    (OpenLoopDelivery.inv_run (OpenLoopDelivery.inv_start cfg gen clock' policy poolSize stack₁ stack₁' sendBuf₁ recvBuf₁) ht)
    hfin'
  rw [hopen, and_self, hclosed, Nat.dvd_iff_div_mul_eq, Nat.mul_comm]

def closedDivisible : List (ClosedLoop.Event 2) :=
  [.worker 0 .next, .worker 1 .next, .worker 0 (.send (.sent 22)), .worker 1 (.send .error), .worker 1 .account,
    .worker 0 (.recv (.data (List.replicate 22 0))), .tick 9, .worker 0 .now, .worker 0 .account, .worker 0 .next,
    .worker 1 .next, .worker 0 (.send .error), .worker 0 .account, .worker 0 .next]

def openDivisible : List (OpenLoop.Event 2) :=
  let serve (j : Fin 2) : List (OpenLoop.Event 2) :=
    [.worker j .test, .worker j .pop, .worker j .call, .worker j (.send .error), .worker j .account]
  let leave (j : Fin 2) : List (OpenLoop.Event 2) := [.worker j .test, .worker j .test]
  [.push] ++ serve 0 ++ [.push, .push] ++ serve 1 ++ serve 0 ++ [.stop] ++ leave 0 ++ leave 1

theorem warmup_agrees_divisible : ∃ (s : ClosedLoop.State 2) (t : OpenLoop.State 2),
    Transition.run (ClosedLoop.step ⟨2, 1⟩ 2 (fun _ _ => 0))
      (ClosedLoop.start 3 2 (fun _ _ => 0) (fun _ _ => 0) (fun _ => []) (fun _ => [])) closedDivisible = some s ∧
    Transition.run (OpenLoop.step ⟨2, 1⟩ (fun _ => ⟨0, 0, fun a _ => a⟩))
      (OpenLoop.start 3 .roundRobin 2 (fun _ _ => 0) (fun _ _ => 0) (fun _ => []) (fun _ => [])) openDivisible = some t ∧
    @closedWarmup 2 ⟨2, 1⟩ s = 2 ∧ openWarmup t = 2 := by
  have hs : (Transition.run (ClosedLoop.step ⟨2, 1⟩ 2 (fun _ _ => 0))
      (ClosedLoop.start 3 2 (fun _ _ => 0) (fun _ _ => 0) (fun _ => []) (fun _ => [])) closedDivisible).map
        (fun s : ClosedLoop.State 2 => decide (@ClosedLoopBooks.Finished 2 s)) = some true := by decide +kernel
  have ht : (Transition.run (OpenLoop.step ⟨2, 1⟩ (fun _ => ⟨0, 0, fun a _ => a⟩))
      (OpenLoop.start 3 .roundRobin 2 (fun _ _ => 0) (fun _ _ => 0) (fun _ => []) (fun _ => [])) openDivisible).map
        (fun t => decide (OpenLoop.Finished t)) = some true := by decide +kernel
  obtain ⟨s, hs, hfin⟩ := Option.map_eq_some_iff.mp hs
  obtain ⟨t, ht, hfin'⟩ := Option.map_eq_some_iff.mp ht
  obtain ⟨hclosed, hsame⟩ := (warmup_agrees_iff_dvd ⟨2, 1⟩ 2 (by decide) (fun _ _ => 0) (fun _ => ⟨0, 0, fun a _ => a⟩)
    .roundRobin hs ht (of_decide_eq_true hfin) (of_decide_eq_true hfin')).mpr (by decide)
  exact ⟨s, t, hs, ht, hclosed, hsame.symm.trans hclosed⟩

def closedTwo : List (ClosedLoop.Event 2) :=
  [.worker 0 .next, .worker 0 (.send .error), .worker 0 .account, .worker 0 .next,
    .worker 1 .next, .worker 1 (.send .error), .worker 1 .account, .worker 1 .next]

/-- Neither worker issues the warm-up request. -/
theorem warmup_dropped : ∃ s : ClosedLoop.State 2,
    Transition.run (ClosedLoop.step ⟨1, 2⟩ 2 (fun _ _ => 0))
      (ClosedLoop.start 3 2 (fun _ _ => 0) (fun _ _ => 0) (fun _ => []) (fun _ => [])) closedTwo = some s ∧
    @ClosedLoopBooks.Finished 2 s ∧ @closedWarmup 2 ⟨1, 2⟩ s = 0 := by
  have hs : (Transition.run (ClosedLoop.step ⟨1, 2⟩ 2 (fun _ _ => 0))
      (ClosedLoop.start 3 2 (fun _ _ => 0) (fun _ _ => 0) (fun _ => []) (fun _ => [])) closedTwo).map
        (fun s : ClosedLoop.State 2 => (decide (@ClosedLoopBooks.Finished 2 s), @closedWarmup 2 ⟨1, 2⟩ s)) =
      some (true, 0) := by decide +kernel
  obtain ⟨s, hs, heq⟩ := Option.map_eq_some_iff.mp hs
  simp only [Prod.mk.injEq, decide_eq_true_eq] at heq
  exact ⟨s, hs, heq⟩

end DcBench.ClosedLoopSplit

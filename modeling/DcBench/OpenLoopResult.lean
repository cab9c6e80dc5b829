import DcBench.OpenLoopDelivery

namespace DcBench.OpenLoopResult

open DcBench.Lib DcBench.Message DcBench.Workload DcBench.OpenLoop DcBench.OpenLoopDelivery
open DcBench.DoRequest (Exchange)

variable {P : Nat} {cfg : WorkloadConfig} {gen : Nat → Turn} {s : State P}

theorem map_eq_of_serves {α : Type} {f : PendingRequest → α} {g : Exchange → α}
    (hfg : ∀ req x, Serves req x → g x = f req) {reqs : List PendingRequest} {xs : List Exchange}
    (h : List.Forall₂ Serves reqs xs) : xs.map g = reqs.map f := by
  induction h with
  | nil => rfl
  | cons hx _ ih => rw [List.map_cons, List.map_cons, hfg _ _ hx, ih]

theorem serves_id (req : PendingRequest) (x : Exchange) (h : Serves req x) : x.request.id = req.id := by
  obtain ⟨now, hx⟩ := h
  rw [hx]
  rfl

theorem serves_frameBytes (req : PendingRequest) (x : Exchange) (h : Serves req x) :
    frameBytes x = headerSize + req.size.toNat := by
  obtain ⟨now, hx⟩ := h
  rw [frameBytes, hx]
  rfl

theorem served_of_exited (h : Inv cfg gen s) {j : Fin P} (hj : (s.workers j).phase = .exited) :
    List.Forall₂ Serves (givenTo s j) (s.workers j).client.exchanges ∧
      accounted (s.workers j) = (s.workers j).client.exchanges := by
  obtain ⟨served, hgiven, hall⟩ := (h.workers j).served
  have hph := (h.workers j).phase
  simp only [PhaseOk, hj] at hph
  constructor
  · simp only [held, hj, hph.2.2, List.append_nil] at hgiven
    rw [hgiven]
    exact hall
  · simp only [accounted, hj]

theorem toNat_id (cfg : WorkloadConfig) (gen : Nat → Turn) {k : Nat} (hk : k < 2 ^ 32) :
    (pending cfg (UInt32.ofNat k) (gen k).size).id.toNat = k := by
  rw [pending, UInt32.toNat_toUInt64, UInt32.toNat_ofNat_of_lt' hk]

theorem map_id_requests (cfg : WorkloadConfig) (gen : Nat → Turn) {n : Nat} (hn : n ≤ 2 ^ 32) :
    (requests cfg gen n).map (fun req => req.id.toNat) = List.range n := by
  rw [requests, List.map_map]
  refine (List.map_congr_left ?_).trans (List.map_id _)
  intro k hk
  rw [List.mem_range] at hk
  exact toNat_id cfg gen (by omega)

theorem ids_pairwise (cfg : WorkloadConfig) (gen : Nat → Turn) {n : Nat} (hn : n ≤ 2 ^ 32) :
    ((requests cfg gen n).map PendingRequest.id).Pairwise (· < ·) := by
  rw [requests, List.map_map, List.pairwise_map]
  refine List.Pairwise.imp_of_mem ?_ List.pairwise_lt_range
  intro a b ha hb hab
  rw [List.mem_range] at ha hb
  apply UInt64.lt_iff_toNat_lt.mpr
  rw [Function.comp_apply, Function.comp_apply, toNat_id cfg gen (by omega), toNat_id cfg gen (by omega)]
  exact hab

theorem length_samples (xs : List Exchange) : (xs.filterMap (sample cfg)).length =
    xs.countP (fun x => cfg.warmupRequests.toUInt64 ≤ x.request.id ∧ x.rtt ≠ 0) := by
  rw [List.length_filterMap_eq_countP]
  apply List.countP_congr
  intro x _
  have hpos : 0 < x.rtt ↔ x.rtt ≠ 0 := UInt64.pos_iff_ne_zero
  have hiff : (0 < x.rtt ∧ cfg.warmupRequests.toUInt64 ≤ x.request.id) ↔
      (cfg.warmupRequests.toUInt64 ≤ x.request.id ∧ x.rtt ≠ 0) := by rw [hpos, and_comm]
  rw [decide_eq_true_iff, ← hiff, sample]
  split
  · exact iff_of_true rfl ‹_›
  · exact iff_of_false Bool.false_ne_true ‹_›

/-- All requests have been served: connection `j` has seen exactly the requests
that the scheduler gave to it, in the order of their ids, every id has been used
once in all, and the totals of the result describe them. -/
structure Complete (cfg : WorkloadConfig) (gen : Nat → Turn) (n : Nat) (s : State P) : Prop where
  issued : s.issued.map Issued.req = requests cfg gen n
  served : ∀ j, List.Forall₂ Serves (givenTo s j) (s.workers j).client.exchanges
  ordered : ∀ j, ((s.workers j).client.exchanges.map (fun x => x.request.id)).Pairwise (· < ·)
  once : ∑ j, (((s.workers j).client.exchanges.map (fun x => x.request.id.toNat) : List Nat) : Multiset Nat) =
    Multiset.range n
  totalBytes : s.totalBytes = UInt64.ofNat ((List.range n).map (fun k => 22 + (gen k).size.toNat)).sum
  totalRequests : s.totalRequests = ∑ j, (s.workers j).client.exchanges.countP
    (fun x => cfg.warmupRequests.toUInt64 ≤ x.request.id ∧ x.rtt ≠ 0)

theorem complete_of_inv (h : Inv cfg gen s) (hfin : Finished s) : Complete cfg gen cfg.total.toNat s := by
  obtain ⟨hstop, hexit⟩ := hfin
  have hissued := h.issued
  rw [h.stopped hstop] at hissued
  have hserved (j : Fin P) := served_of_exited h (hexit j)
  have hmax := cfg.total.toNat_lt
  exact {
    issued := hissued
    served := fun j => (hserved j).1
    ordered := by
      intro j
      rw [map_eq_of_serves serves_id (hserved j).1]
      have hsub : (givenTo s j).Sublist (requests cfg gen cfg.total.toNat) := by
        rw [← hissued]
        exact List.filter_sublist.map _
      exact (ids_pairwise cfg gen hmax.le).sublist (hsub.map _)
    once := by
      have hids (j : Fin P) : (s.workers j).client.exchanges.map (fun x => x.request.id.toNat) =
          (s.issued.filter (fun x => x.conn = (j : Nat))).map (fun x => x.req.id.toNat) := by
        rw [map_eq_of_serves (fun req x hx => congrArg UInt64.toNat (serves_id req x hx)) (hserved j).1,
          givenTo, List.map_map]
        rfl
      simp only [hids]
      rw [Partition.sum_map_filter Issued.conn _ _ h.conns, ← Multiset.coe_range]
      congr 1
      have hmap := congrArg (List.map (fun req : PendingRequest => req.id.toNat)) hissued
      rw [List.map_map] at hmap
      exact hmap.trans (map_id_requests cfg gen hmax.le)
    totalBytes := by
      have hbytes (j : Fin P) : ((accounted (s.workers j)).map frameBytes).sum =
          ((s.issued.filter (fun x => x.conn = (j : Nat))).map (fun x => headerSize + x.req.size.toNat)).sum := by
        rw [(hserved j).2, map_eq_of_serves serves_frameBytes (hserved j).1, givenTo, List.map_map]
        rfl
      have hmap := congrArg (List.map (fun req : PendingRequest => headerSize + req.size.toNat)) hissued
      rw [List.map_map, requests, List.map_map] at hmap
      rw [h.totalBytes]
      simp only [hbytes]
      rw [Partition.sum_sum_filter Issued.conn _ _ h.conns]
      exact congrArg (fun l => UInt64.ofNat (List.sum l)) hmap
    totalRequests := by
      rw [State.totalRequests]
      refine Finset.sum_congr rfl ?_
      intro j _
      rw [(h.workers j).samples, (hserved j).2, length_samples] }

/-- No request of the open loop is lost or duplicated, whatever the producer,
the workers and the network do and in whatever order. -/
theorem every_request_served_once (cfg : WorkloadConfig) (gen : Nat → Turn)
    (hsum : cfg.warmupRequests.toNat + cfg.numRequests.toNat < 2 ^ 32)
    (clock : UInt64) (policy : PriorityScheduler.SchedulingPolicy) (poolSize : UInt32)
    (stack stack' : Fin poolSize.toNat → Fin headerSize → UInt8)
    (sendBuf recvBuf : Fin poolSize.toNat → List UInt8) (es : List (Event poolSize.toNat))
    (s : State poolSize.toNat)
    (hr : Transition.run (step cfg gen) (start clock policy poolSize stack stack' sendBuf recvBuf) es = some s)
    (hfin : Finished s) :
    Complete cfg gen (cfg.warmupRequests.toNat + cfg.numRequests.toNat) s := by
  have htotal : cfg.total.toNat = cfg.warmupRequests.toNat + cfg.numRequests.toNat := by
    rw [WorkloadConfig.total, UInt32.toNat_add, Nat.mod_eq_of_lt hsum]
  rw [← htotal]
  exact complete_of_inv (inv_run (inv_start cfg gen clock policy poolSize stack stack' sendBuf recvBuf) hr) hfin

/-- Two requests on two connections. The workers first look at `running` after
the producer has stopped; the first request fails, the second is answered. -/
def lateWorkers : List (Event 2) :=
  let reply := serializeHeader ⟨1, 0, 7, response, 3⟩
  [.push, .tick 3, .push, .stop, .worker 0 .test, .worker 1 .test, .worker 0 .test, .worker 1 .test,
    .worker 1 .pop, .worker 0 .pop, .worker 0 .call, .worker 1 .call, .worker 1 (.send (.sent 22)),
    .worker 0 (.send .error), .worker 0 .account, .tick 9, .worker 1 (.recv (.data reply)), .worker 1 .now,
    .worker 0 .test, .worker 1 .account, .worker 1 .test, .worker 1 .test, .worker 0 .test]

theorem lateWorkers_served_once : ∃ s, Transition.run (step ⟨1, 1⟩ (fun _ => ⟨0, 0, fun lo _ => lo⟩))
    (start 2 .roundRobin 2 (fun _ _ => 0) (fun _ _ => 0) (fun _ => []) (fun _ => [])) lateWorkers = some s ∧
    Complete ⟨1, 1⟩ (fun _ => ⟨0, 0, fun lo _ => lo⟩) 2 s := by
  have hrun : (Transition.run (step ⟨1, 1⟩ (fun _ => ⟨0, 0, fun lo _ => lo⟩))
      (start 2 .roundRobin 2 (fun _ _ => 0) (fun _ _ => 0) (fun _ => []) (fun _ => [])) lateWorkers).map
      (fun s => decide (Finished s)) = some true := by decide +kernel
  obtain ⟨s, hs, hfin⟩ := Option.map_eq_some_iff.mp hrun
  exact ⟨s, hs, every_request_served_once _ _ (by decide) _ _ _ _ _ _ _ _ s hs (of_decide_eq_true hfin)⟩

end DcBench.OpenLoopResult

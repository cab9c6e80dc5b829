import DcBench.OpenLoopResult
import DcBench.HomaClosedLoop
import DcBench.HomaOpenBooks

namespace DcBench.ResultTotals

open DcBench.Lib DcBench.Message DcBench.ExactTransfer DcBench.Workload DcBench.Accounts

section OpenLoop

open DcBench.OpenLoop DcBench.OpenLoopDelivery

variable {P : Nat} {cfg : WorkloadConfig} {gen : Nat → Turn} {s : State P}

def openResult (s : State P) : BenchmarkResult :=
  ⟨∑ j, ((s.workers j).samples : Multiset UInt64), s.totalBytes⟩

def openEntries (cfg : WorkloadConfig) (s : State P) : Multiset Entry :=
  ∑ j, ((s.workers j).client.exchanges.map (ClosedLoopBooks.entry cfg.warmupRequests.toUInt64) : Multiset Entry)

theorem open_books (h : Inv cfg gen s) (hfin : Finished s) : Books (openResult s) (openEntries cfg s) := by
  have hacc (j : Fin P) : accounted (s.workers j) = (s.workers j).client.exchanges :=
    (OpenLoopResult.served_of_exited h (hfin.2 j)).2
  apply books_of_workers
  · intro j e he _
    obtain ⟨x, -, rfl⟩ := List.mem_map.mp he
    rfl
  · intro j
    rw [(h.workers j).samples, hacc j, Multiset.filterMap_coe, List.filterMap_map]
    rfl
  · rw [h.totalBytes]
    congr 1
    refine Finset.sum_congr rfl ?_
    intro j _
    rw [hacc j, frames_added_coe, List.map_map]
    · rfl
    · intro e he
      obtain ⟨x, -, rfl⟩ := List.mem_map.mp he
      rfl

end OpenLoop

/-- A finished run of one of the four drivers, with its result and with all its
requests. -/
inductive Run (cfg : WorkloadConfig) : BenchmarkResult → Multiset Entry → Prop
  | tcpClosed (poolSize : UInt32) (sizes : Fin poolSize.toNat → Nat → UInt32) (clock : UInt64)
      (stack stack' : Fin poolSize.toNat → Fin headerSize → UInt8) (sendBuf recvBuf : Fin poolSize.toNat → List UInt8)
      (es : List (ClosedLoop.Event poolSize.toNat)) (s : ClosedLoop.State poolSize.toNat)
      (hr : Transition.run (ClosedLoop.step cfg poolSize sizes)
        (ClosedLoop.start clock poolSize stack stack' sendBuf recvBuf) es = some s)
      (hfin : ClosedLoopBooks.Finished s) : Run cfg (ClosedLoopBooks.result s) (ClosedLoopBooks.entries cfg s)
  | tcpOpen (gen : Nat → Turn) (clock : UInt64) (policy : PriorityScheduler.SchedulingPolicy) (poolSize : UInt32)
      (stack stack' : Fin poolSize.toNat → Fin headerSize → UInt8) (sendBuf recvBuf : Fin poolSize.toNat → List UInt8)
      (es : List (OpenLoop.Event poolSize.toNat)) (s : OpenLoop.State poolSize.toNat)
      (hr : Transition.run (OpenLoop.step cfg gen)
        (OpenLoop.start clock policy poolSize stack stack' sendBuf recvBuf) es = some s)
      (hfin : OpenLoop.Finished s) : Run cfg (openResult s) (openEntries cfg s)
  | homaClosed (concurrency : UInt32) (sizes : Fin concurrency.toNat → Nat → UInt32) (clock : UInt64)
      (es : List (HomaClosedLoop.Event concurrency.toNat)) (s : HomaClosedLoop.State concurrency.toNat)
      (hr : Transition.run (HomaClosedLoop.step cfg concurrency sizes) (HomaClosedLoop.start clock concurrency) es =
        some s)
      (hfin : HomaClosedLoop.Finished s) : Run cfg (HomaClosedLoop.result s) (HomaClosedLoop.entries cfg s)
  | homaOpen (gen : Nat → Turn) (clock : UInt64) (es : List HomaOpenLoop.Event) (s : HomaOpenLoop.State)
      (hr : Transition.run (HomaOpenLoop.step cfg gen) (HomaOpenLoop.start clock) es = some s)
      (hfin : HomaOpenBooks.Finished s) : Run cfg (HomaOpenBooks.result s) (HomaOpenBooks.entries cfg gen s)

theorem books_of_run {cfg : WorkloadConfig} {r : BenchmarkResult} {es : Multiset Entry} (h : Run cfg r es) :
    Books r es := by
  cases h with
  | tcpClosed poolSize sizes clock stack stack' sendBuf recvBuf evs s hr hfin =>
    exact ClosedLoopBooks.books (ClosedLoopBooks.inv_run hr) hfin
  | tcpOpen gen clock policy poolSize stack stack' sendBuf recvBuf evs s hr hfin =>
    exact open_books (OpenLoopDelivery.inv_run (OpenLoopDelivery.inv_start cfg gen clock policy poolSize stack stack'
      sendBuf recvBuf) hr) hfin
  | homaClosed concurrency sizes clock evs s hr hfin => exact HomaClosedLoop.books (HomaClosedLoop.inv_run hr)
  | homaOpen gen clock evs s hr hfin =>
    exact HomaOpenBooks.books (HomaSamples.inv_run hr) (HomaOpenBooks.booked_run hr) hfin

/-- The two totals of a result describe the same requests exactly when the
requests that are in `total_bytes` without being in `total_requests` add up to
nothing in a word of 64 bits. Below the word size there is no such request. -/
theorem totals_describe_iff (cfg : WorkloadConfig) (r : BenchmarkResult) (es : Multiset Entry) (h : Run cfg r es) :
    (Describes r es ↔
      frames (es.filter (fun e => e.counted)) < 2 ^ 64 ∧ 2 ^ 64 ∣ frames (es.filter (fun e => e.uncounted))) ∧
    (frames (es.filter (fun e => e.added)) < 2 ^ 64 → (Describes r es ↔ ∀ e ∈ es, e.added → e.counted)) :=
  ⟨(books_of_run h).describes_iff, (books_of_run h).describes_iff_of_lt⟩

/-- One request without payload on the only connection, answered at `reading`. -/
def answered (reading : UInt64) : List (ClosedLoop.Event 1) :=
  let reply := serializeHeader ⟨0, 0, 7, response, 3⟩
  [.worker 0 .next, .worker 0 (.send (.sent 22)), .worker 0 (.recv (.data reply)), .tick reading, .worker 0 .now,
    .worker 0 .account]

def atRest : ClosedLoop.State 1 :=
  ClosedLoop.start 3 1 (fun _ _ => 0) (fun _ _ => 0) (fun _ => []) (fun _ => [])

def outcome (warmup : UInt64) (s : ClosedLoop.State 1) : Bool × List UInt64 × UInt64 × List Entry :=
  (decide (@ClosedLoopBooks.Finished 1 s), (s.workers 0).samples, s.totalBytes,
    (s.workers 0).client.exchanges.map (ClosedLoopBooks.entry warmup))

theorem run_of_outcome {cfg : WorkloadConfig} (es : List (ClosedLoop.Event 1)) {samples : List UInt64}
    {totalBytes : UInt64} {entries : List Entry}
    (h : (Transition.run (ClosedLoop.step cfg 1 (fun _ _ => 0)) atRest es).map (outcome (cfg.warmup 1).toUInt64) =
      some (true, samples, totalBytes, entries)) : Run cfg ⟨samples, totalBytes⟩ entries := by
  obtain ⟨s, hs, heq⟩ := Option.map_eq_some_iff.mp h
  simp only [outcome, Prod.mk.injEq, decide_eq_true_eq] at heq
  obtain ⟨hfin, hsamples, hbytes, hentries⟩ := heq
  have hrun := Run.tcpClosed 1 _ 3 _ _ _ _ es s hs hfin
  have hres : @ClosedLoopBooks.result 1 s = ⟨samples, totalBytes⟩ := by
    rw [ClosedLoopBooks.result, hbytes, ← hsamples]
    exact congrArg (BenchmarkResult.mk · _) (Fin.sum_univ_one _)
  have hes : @ClosedLoopBooks.entries 1 cfg s = entries := (Fin.sum_univ_one _).trans (congrArg _ hentries)
  rw [hres, hes] at hrun
  exact hrun

theorem answered_describes : ∃ r es, Run ⟨0, 1⟩ r es ∧ r.totalRequests = 1 ∧ r.totalBytes = 22 ∧ Describes r es := by
  have hrun : Run ⟨0, 1⟩ ⟨([4] : List UInt64), 22⟩ ([⟨0, true, some 4⟩] : List Entry) :=
    run_of_outcome (answered 7 ++ [.worker 0 .next]) (by decide +kernel)
  exact ⟨_, _, hrun, rfl, rfl, ((totals_describe_iff _ _ _ hrun).1).mpr (by decide)⟩

/-- Of two requests the first is warm-up: one request is reported with the bytes
of two. -/
theorem warmup_not_describes : ∃ r es, Run ⟨1, 1⟩ r es ∧ r.totalRequests = 1 ∧ r.totalBytes = 44 ∧ ¬ Describes r es := by
  have hrun : Run ⟨1, 1⟩ ⟨([2] : List UInt64), 44⟩ ([⟨0, true, none⟩, ⟨0, true, some 2⟩] : List Entry) :=
    run_of_outcome (answered 7 ++ answered 9 ++ [.worker 0 .next]) (by decide +kernel)
  refine ⟨_, _, hrun, rfl, rfl, ?_⟩
  rintro ⟨-, hbytes⟩
  exact absurd hbytes (by decide)

end DcBench.ResultTotals

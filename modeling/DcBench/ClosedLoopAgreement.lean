import DcBench.HomaClosedLoop
import Mathlib.Data.List.Forall2
import Mathlib.Algebra.Order.BigOperators.Group.Finset

namespace DcBench.ClosedLoopAgreement

open DcBench.Lib DcBench.Message DcBench.ExactTransfer DcBench.Workload DcBench.Accounts
open DcBench.ClosedLoopBooks (call callOf)

/-- The TCP request ended like the Homa request. A failed `do_request` returns 0
wherever it failed. -/
def Same : HomaClosedLoop.Outcome → DoRequest.Exchange → Prop
  | .success rtt, x => x.answer.isSome ∧ x.rtt = rtt
  | .sendFails, x | .recvFails, x => x.answer = none

instance (o : HomaClosedLoop.Outcome) (x : DoRequest.Exchange) : Decidable (Same o x) :=
  match o with
  | .success rtt => inferInstanceAs (Decidable (x.answer.isSome ∧ x.rtt = rtt))
  | .sendFails | .recvFails => inferInstanceAs (Decidable (x.answer = none))

section Failures

open DcBench.ClosedLoop

/-- A failed request has the round trip 0. -/
def FailsWithZero (w : Worker) : Prop := ∀ x ∈ w.client.exchanges, x.answer = none → x.rtt = 0

variable {warmup count : UInt32} {sizes : Nat → UInt32} {clock : UInt64} {w w' : Worker}

theorem failsWithZero_inside {hdr : MessageHeader} {dev : DoRequest.Event} {c c' : DoRequest.Client}
    (h : ∀ x ∈ c.exchanges, x.answer = none → x.rtt = 0) (hin : DoRequest.Inside hdr c dev c') :
    ∀ x ∈ c'.exchanges, x.answer = none → x.rtt = 0 := by
  cases hin with
  | goesOn hp hx => rwa [hx]
  | fails hp payload hx =>
    rw [hx, List.forall_mem_append, List.forall_mem_singleton]
    exact ⟨h, fun _ => rfl⟩
  | returns hp payload answer t hev hx =>
    rw [hx, List.forall_mem_append, List.forall_mem_singleton]
    exact ⟨h, nofun⟩

theorem failsWithZero_moved (hi : ClosedLoopBooks.WorkerInv warmup count sizes w) (h : FailsWithZero w)
    (hm : Moved warmup count sizes clock w w') : FailsWithZero w' := by
  cases hm with
  | call hp hlt hc | exit hp hlt | account size rtt hp => exact h
  | goesOn size dev c hp hs hc | returns size dev c hp hs ht hc =>
    obtain ⟨-, hdr, hhdr, -⟩ := hi.inRequest hp
    exact failsWithZero_inside h (DoRequest.inside_of_step hhdr hs)

variable {cfg : WorkloadConfig} {poolSize : UInt32} {gens : Fin poolSize.toNat → Nat → UInt32}
  {s : State poolSize.toNat}

theorem failsWithZero_run {stack stack' : Fin poolSize.toNat → Fin headerSize → UInt8}
    {sendBuf recvBuf : Fin poolSize.toNat → List UInt8} {es : List (Event poolSize.toNat)}
    (hr : Transition.run (step cfg poolSize gens) (start clock poolSize stack stack' sendBuf recvBuf) es = some s)
    (j : Fin poolSize.toNat) : FailsWithZero (s.workers j) := by
  suffices h : ClosedLoopBooks.Inv cfg poolSize gens s ∧ ∀ j, FailsWithZero (s.workers j) from h.2 j
  refine Transition.invariant (P := fun s => ClosedLoopBooks.Inv cfg poolSize gens s ∧ ∀ j, FailsWithZero (s.workers j))
    ?_ ⟨ClosedLoopBooks.inv_start cfg poolSize gens clock stack stack' sendBuf recvBuf, fun j => nofun⟩ hr
  rintro s e t ⟨hinv, hz⟩ hs
  refine ⟨ClosedLoopBooks.inv_step hinv hs, ?_⟩
  apply forall_workers_of_step hs hz
  intro j w hm
  exact failsWithZero_moved (hinv.workers j) (hz j) hm

end Failures

/-- The bytes of the requests that could not be sent. -/
def unsent (xs : List HomaClosedLoop.Exchange) : Nat :=
  ((xs.filter (fun x => x.outcome = .sendFails)).map (fun x => headerSize + x.request.payloadSize.toNat)).sum

variable {warmup : UInt64} {xs : List DoRequest.Exchange} {ys : List HomaClosedLoop.Exchange}

theorem frames_homa (ys : List HomaClosedLoop.Exchange) :
    (ys.map (fun y => headerSize + y.request.payloadSize.toNat)).sum =
      (((ys.map (HomaClosedLoop.entry warmup)).filter Entry.added).map Entry.frame).sum + unsent ys := by
  induction ys with
  | nil => rfl
  | cons y ys ih =>
    by_cases ho : y.outcome = .sendFails
    · simp only [List.map_cons, List.sum_cons, ih, unsent, ho, decide_true, List.filter_cons_of_pos,
        HomaClosedLoop.entry, ne_eq, not_true_eq_false, decide_false, Bool.false_eq_true, not_false_eq_true,
        List.filter_cons_of_neg]
      omega
    · simp only [List.map_cons, List.sum_cons, ih, unsent, ho, decide_false, Bool.false_eq_true, not_false_eq_true,
        List.filter_cons_of_neg, HomaClosedLoop.entry, ne_eq, decide_true, List.filter_cons_of_pos, Entry.frame]
      omega

/-- A request with the same outcome gives the TCP client the sample that it
gives the Homa client, but no zero. -/
theorem sample_of_same {x : DoRequest.Exchange} {y : HomaClosedLoop.Exchange} (hsame : Same y.outcome x)
    (hcall : callOf y.request = callOf x.request) (hzero : x.answer = none → x.rtt = 0) :
    (ClosedLoopBooks.entry warmup x).sample = (HomaClosedLoop.entry warmup y).sample.filter (fun rtt => 0 < rtt) := by
  have hid : y.request.id = x.request.id := congrArg DoRequest.Call.id hcall
  cases ho : y.outcome with
  | sendFails | recvFails =>
    rw [ho] at hsame
    have hrtt : x.rtt = 0 := hzero hsame
    simp [ClosedLoopBooks.entry, HomaClosedLoop.entry, ho, hrtt]
  | success rtt =>
    rw [ho] at hsame
    obtain ⟨-, rfl⟩ := hsame
    by_cases hm : warmup ≤ x.request.id
    · simp only [ClosedLoopBooks.entry, HomaClosedLoop.entry, ho, hid, hm, if_true, and_true, Option.filter_some,
        decide_eq_true_eq]
    · simp only [ClosedLoopBooks.entry, HomaClosedLoop.entry, ho, hid, hm, if_false, and_false, Option.filter_none]

theorem samples_of_same (hsame : List.Forall₂ (fun y x => Same y.outcome x) ys xs)
    (hcalls : ys.map (fun y => callOf y.request) = xs.map (fun x => callOf x.request))
    (hzero : ∀ x ∈ xs, x.answer = none → x.rtt = 0) :
    xs.filterMap (fun x => (ClosedLoopBooks.entry warmup x).sample) =
      (ys.filterMap (fun y => (HomaClosedLoop.entry warmup y).sample)).filter (fun rtt => 0 < rtt) := by
  rw [List.filter_filterMap]
  induction hsame with
  | nil => rfl
  | @cons y x ys xs hyx _ ih =>
    rw [List.map_cons, List.map_cons, List.cons.injEq] at hcalls
    rw [List.forall_mem_cons] at hzero
    rw [List.filterMap_cons, List.filterMap_cons, ih hcalls.2 hzero.2, sample_of_same hyx hcalls.1 hzero.1]

section Results

variable {warmup count : UInt32} {sizes : Nat → UInt32} {w : HomaClosedLoop.Worker}
  {cfg : WorkloadConfig} {poolSize : UInt32} {gens : Fin poolSize.toNat → Nat → UInt32}
  {s : ClosedLoop.State poolSize.toNat} {t : HomaClosedLoop.State poolSize.toNat}

/-- Request `k` of worker `j` has the same outcome under both clients. -/
def SameOutcomes (s : ClosedLoop.State poolSize.toNat) (t : HomaClosedLoop.State poolSize.toNat) : Prop :=
  ∀ j, List.Forall₂ (fun y x => Same y.outcome x) (t.workers j).exchanges (s.workers j).client.exchanges

theorem calls_of_same (hs : ClosedLoopBooks.Inv cfg poolSize gens s) (hfin : ClosedLoopBooks.Finished s)
    (ht : HomaClosedLoop.Inv cfg poolSize gens t) (hsame : SameOutcomes s t) (j : Fin poolSize.toNat) :
    (t.workers j).exchanges.map (fun y => callOf y.request) =
      (s.workers j).client.exchanges.map (fun x => callOf x.request) := by
  have hcalls := ClosedLoopBooks.calls_of_exited (hs.workers j) (hfin j)
  have hcalls' := (ht.workers j).calls
  have hlen := congrArg List.length hcalls
  have hlen' := congrArg List.length hcalls'
  rw [List.length_map, List.length_map, List.length_range] at hlen hlen'
  rw [hcalls, hcalls', ← hlen, ← hlen', (hsame j).length_eq]

theorem totalBytes_eq_iff (hs : ClosedLoopBooks.Inv cfg poolSize gens s) (hfin : ClosedLoopBooks.Finished s)
    (ht : HomaClosedLoop.Inv cfg poolSize gens t) (hsame : SameOutcomes s t) :
    s.totalBytes = t.totalBytes ↔ 2 ^ 64 ∣ ∑ j, unsent (t.workers j).exchanges := by
  have hbytes (j : Fin poolSize.toNat) : ClosedLoopBooks.bytes (s.workers j) =
      HomaClosedLoop.bytes (cfg.warmup poolSize).toUInt64 (t.workers j) + unsent (t.workers j).exchanges := by
    have hmap := congrArg (List.map (fun c : DoRequest.Call => headerSize + c.size.toNat))
      (calls_of_same hs hfin ht hsame j)
    rw [List.map_map, List.map_map] at hmap
    rw [ClosedLoopBooks.bytes, ClosedLoopBooks.accounted_of_exited (hfin j), HomaClosedLoop.bytes, ← frames_homa]
    exact congrArg List.sum hmap.symm
  rw [hs.totalBytes, ht.totalBytes, Finset.sum_congr rfl (fun j _ => hbytes j), Finset.sum_add_distrib,
    ← UInt64.toNat_inj, UInt64.toNat_ofNat', UInt64.toNat_ofNat']
  omega

/-- The worker of the Homa client has recorded a zero exactly when one of its
measured requests had the round trip 0. -/
theorem samples_pos_iff (h : HomaClosedLoop.WorkerInv warmup count sizes w) :
    (∀ rtt ∈ w.samples, 0 < rtt) ↔
      ∀ x ∈ w.exchanges, x.outcome = .success 0 → x.request.id < warmup.toUInt64 := by
  rw [h.samples, List.forall_mem_filterMap]
  refine forall₂_congr ?_
  intro x _
  cases ho : x.outcome with
  | sendFails | recvFails => simp [HomaClosedLoop.entry, ho]
  | success rtt =>
    by_cases hm : warmup.toUInt64 ≤ x.request.id
    · simp [HomaClosedLoop.entry, ho, hm, UInt64.pos_iff_ne_zero, UInt64.not_lt.mpr hm]
    · simp [HomaClosedLoop.entry, ho, hm, UInt64.not_le.mp hm]

theorem samples_eq_iff (hs : ClosedLoopBooks.Inv cfg poolSize gens s) (hfin : ClosedLoopBooks.Finished s)
    (ht : HomaClosedLoop.Inv cfg poolSize gens t) (hsame : SameOutcomes s t)
    (hzero : ∀ j, FailsWithZero (s.workers j)) :
    (ClosedLoopBooks.result s).samples = (HomaClosedLoop.result t).samples ↔
      ∀ j, ∀ x ∈ (t.workers j).exchanges, x.outcome = .success 0 → x.request.id < (cfg.warmup poolSize).toUInt64 := by
  have hsamples (j : Fin poolSize.toNat) : ((s.workers j).samples : Multiset UInt64) =
      ((t.workers j).samples : Multiset UInt64).filter (fun rtt => 0 < rtt) := by
    rw [(hs.workers j).samples, (ht.workers j).samples, ClosedLoopBooks.accounted_of_exited (hfin j),
      samples_of_same (hsame j) (calls_of_same hs hfin ht hsame j) (hzero j), Multiset.filter_coe]
  have hle (j : Fin poolSize.toNat) (_ : j ∈ Finset.univ) :
      ((s.workers j).samples : Multiset UInt64) ≤ (t.workers j).samples := by
    rw [hsamples j]
    exact Multiset.filter_le _ _
  have hsum := Finset.sum_eq_sum_iff_of_le hle
  rw [ClosedLoopBooks.result, HomaClosedLoop.result, hsum]
  refine forall_congr' ?_
  intro j
  rw [← samples_pos_iff (ht.workers j), hsamples j, Multiset.filter_eq_self, forall_prop_of_true (Finset.mem_univ j)]
  rfl

/-- Given the same outcomes, the two clients report the same requests, bytes and
samples exactly when every request could be sent and no measured one came back
in the same nanosecond. The bytes are compared in a word of 64 bits. -/
theorem results_eq_iff (cfg : WorkloadConfig) (poolSize : UInt32) (sizes : Fin poolSize.toNat → Nat → UInt32)
    (clock clock' : UInt64) (stack stack' : Fin poolSize.toNat → Fin headerSize → UInt8)
    (sendBuf recvBuf : Fin poolSize.toNat → List UInt8) (es : List (ClosedLoop.Event poolSize.toNat))
    (es' : List (HomaClosedLoop.Event poolSize.toNat)) (s : ClosedLoop.State poolSize.toNat)
    (t : HomaClosedLoop.State poolSize.toNat)
    (hs : Transition.run (ClosedLoop.step cfg poolSize sizes)
      (ClosedLoop.start clock poolSize stack stack' sendBuf recvBuf) es = some s)
    (ht : Transition.run (HomaClosedLoop.step cfg poolSize sizes) (HomaClosedLoop.start clock' poolSize) es' = some t)
    (hfin : ClosedLoopBooks.Finished s) (hsame : SameOutcomes s t) :
    ClosedLoopBooks.result s = HomaClosedLoop.result t ↔
      2 ^ 64 ∣ ∑ j, unsent (t.workers j).exchanges ∧
      ∀ j, ∀ x ∈ (t.workers j).exchanges, x.outcome = .success 0 → x.request.id < (cfg.warmup poolSize).toUInt64 := by
  have hinv := ClosedLoopBooks.inv_run hs
  have hinv' := HomaClosedLoop.inv_run ht
  rw [← totalBytes_eq_iff hinv hfin hinv' hsame, ← samples_eq_iff hinv hfin hinv' hsame (failsWithZero_run hs), and_comm]
  exact BenchmarkResult.ext_iff

end Results

def tcpRun (es : List (ClosedLoop.Event 1)) : Option (ClosedLoop.State 1) :=
  Transition.run (ClosedLoop.step ⟨0, 1⟩ 1 (fun _ _ => 0))
    (ClosedLoop.start 3 1 (fun _ _ => 0) (fun _ _ => 0) (fun _ => []) (fun _ => [])) es

def homaRun (es : List (HomaClosedLoop.Event 1)) : Option (HomaClosedLoop.State 1) :=
  Transition.run (HomaClosedLoop.step ⟨0, 1⟩ 1 (fun _ _ => 0)) (HomaClosedLoop.start 3 1) es

theorem sameOutcomes_one {s : ClosedLoop.State 1} {t : HomaClosedLoop.State 1}
    (h : List.Forall₂ (fun y x => Same y.outcome x) (t.workers 0).exchanges (s.workers 0).client.exchanges) :
    @SameOutcomes 1 s t := by
  intro (j : Fin 1)
  rw [Subsingleton.elim j 0]
  exact h

def tcpAnswered : List (ClosedLoop.Event 1) :=
  [.worker 0 .next, .worker 0 (.send (.sent 22)),
    .worker 0 (.recv (.data (serializeHeader ⟨0, 0, 7, response, 3⟩))), .tick 7, .worker 0 .now, .worker 0 .account,
    .worker 0 .next]

def homaAnswered : List (HomaClosedLoop.Event 1) :=
  [.worker 0 (.socket true), .worker 0 .next, .worker 0 (.send 0), .tick 7, .worker 0 (.recv 22), .worker 0 .now,
    .worker 0 .account, .worker 0 .next]

theorem answered_results_eq : ∃ (s : ClosedLoop.State 1) (t : HomaClosedLoop.State 1),
    tcpRun tcpAnswered = some s ∧ homaRun homaAnswered = some t ∧
    @SameOutcomes 1 s t ∧ (s.workers 0).samples = [4] ∧ @ClosedLoopBooks.result 1 s = @HomaClosedLoop.result 1 t := by
  have hs : (tcpRun tcpAnswered).map (fun s : ClosedLoop.State 1 => (decide (@ClosedLoopBooks.Finished 1 s), (s.workers 0).samples,
      (s.workers 0).client.exchanges)) =
      some (true, [4], [⟨⟨0, 0, 7, request, 3⟩, [], some (⟨0, 0, 7, response, 3⟩, []), 4⟩]) := by decide +kernel
  have ht : (homaRun homaAnswered).map (fun t => (t.workers 0).exchanges) =
      some [⟨⟨0, 0, 7, request, 3⟩, .success 4⟩] := by decide +kernel
  obtain ⟨s, hs, heq⟩ := Option.map_eq_some_iff.mp hs
  obtain ⟨t, ht, hys⟩ := Option.map_eq_some_iff.mp ht
  simp only [Prod.mk.injEq, decide_eq_true_eq] at heq
  obtain ⟨hfin, hsamples, hxs⟩ := heq
  have hsame : @SameOutcomes 1 s t := by
    apply sameOutcomes_one
    rw [hxs, hys]
    exact .cons ⟨rfl, rfl⟩ .nil
  refine ⟨s, t, hs, ht, hsame, hsamples, (results_eq_iff ⟨0, 1⟩ 1 _ 3 3 _ _ _ _ _ _ s t hs ht hfin hsame).mpr ⟨?_, ?_⟩⟩
  · change 2 ^ 64 ∣ ∑ j : Fin 1, unsent (t.workers j).exchanges
    rw [Fin.sum_univ_one, hys]
    decide
  · intro (j : Fin 1)
    rw [Subsingleton.elim j 0, hys]
    decide

def tcpRefused : List (ClosedLoop.Event 1) :=
  [.worker 0 .next, .worker 0 (.send .error), .worker 0 .account, .worker 0 .next]

def homaRefused : List (HomaClosedLoop.Event 1) :=
  [.worker 0 (.socket true), .worker 0 .next, .worker 0 (.send (-1)), .worker 0 .next]

/-- The TCP client counts the bytes of a request that could not be sent, the
Homa client does not. -/
theorem refused_results_ne : ∃ (s : ClosedLoop.State 1) (t : HomaClosedLoop.State 1),
    tcpRun tcpRefused = some s ∧ homaRun homaRefused = some t ∧
    @ClosedLoopBooks.Finished 1 s ∧ @HomaClosedLoop.Finished 1 t ∧ @SameOutcomes 1 s t ∧
    s.totalBytes = 22 ∧ t.totalBytes = 0 ∧ @ClosedLoopBooks.result 1 s ≠ @HomaClosedLoop.result 1 t := by
  have hs : (tcpRun tcpRefused).map (fun s : ClosedLoop.State 1 => (decide (@ClosedLoopBooks.Finished 1 s), s.totalBytes,
      (s.workers 0).client.exchanges)) = some (true, 22, [⟨⟨0, 0, 7, request, 3⟩, [], none, 0⟩]) := by decide +kernel
  have ht : (homaRun homaRefused).map (fun t : HomaClosedLoop.State 1 => (decide (@HomaClosedLoop.Finished 1 t), t.totalBytes,
      (t.workers 0).exchanges)) = some (true, 0, [⟨⟨0, 0, 7, request, 3⟩, .sendFails⟩]) := by decide +kernel
  obtain ⟨s, hs, heq⟩ := Option.map_eq_some_iff.mp hs
  obtain ⟨t, ht, heq'⟩ := Option.map_eq_some_iff.mp ht
  simp only [Prod.mk.injEq, decide_eq_true_eq] at heq heq'
  obtain ⟨hfin, hbytes, hxs⟩ := heq
  obtain ⟨hfin', hbytes', hys⟩ := heq'
  refine ⟨s, t, hs, ht, hfin, hfin', ?_, hbytes, hbytes', ?_⟩
  · apply sameOutcomes_one
    rw [hxs, hys]
    exact .cons rfl .nil
  · intro heq
    have hb : s.totalBytes = t.totalBytes := congrArg BenchmarkResult.totalBytes heq
    rw [hbytes, hbytes'] at hb
    exact absurd hb (by decide)

end DcBench.ClosedLoopAgreement

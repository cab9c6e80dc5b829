import DcBench.ClosedLoopBooks
import DcBench.GenuineAnswers
import DcBench.Fairness
import Mathlib.Algebra.Order.Field.Basic
import Mathlib.Algebra.Order.BigOperators.Group.Finset
import Mathlib.Algebra.Order.Ring.Rat
import Mathlib.Tactic.Positivity

namespace DcBench.ThroughputModel

open DcBench.Lib DcBench.Message DcBench.Workload DcBench.ClosedLoop DcBench.ClosedLoopBooks
open DcBench.DoRequest (Client Exchange inside_of_step)
open DcBench.Fairness (clientThroughputRps)

/-- `timer.elapsed_ms() / 1000.0` at the reading `now`. -/
def elapsedSeconds (start now : UInt64) : ℚ := (now - start).toNat / 1000000 / 1000

def busyNs (xs : List Exchange) : Nat := (xs.map (fun x => x.rtt.toNat)).sum

/-- The calls of a client fit one behind the other between `start` and the reading
`clock`, the present one from its own first reading on. -/
structure Fits (start clock : UInt64) (c : Client) : Prop where
  spent : start.toNat + busyNs c.exchanges ≤ clock.toNat
  present : ∀ hdr, c.phase.header = some hdr →
    start.toNat + busyNs c.exchanges ≤ hdr.sendTimestampNs.toNat ∧ hdr.sendTimestampNs ≤ clock

variable {start clock : UInt64} {c c' : Client}

theorem busyNs_concat (xs : List Exchange) (x : Exchange) : busyNs (xs ++ [x]) = busyNs xs + x.rtt.toNat := by
  simp [busyNs]

theorem Fits.tick (h : Fits start clock c) {t : UInt64} (ht : clock ≤ t) : Fits start t c where
  spent := h.spent.trans (UInt64.le_iff_toNat_le.mp ht)
  present := fun hdr hh => ⟨(h.present hdr hh).1, UInt64.le_trans (h.present hdr hh).2 ht⟩

theorem Fits.call (h : Fits start clock c) (args : DoRequest.Call) : Fits start clock (c.call args clock) where
  spent := h.spent
  present := by
    rintro hdr hh
    obtain rfl : args.header clock = hdr := Option.some.inj hh
    exact ⟨h.spent, UInt64.le_refl _⟩

theorem Fits.inside {hdr : MessageHeader} {dev : DoRequest.Event} (h : Fits start clock c)
    (hh : c.phase.header = some hdr) (hs : DoRequest.step c dev = some c') (ht : ∀ t, dev = .now t → t = clock) :
    Fits start clock c' := by
  obtain ⟨hspent, hle⟩ := h.present hdr hh
  have hle' := UInt64.le_iff_toNat_le.mp hle
  have hidle {d : Client} (hd : d.phase = .idle) : ∀ hdr', d.phase.header = some hdr' →
      start.toNat + busyNs d.exchanges ≤ hdr'.sendTimestampNs.toNat ∧ hdr'.sendTimestampNs ≤ clock := by
    intro hdr' hh'
    rw [hd] at hh'
    cases hh'
  cases inside_of_step hh hs with
  | goesOn hp hx =>
    refine ⟨by rw [hx]; exact h.spent, fun hdr' hh' => ?_⟩
    obtain rfl : hdr = hdr' := Option.some.inj (hp.symm.trans hh')
    rw [hx]
    exact ⟨hspent, hle⟩
  | fails hp payload hx =>
    refine ⟨?_, hidle hp⟩
    rw [hx, busyNs_concat, UInt64.toNat_zero, Nat.add_zero]
    exact h.spent
  | returns hp payload answer t hev hx =>
    obtain rfl := ht t hev
    refine ⟨?_, hidle hp⟩
    rw [hx, busyNs_concat]
    simp only [UInt64.toNat_sub_of_le _ _ hle]
    omega

theorem fits_moved {warmup count : UInt32} {sizes : Nat → UInt32} {w w' : Worker} (hi : WorkerInv warmup count sizes w)
    (h : Fits start clock w.client) (hm : Moved warmup count sizes clock w w') : Fits start clock w'.client := by
  cases hm with
  | call hp hlt hc => exact h.call _
  | exit hp hlt => exact h
  | goesOn size dev c hp hs hc =>
    obtain ⟨-, hdr, hhdr, -⟩ := hi.inRequest hp
    refine h.inside hhdr hs ?_
    rintro t rfl
    exact absurd (GenuineAnswers.idle_of_now (GenuineAnswers.did_of_step hs)) hc
  | returns size dev c hp hs ht hc =>
    obtain ⟨-, hdr, hhdr, -⟩ := hi.inRequest hp
    exact h.inside hhdr hs ht
  | account size rtt hp => exact h

variable {cfg : WorkloadConfig} {poolSize : UInt32} {gens : Fin poolSize.toNat → Nat → UInt32}
  {s : State poolSize.toNat} {stack stack' : Fin poolSize.toNat → Fin headerSize → UInt8}
  {sendBuf recvBuf : Fin poolSize.toNat → List UInt8} {es : List (Event poolSize.toNat)}

theorem fits_step {s' : State poolSize.toNat} {e : Event poolSize.toNat} (hi : Inv cfg poolSize gens s)
    (h : ∀ j, Fits start s.clock (s.workers j).client) (hs : step cfg poolSize gens s e = some s') :
    ∀ j, Fits start s'.clock (s'.workers j).client := by
  cases e with
  | tick t =>
    obtain ⟨hle, heq⟩ := Option.ite_none_right_eq_some.mp hs
    cases heq
    exact fun j => (h j).tick hle
  | worker j ev =>
    have hclock : s'.clock = s.clock := by
      obtain ⟨w, -, rfl⟩ := Option.map_eq_some_iff.mp hs
      rfl
    rw [hclock]
    exact forall_workers_of_step (p := fun _ w => Fits start s.clock w.client) hs h
      (fun j w hm => fits_moved (hi.workers j) (h j) hm)

theorem fits_run
    (hrun : Transition.run (step cfg poolSize gens) (ClosedLoop.start start poolSize stack stack' sendBuf recvBuf) es =
      some s) : ∀ j, Fits start s.clock (s.workers j).client := by
  have hboth : Inv cfg poolSize gens s ∧ ∀ j, Fits start s.clock (s.workers j).client := by
    refine Transition.invariant (P := fun s => Inv cfg poolSize gens s ∧ ∀ j, Fits start s.clock (s.workers j).client)
      ?_ ⟨inv_start cfg poolSize gens start stack stack' sendBuf recvBuf, fun j => ⟨le_rfl, nofun⟩⟩ hrun
    rintro s e t ⟨hi, h⟩ hs
    exact ⟨inv_step hi hs, fits_step hi h hs⟩
  exact hboth.2

theorem sum_samples_le (warmup : UInt64) (xs : List Exchange) :
    ((xs.filterMap (fun x => (entry warmup x).sample)).map UInt64.toNat).sum ≤ busyNs xs := by
  induction xs with
  | nil => exact le_rfl
  | cons x xs ih =>
    have hcons : busyNs (x :: xs) = x.rtt.toNat + busyNs xs := List.sum_cons
    rw [hcons, List.filterMap_cons]
    split
    · omega
    · rename_i y hy
      obtain ⟨-, rfl⟩ := sample_eq_some_iff.mp hy
      rw [List.map_cons, List.sum_cons]
      omega

theorem sum_result_le (hi : Inv cfg poolSize gens s) (hfin : Finished s)
    (h : ∀ j, Fits start s.clock (s.workers j).client) :
    ((result s).samples.map UInt64.toNat).sum ≤ poolSize.toNat * (s.clock.toNat - start.toNat) := by
  have hworker (j : Fin poolSize.toNat) :
      ((s.workers j).samples.map UInt64.toNat).sum ≤ s.clock.toNat - start.toNat := by
    have hle := sum_samples_le (cfg.warmup poolSize).toUInt64 (s.workers j).client.exchanges
    have hspent := (h j).spent
    rw [(hi.workers j).samples, accounted_of_exited (hfin j)]
    omega
  have hsum : ((result s).samples.map UInt64.toNat).sum = ∑ j, ((s.workers j).samples.map UInt64.toNat).sum := by
    rw [result, ← Multiset.coe_mapAddMonoidHom, map_sum, ← Multiset.coe_sumAddMonoidHom, map_sum]
    rfl
  rw [hsum]
  refine (Finset.sum_le_card_nsmul Finset.univ _ _ (fun j _ => hworker j)).trans ?_
  rw [Finset.card_univ, Fintype.card_fin, smul_eq_mul]

theorem pos_of_mem_result (hi : Inv cfg poolSize gens s) {rtt : UInt64} (h : rtt ∈ (result s).samples) : 0 < rtt.toNat := by
  have hsum : rtt ∈ ∑ j, ((s.workers j).samples : Multiset UInt64) := h
  obtain ⟨j, -, hj⟩ := Multiset.mem_sum.mp hsum
  obtain ⟨-, -, -, hne⟩ := (hi.workers j).exchange_of_mem (Multiset.mem_coe.mp hj)
  exact UInt64.lt_iff_toNat_lt.mp (UInt64.pos_iff_ne_zero.mpr hne)

theorem rate_le {n total pool t : ℚ} (hn : 0 < n) (htotal : 0 < total) (ht : 0 < t) (hle : total ≤ pool * t) :
    n / (t / 1000000 / 1000) ≤ pool * 1000000000 / (total / n) := by
  have hl : n / (t / 1000000 / 1000) = n * 1000000000 / t := by
    field_simp
    ring
  have hr : pool * 1000000000 / (total / n) = pool * 1000000000 * n / total := by
    field_simp
  rw [hl, hr, div_le_div_iff₀ ht htotal]
  calc n * 1000000000 * total ≤ n * 1000000000 * (pool * t) := mul_le_mul_of_nonneg_left hle (by positivity)
    _ = pool * 1000000000 * n * t := by ring

/-- `client_throughput_rps` of the fairness script never reports less than what the
run has done by its stopwatch. -/
theorem throughput_model_at_least (cfg : WorkloadConfig) (poolSize : UInt32)
    (gens : Fin poolSize.toNat → Nat → UInt32) (start : UInt64)
    (stack stack' : Fin poolSize.toNat → Fin headerSize → UInt8) (sendBuf recvBuf : Fin poolSize.toNat → List UInt8)
    (es : List (Event poolSize.toNat)) (s : State poolSize.toNat)
    (hrun : Transition.run (step cfg poolSize gens) (ClosedLoop.start start poolSize stack stack' sendBuf recvBuf) es =
      some s) (hfin : Finished s) (samplesNs : List UInt64) (hsamples : (samplesNs : Multiset UInt64) = (result s).samples)
    (hne : samplesNs ≠ []) :
    (result s).totalRequests / elapsedSeconds start s.clock ≤
      clientThroughputRps (samplesNs.map (fun rtt => (rtt.toNat : ℚ))) poolSize.toNat := by
  have hi := inv_run hrun
  have hfits := fits_run hrun
  have hlen : (result s).totalRequests = samplesNs.length := by
    rw [Accounts.BenchmarkResult.totalRequests, ← hsamples, Multiset.coe_card]
  have hle : (samplesNs.map UInt64.toNat).sum ≤ poolSize.toNat * (s.clock.toNat - start.toNat) := by
    have hsum := sum_result_le hi hfin hfits
    rwa [← hsamples, Multiset.map_coe, Multiset.sum_coe] at hsum
  -- one sample is positive, so time has passed and the clock has not wrapped
  obtain ⟨rtt, hmem⟩ := List.exists_mem_of_ne_nil samplesNs hne
  have hpos : 0 < (samplesNs.map UInt64.toNat).sum := by
    have hrtt := pos_of_mem_result hi (hsamples ▸ Multiset.mem_coe.mpr hmem)
    exact lt_of_lt_of_le hrtt (List.single_le_sum (fun _ _ => Nat.zero_le _) _ (List.mem_map_of_mem hmem))
  have htime : 0 < s.clock.toNat - start.toNat := Nat.pos_of_mul_pos_left (lt_of_lt_of_le hpos hle)
  have hclock : (s.clock - start).toNat = s.clock.toNat - start.toNat :=
    UInt64.toNat_sub_of_le _ _ (UInt64.le_iff_toNat_le.mpr (by omega))
  have hcast : (samplesNs.map (fun rtt => (rtt.toNat : ℚ))).sum = ((samplesNs.map UInt64.toNat).sum : Nat) := by
    rw [Nat.cast_list_sum, List.map_map]
    rfl
  rw [clientThroughputRps, FaninReport.mean, List.length_map, if_neg (by simpa using hne), elapsedSeconds, hclock, hlen,
    hcast, Int.cast_natCast, show (10 ^ 9 : ℚ) = 1000000000 by norm_num]
  apply rate_le
  · exact_mod_cast List.length_pos_iff.mpr hne
  · exact_mod_cast hpos
  · exact_mod_cast htime
  · exact_mod_cast hle

/-- Two workers with two requests and one, in a run of 8 ns. -/
def threeAnswered : List (Event 2) :=
  [.worker 0 .next, .worker 1 .next, .worker 0 (.send (.sent 22)), .worker 1 (.send (.sent 22)),
    .worker 0 (.recv (.data (serializeHeader ⟨0, 0, 7, response, 3⟩))), .tick 7, .worker 0 .now, .worker 0 .account,
    .worker 0 .next, .worker 0 (.send (.sent 22)), .tick 9,
    .worker 1 (.recv (.data (serializeHeader ⟨0, 0, 7, response, 3⟩))), .worker 1 .now, .worker 1 .account,
    .worker 0 (.recv (.data (serializeHeader ⟨1, 0, 7, response, 7⟩))), .worker 0 .now, .worker 0 .account,
    .worker 1 .next, .worker 0 .next, .tick 11]

theorem throughput_three_answered : clientThroughputRps ([6, 4, 2] : List ℚ) 2 = 500000000 ∧
    3 / elapsedSeconds 3 11 ≤ clientThroughputRps ([6, 4, 2] : List ℚ) 2 := by
  have hrun : (Transition.run (step ⟨0, 3⟩ 2 (fun _ _ => 0))
      (ClosedLoop.start 3 2 (fun _ _ => 0) (fun _ _ => 0) (fun _ => []) (fun _ => [])) threeAnswered).map
        (fun s : State 2 => (decide (@Finished 2 s), s.clock, (s.workers 0).samples, (s.workers 1).samples)) =
          some (true, 11, [4, 2], [6]) := by
    decide +kernel
  obtain ⟨s, hs, heq⟩ := Option.map_eq_some_iff.mp hrun
  simp only [Prod.mk.injEq, decide_eq_true_eq] at heq
  obtain ⟨hfin, hclock, hzero, hone⟩ := heq
  have hresult : (@result 2 s).samples = (([6, 4, 2] : List UInt64) : Multiset UInt64) := by
    change ∑ j : Fin 2, ((s.workers j).samples : Multiset UInt64) = _
    rw [Fin.sum_univ_two, hzero, hone]
    decide
  have hle := throughput_model_at_least ⟨0, 3⟩ 2 _ 3 _ _ _ _ _ s hs hfin [6, 4, 2] hresult.symm (by decide)
  rw [Accounts.BenchmarkResult.totalRequests, hresult, hclock] at hle
  refine ⟨by decide +kernel, ?_⟩
  simpa using hle

end DcBench.ThroughputModel

import DcBench.OpenLoopResult

namespace DcBench.OpenLoopLatency

open DcBench.Lib DcBench.Message DcBench.Workload DcBench.OpenLoop DcBench.OpenLoopMoves
open DcBench.OpenLoopDelivery DcBench.OpenLoopResult
open DcBench.DoRequest (Exchange Inside inside_of_step calls_call calls_inside)

variable {P : Nat} {cfg : WorkloadConfig} {gen : Nat → Turn} {s s' : State P}

/-- When the producer pushed the request with this id. -/
def releaseOf (s : State P) (id : UInt64) : Option UInt64 := s.issued[id.toNat]?.map Issued.release

/-- The time from the release of a request to the end `fin` of its call, if the
exchange `x` is one that yields a sample. -/
def fullLatency (cfg : WorkloadConfig) (s : State P) (x : Exchange) (fin : UInt64) : Option UInt64 :=
  if (sample cfg x).isSome then (releaseOf s x.request.id).map (fun release => fin - release) else none

/-- Every sample recorded so far is the time from release to response. -/
def IncludesQueueing (cfg : WorkloadConfig) (s : State P) : Prop :=
  ∀ j, (s.workers j).samples =
    ((accounted (s.workers j)).zip (s.workers j).returns).filterMap (fun p => fullLatency cfg s p.1 p.2)

/-- What the clock shows each time worker `j` starts a call of `do_request`. -/
def startClocks (cfg : WorkloadConfig) (gen : Nat → Turn) (j : Fin P) : State P → List (Event P) → List UInt64
  | _, [] => []
  | s, e :: es =>
    (if e = .worker j .call then [s.clock] else []) ++
      match step cfg gen s e with
      | some t => startClocks cfg gen j t es
      | none => []

theorem startClocks_concat (j : Fin P) {s t : State P} {es : List (Event P)} (e : Event P)
    (hr : Transition.run (step cfg gen) s es = some t) :
    startClocks cfg gen j s (es ++ [e]) =
      startClocks cfg gen j s es ++ if e = .worker j .call then [t.clock] else [] := by
  induction es generalizing s with
  | nil =>
    cases hr
    cases he : step cfg gen t e with
    | none => simp [startClocks, he]
    | some u => simp [startClocks, he]
  | cons e' es ih =>
    obtain ⟨u, hu, hr⟩ := Transition.run_cons_some.mp hr
    simp only [List.cons_append, startClocks, hu]
    rw [ih hr, List.append_assoc]

def stamps (w : Worker) : List UInt64 := w.client.calls.map MessageHeader.sendTimestampNs

/-- A nonzero value of `do_request` is the time from its start to its end. -/
def Timed (x : Exchange) (fin : UInt64) : Prop := 0 < x.rtt → x.rtt = fin - x.request.sendTimestampNs

/-- What a step of a worker does to its calls: one starts, one ends, or neither. -/
inductive CallStep (ev : WorkerEvent) (clock : UInt64) (w w' : Worker) : Prop
  | neither (hev : ev ≠ .call) (hs : stamps w' = stamps w) (hx : w'.client.exchanges = w.client.exchanges)
      (hr : w'.returns = w.returns)
  | starts (hev : ev = .call) (hs : stamps w' = stamps w ++ [clock])
      (hx : w'.client.exchanges = w.client.exchanges) (hr : w'.returns = w.returns)
  | ends (hev : ev ≠ .call) (hs : stamps w' = stamps w) (x : Exchange) (ht : Timed x clock)
      (hx : w'.client.exchanges = w.client.exchanges ++ [x]) (hr : w'.returns = w.returns ++ [clock])

theorem callStep_of_moved {running : Bool} {given : List PendingRequest} {clock : UInt64} {w w' : Worker}
    {ev : WorkerEvent} (hok : PhaseOk running given w) (hm : Moved running clock ev w w') :
    CallStep ev clock w w' := by
  cases hm with
  | enter hev | leave hev | again hev | exit hev | pop hev | timeout hev | account hev =>
    exact .neither hev rfl rfl rfl
  | call hev req hp hc =>
    exact .starts hev (by rw [stamps, stamps, calls_call hc, List.map_append]; rfl) rfl rfl
  | goesOn hev req dev c hp hs hc =>
    obtain ⟨now, hhdr⟩ := hok.inRequest hp
    have hcalls := calls_inside hhdr (inside_of_step hhdr hs)
    cases inside_of_step hhdr hs with
    | fails hidle | returns hidle => exact absurd hidle hc
    | goesOn hhdr' hx => exact .neither hev (congrArg (List.map _) hcalls) hx rfl
  | returns hev req dev c hp hs ht hc =>
    obtain ⟨now, hhdr⟩ := hok.inRequest hp
    have hcalls := calls_inside hhdr (inside_of_step hhdr hs)
    cases inside_of_step hhdr hs with
    | goesOn hhdr' => simp [hc, DoRequest.Phase.header] at hhdr'
    | fails hidle payload hx =>
      refine .ends hev (congrArg (List.map _) hcalls) _ ?_ hx rfl
      intro hpos
      exact absurd hpos (by simp)
    | returns hidle payload answer t hdev hx =>
      refine .ends hev (congrArg (List.map _) hcalls) _ ?_ hx rfl
      intro _
      rw [ht t hdev]

/-- The calls of worker `j` so far: when they started, and that their values
are the times they took. -/
structure Recorded (clocks : List UInt64) (w : Worker) : Prop where
  stamps : stamps w = clocks
  timed : List.Forall₂ Timed w.client.exchanges w.returns

theorem Recorded.callStep {clocks : List UInt64} {clock : UInt64} {w w' : Worker} {ev : WorkerEvent}
    (h : Recorded clocks w) (hc : CallStep ev clock w w') :
    Recorded (clocks ++ if ev = .call then [clock] else []) w' := by
  cases hc with
  | neither hev hs hx hr =>
    rw [if_neg hev, List.append_nil]
    exact ⟨hs.trans h.stamps, by rw [hx, hr]; exact h.timed⟩
  | starts hev hs hx hr =>
    rw [if_pos hev]
    exact ⟨by rw [hs, h.stamps], by rw [hx, hr]; exact h.timed⟩
  | ends hev hs x ht hx hr =>
    rw [if_neg hev, List.append_nil]
    refine ⟨hs.trans h.stamps, ?_⟩
    rw [hx, hr]
    exact List.rel_append h.timed (.cons ht .nil)

theorem recorded_other {clocks : List UInt64} {e : Event P} {j : Fin P} (hj : ∀ ev, e ≠ .worker j ev)
    (hs : step cfg gen s e = some s') (h : Recorded clocks (s.workers j)) : Recorded clocks (s'.workers j) := by
  cases e with
  | tick t =>
    simp only [step, Option.ite_none_right_eq_some, Option.some.injEq] at hs
    obtain ⟨-, rfl⟩ := hs
    exact h
  | push =>
    obtain ⟨k, hp⟩ := pushed_of_step hs
    rw [hp.eq]
    by_cases hk : j = k
    · subst hk
      simp only [Function.update_self]
      exact ⟨h.stamps, h.timed⟩
    · simp only [Function.update_of_ne hk]
      exact h
  | stop =>
    simp only [step, Option.ite_none_right_eq_some, Option.some.injEq] at hs
    obtain ⟨-, rfl⟩ := hs
    exact h
  | worker k ev =>
    obtain ⟨w, hm, rfl⟩ := worker_of_step hs
    have hk : j ≠ k := fun he => hj ev (by rw [he])
    simp only [Function.update_of_ne hk]
    exact h

theorem recorded_step {clocks : List UInt64} {e : Event P} {j : Fin P} (hinv : Inv cfg gen s)
    (hs : step cfg gen s e = some s') (h : Recorded clocks (s.workers j)) :
    Recorded (clocks ++ if e = .worker j .call then [s.clock] else []) (s'.workers j) := by
  by_cases hj : ∃ ev, e = .worker j ev
  · obtain ⟨ev, rfl⟩ := hj
    obtain ⟨w, hm, rfl⟩ := worker_of_step hs
    simp only [Function.update_self, Event.worker.injEq, true_and]
    exact h.callStep (callStep_of_moved (hinv.workers j).phase hm)
  · rw [if_neg (fun he => hj ⟨_, he⟩), List.append_nil]
    exact recorded_other (fun ev he => hj ⟨ev, he⟩) hs h

theorem recorded_run {s₀ : State P} (h₀ : Inv cfg gen s₀) (hc₀ : ∀ j, Recorded [] (s₀.workers j))
    {es : List (Event P)} (hr : Transition.run (step cfg gen) s₀ es = some s) (j : Fin P) :
    Recorded (startClocks cfg gen j s₀ es) (s.workers j) := by
  refine Transition.run_induction (motive := fun es s => Recorded (startClocks cfg gen j s₀ es) (s.workers j))
    ?_ ?_ hr
  · exact hc₀ j
  · intro es e t u hrun ih hstep
    rw [startClocks_concat j e hrun]
    exact recorded_step (inv_run h₀ hrun) hstep ih

theorem releaseOf_isSome (h : Inv cfg gen s) {j : Fin P} {x : Exchange}
    (hx : x ∈ (s.workers j).client.exchanges) : ∃ release, releaseOf s x.request.id = some release := by
  obtain ⟨served, hgiven, hall⟩ := (h.workers j).served
  have hmem : x.request.id ∈ served.map PendingRequest.id := by
    rw [← map_eq_of_serves serves_id hall]
    exact List.mem_map_of_mem hx
  have hsub : served ⊆ requests cfg gen s.i.toNat := by
    intro req hreq
    rw [← h.issued]
    apply (List.filter_sublist.map Issued.req).subset
    change req ∈ givenTo s j
    rw [hgiven]
    exact List.mem_append_left _ hreq
  obtain ⟨req, hreq, hid⟩ := List.mem_map.mp hmem
  obtain ⟨k, hk, rfl⟩ := List.mem_map.mp (hsub hreq)
  rw [List.mem_range] at hk
  have hmax := s.i.toNat_lt
  have hlen : s.issued.length = s.i.toNat := by simpa [requests] using congrArg List.length h.issued
  refine ⟨(s.issued.get ⟨k, by omega⟩).release, ?_⟩
  rw [releaseOf, ← hid, toNat_id cfg gen (by omega), List.getElem?_eq_getElem (by omega)]
  rfl

theorem filterMap_eq_iff {α β : Type} {f g : α → Option β} (l : List α)
    (h : ∀ a ∈ l, (f a).isSome = (g a).isSome) : l.filterMap f = l.filterMap g ↔ ∀ a ∈ l, f a = g a := by
  induction l with
  | nil => simp
  | cons a l ih =>
    have ha := h a (by simp)
    have ih := ih (fun b hb => h b (by simp [hb]))
    cases hf : f a with
    | none =>
      have hg : g a = none := by simpa [hf] using ha.symm
      simp [hf, hg, ih]
    | some b =>
      obtain ⟨c, hg⟩ := Option.isSome_iff_exists.mp (by simpa [hf] using ha.symm : (g a).isSome = true)
      simp [hf, hg, ih]

/-- The sample of one finished call is its full latency exactly when the call
started at the time of the release. -/
theorem sample_eq_iff {x : Exchange} {fin release : UInt64} (ht : Timed x fin)
    (hrel : releaseOf s x.request.id = some release) (hs : (sample cfg x).isSome) :
    sample cfg x = fullLatency cfg s x fin ↔ x.request.sendTimestampNs = release := by
  have hpos : 0 < x.rtt ∧ cfg.warmupRequests.toUInt64 ≤ x.request.id := by
    rw [sample] at hs
    split at hs
    · assumption
    · cases hs
  rw [fullLatency, if_pos hs, hrel, sample, if_pos hpos, ht hpos.1, Option.map_some, Option.some.injEq,
    UInt64.sub_right_inj]

section Worker

variable {j : Fin P} {clocks : List UInt64} {n : Nat} {x : Exchange}

theorem getElem?_exchanges (w : Worker) (hx : (accounted w)[n]? = some x) : w.client.exchanges[n]? = some x := by
  obtain ⟨rest, hrest⟩ := accounted_isPrefix w
  rw [← hrest, List.getElem?_append_left (List.getElem?_eq_some_iff.mp hx).1]
  exact hx

theorem Recorded.start_at {w : Worker} (h : Recorded clocks w) (hx : (accounted w)[n]? = some x) :
    clocks[n]? = some x.request.sendTimestampNs := by
  have hget := getElem?_exchanges w hx
  have hlt := (List.getElem?_eq_some_iff.mp hget).1
  rw [← h.stamps, OpenLoopLatency.stamps, DoRequest.Client.calls, List.getElem?_map,
    List.getElem?_append_left (by simpa using hlt), List.getElem?_map, hget]
  rfl

theorem Recorded.return_at {w : Worker} (h : Recorded clocks w) (hx : (accounted w)[n]? = some x) :
    ∃ fin, w.returns[n]? = some fin := by
  have hlen := h.timed.length_eq
  have hlt := (List.getElem?_eq_some_iff.mp (getElem?_exchanges w hx)).1
  exact ⟨_, List.getElem?_eq_getElem (by omega)⟩

theorem Recorded.timed_at {w : Worker} {fin : UInt64} (h : Recorded clocks w)
    (hx : (accounted w)[n]? = some x) (hfin : w.returns[n]? = some fin) : Timed x fin :=
  List.forall₂_zip h.timed
    (List.mem_of_getElem? (List.getElem?_zip_eq_some.mpr ⟨getElem?_exchanges w hx, hfin⟩))

theorem agrees_iff (hinv : Inv cfg gen s) (h : Recorded clocks (s.workers j)) {fin : UInt64}
    (hx : (accounted (s.workers j))[n]? = some x) (hfin : (s.workers j).returns[n]? = some fin) :
    sample cfg x = fullLatency cfg s x fin ↔
      ((sample cfg x).isSome → clocks[n]? = releaseOf s x.request.id) := by
  obtain ⟨release, hrel⟩ := releaseOf_isSome hinv (List.mem_of_getElem? (getElem?_exchanges _ hx))
  by_cases hs : (sample cfg x).isSome
  · rw [sample_eq_iff (h.timed_at hx hfin) hrel hs, h.start_at hx, hrel]
    simp [hs]
  · have hnone : sample cfg x = none := by simpa using hs
    simp [fullLatency, hnone]

theorem samples_eq_iff (hinv : Inv cfg gen s) (h : Recorded clocks (s.workers j)) :
    (s.workers j).samples =
      ((accounted (s.workers j)).zip (s.workers j).returns).filterMap (fun p => fullLatency cfg s p.1 p.2) ↔
    ∀ (n : Nat) x, (accounted (s.workers j))[n]? = some x → (sample cfg x).isSome →
      clocks[n]? = releaseOf s x.request.id := by
  have hsamples : (s.workers j).samples =
      ((accounted (s.workers j)).zip (s.workers j).returns).filterMap (fun p => sample cfg p.1) := by
    have hmap : ((accounted (s.workers j)).zip (s.workers j).returns).map Prod.fst = accounted (s.workers j) :=
      List.map_fst_zip ((accounted_isPrefix _).length_le.trans h.timed.length_eq.le)
    rw [(hinv.workers j).samples]
    nth_rewrite 1 [← hmap]
    rw [List.filterMap_map]
    rfl
  rw [hsamples, filterMap_eq_iff]
  · constructor
    · intro hall n x hx
      obtain ⟨fin, hfin⟩ := h.return_at hx
      exact (agrees_iff hinv h hx hfin).mp
        (hall (x, fin) (List.mem_of_getElem? (List.getElem?_zip_eq_some.mpr ⟨hx, hfin⟩)))
    · rintro hall ⟨x, fin⟩ hmem
      obtain ⟨n, hn⟩ := List.getElem?_of_mem hmem
      obtain ⟨hx, hfin⟩ := List.getElem?_zip_eq_some.mp hn
      exact (agrees_iff hinv h hx hfin).mpr (hall n x hx)
  · rintro ⟨x, fin⟩ hmem
    obtain ⟨n, hn⟩ := List.getElem?_of_mem hmem
    have hx := getElem?_exchanges _ (List.getElem?_zip_eq_some.mp hn).1
    obtain ⟨release, hrel⟩ := releaseOf_isSome hinv (List.mem_of_getElem? hx)
    by_cases hs : (sample cfg x).isSome
    · simp [fullLatency, hs, hrel]
    · simp [fullLatency, hs]

end Worker

/-- For every run: all samples are full latencies if and only if the clock
showed the release time of each sampled request when its call started. -/
theorem includesQueueing_iff_started_at_release (cfg : WorkloadConfig) (gen : Nat → Turn) (clock : UInt64)
    (policy : PriorityScheduler.SchedulingPolicy) (poolSize : UInt32)
    (stack stack' : Fin poolSize.toNat → Fin headerSize → UInt8)
    (sendBuf recvBuf : Fin poolSize.toNat → List UInt8) (es : List (Event poolSize.toNat))
    (s : State poolSize.toNat)
    (hr : Transition.run (step cfg gen) (start clock policy poolSize stack stack' sendBuf recvBuf) es = some s) :
    IncludesQueueing cfg s ↔
      ∀ j (n : Nat) x, (accounted (s.workers j))[n]? = some x → (sample cfg x).isSome →
        (startClocks cfg gen j (start clock policy poolSize stack stack' sendBuf recvBuf) es)[n]? =
          releaseOf s x.request.id := by
  have h₀ := inv_start cfg gen clock policy poolSize stack stack' sendBuf recvBuf
  rw [IncludesQueueing]
  refine forall_congr' ?_
  intro j
  exact samples_eq_iff (inv_run h₀ hr) (recorded_run h₀ (fun _ => ⟨rfl, .nil⟩) hr j)

def oneConnection : State 1 :=
  start 0 .roundRobin 1 (fun _ _ => 0) (fun _ _ => 0) (fun _ => []) (fun _ => [])

def burst : Nat → Turn := fun _ => ⟨0, 0, fun lo _ => lo⟩

instance (cfg : WorkloadConfig) (s : State P) : Decidable (IncludesQueueing cfg s) :=
  inferInstanceAs (Decidable (∀ j, (s.workers j).samples = _))

/-- One request, released at 10 and started at 10. -/
def prompt : List (Event 1) :=
  [.tick 10, .push, .worker 0 .test, .worker 0 .pop, .worker 0 .call, .worker 0 (.send (.sent 22)), .tick 15,
    .worker 0 (.recv (.data (serializeHeader ⟨0, 0, 7, response, 10⟩))), .worker 0 .now, .worker 0 .account]

theorem prompt_started_at_release : ∃ s, Transition.run (step ⟨0, 1⟩ burst) oneConnection prompt = some s ∧
    (s.workers 0).samples = [5] ∧
    ∀ j (n : Nat) x, (accounted (s.workers j))[n]? = some x → (sample ⟨0, 1⟩ x).isSome →
      (startClocks ⟨0, 1⟩ burst j oneConnection prompt)[n]? = releaseOf s x.request.id := by
  have hrun : (Transition.run (step ⟨0, 1⟩ burst) oneConnection prompt).map (fun s =>
      ((s.workers 0).samples, decide (IncludesQueueing ⟨0, 1⟩ s))) = some ([5], true) := by decide +kernel
  obtain ⟨s, hs, heq⟩ := Option.map_eq_some_iff.mp hrun
  obtain ⟨hsamples, hfull⟩ := Prod.mk.inj heq
  exact ⟨s, hs, hsamples, (includesQueueing_iff_started_at_release ⟨0, 1⟩ burst 0 .roundRobin 1 _ _ _ _ prompt s
    hs).mp (of_decide_eq_true hfull)⟩

/-- Two requests on one connection. The second is released at 20 while the first
is being served, its call starts at 50 and ends at 60. -/
def waiting : List (Event 1) :=
  let reply (id ts : UInt64) := serializeHeader ⟨id, 0, 7, response, ts⟩
  [.tick 10, .push, .worker 0 .test, .worker 0 .pop, .worker 0 .call, .worker 0 (.send (.sent 22)), .tick 20,
    .push, .tick 50, .worker 0 (.recv (.data (reply 0 10))), .worker 0 .now, .worker 0 .account,
    .worker 0 .test, .worker 0 .pop, .worker 0 .call, .worker 0 (.send (.sent 22)), .tick 60,
    .worker 0 (.recv (.data (reply 1 50))), .worker 0 .now, .worker 0 .account]

theorem waiting_omits_queueing : ∃ s, Transition.run (step ⟨0, 2⟩ burst) oneConnection waiting = some s ∧
    (s.workers 0).samples = [40, 10] ∧ releaseOf s 1 = some 20 ∧ ¬ IncludesQueueing ⟨0, 2⟩ s := by
  have hrun : (Transition.run (step ⟨0, 2⟩ burst) oneConnection waiting).map (fun s =>
      ((s.workers 0).samples, releaseOf s 1, decide (IncludesQueueing ⟨0, 2⟩ s))) =
      some ([40, 10], some 20, false) := by decide +kernel
  obtain ⟨s, hs, heq⟩ := Option.map_eq_some_iff.mp hrun
  simp only [Prod.mk.injEq] at heq
  exact ⟨s, hs, heq.1, heq.2.1, of_decide_eq_false heq.2.2⟩

end DcBench.OpenLoopLatency

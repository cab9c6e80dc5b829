import DcBench.GenuineAnswers
import DcBench.ClosedLoopBooks
import DcBench.OpenLoopDelivery

namespace DcBench.GenuineSamples

open DcBench.Lib DcBench.Message DcBench.ExactTransfer DcBench.Workload DcBench.GenuineAnswers
open DcBench.DoRequest (Client Exchange Call)

theorem forall_update_iff_and {ι α : Type} [DecidableEq ι] {f : ι → α} {p : α → Prop} {q : Prop} {j : ι} {a : α}
    (h : p a ↔ p (f j) ∧ q) : (∀ i, p (Function.update f j a i)) ↔ (∀ i, p (f i)) ∧ q := by
  rw [Function.forall_update_iff f (fun _ b => p b), h]
  constructor
  · rintro ⟨⟨hj, hq⟩, hne⟩
    refine ⟨fun i => ?_, hq⟩
    by_cases hi : i = j
    · exact hi ▸ hj
    · exact hne i hi
  · rintro ⟨hall, hq⟩
    exact ⟨⟨hall j, hq⟩, fun i _ => hall i⟩

section ClosedLoop

open DcBench.ClosedLoop DcBench.ClosedLoopBooks

variable {warmup count : UInt32} {sizes : Nat → UInt32} {clock : UInt64} {w w' : Worker}

/-- A worker that makes a clock reading makes it behind a header that answers its
request. -/
def ClosedAnswers {poolSize : UInt32} (s : State poolSize.toNat) : Event poolSize.toNat → Prop
  | .tick _ => True
  | .worker j _ => Answers (s.workers j).client s.clock

theorem answers_of_idle {c : Client} (hc : c.phase = .idle) (clock : UInt64) : Answers c clock := by
  intro hdr resp hs
  rw [hc] at hs
  cases hs

theorem closed_moved (h : WorkerInv warmup count sizes w) (hr : RespRead w.client)
    (hm : Moved warmup count sizes clock w w') :
    RespRead w'.client ∧ (AllGenuine w'.client ↔ AllGenuine w.client ∧ Answers w.client clock) := by
  have hph := h.phase
  cases hm with
  | call hp hlt hc =>
    have hd := Did.call (c := w.client) ⟨w.i.toUInt64, sizes w.i.toNat, priorityForSize (sizes w.i.toNat)⟩ clock hc
    exact ⟨respRead_did hr hd, allGenuine_did hr (by simp) hd⟩
  | exit hp hlt =>
    simp only [PhaseOk, hp] at hph
    exact ⟨hr, (and_iff_left (answers_of_idle hph clock)).symm⟩
  | goesOn size dev c hp hs hc =>
    have hd := did_of_step hs
    refine ⟨respRead_did hr hd, allGenuine_did hr ?_ hd⟩
    rintro t rfl
    exact absurd (idle_of_now hd) hc
  | returns size dev c hp hs ht hc =>
    have hd := did_of_step hs
    exact ⟨respRead_did hr hd, allGenuine_did hr ht hd⟩
  | account size rtt hp =>
    simp only [PhaseOk, hp] at hph
    exact ⟨hr, (and_iff_left (answers_of_idle hph.1 clock)).symm⟩

variable {cfg : WorkloadConfig} {poolSize : UInt32} {gens : Fin poolSize.toNat → Nat → UInt32}
  {s s' : State poolSize.toNat} {e : Event poolSize.toNat}

theorem closed_step (h : Inv cfg poolSize gens s) (hr : ∀ j, RespRead (s.workers j).client)
    (hs : step cfg poolSize gens s e = some s') : (∀ j, RespRead (s'.workers j).client) ∧
      ((∀ j, AllGenuine (s'.workers j).client) ↔ (∀ j, AllGenuine (s.workers j).client) ∧ ClosedAnswers s e) := by
  refine ⟨forall_workers_of_step hs hr (fun j w hm => (closed_moved (h.workers j) (hr j) hm).1), ?_⟩
  cases e with
  | tick t =>
    obtain ⟨-, heq⟩ := Option.ite_none_right_eq_some.mp hs
    cases heq
    exact (and_iff_left trivial).symm
  | worker j ev =>
    obtain ⟨w, hw, rfl⟩ := Option.map_eq_some_iff.mp hs
    exact forall_update_iff_and (p := fun w : Worker => AllGenuine w.client)
      (closed_moved (h.workers j) (hr j) (moved_of_step hw)).2

theorem closed_run {s₀ : State poolSize.toNat} (h : Inv cfg poolSize gens s₀)
    (hr : ∀ j, RespRead (s₀.workers j).client) (hg : ∀ j, AllGenuine (s₀.workers j).client)
    {evs : List (Event poolSize.toNat)} (hrun : Transition.run (step cfg poolSize gens) s₀ evs = some s) :
    (∀ j, AllGenuine (s.workers j).client) ↔ Transition.Along (step cfg poolSize gens) ClosedAnswers s₀ evs := by
  apply Transition.iff_along (I := fun s => Inv cfg poolSize gens s ∧ ∀ j, RespRead (s.workers j).client)
    (P := fun s => ∀ j, AllGenuine (s.workers j).client) ?_ ?_ ⟨h, hr⟩ hg hrun
  · rintro s e t ⟨hi, hr⟩ hs
    exact ⟨inv_step hi hs, (closed_step hi hr hs).1⟩
  · rintro s e t ⟨hi, hr⟩ hs
    exact (closed_step hi hr hs).2

end ClosedLoop

section OpenLoop

open DcBench.OpenLoop DcBench.OpenLoopMoves DcBench.OpenLoopDelivery

variable {P : Nat} {cfg : WorkloadConfig} {gen : Nat → Turn} {running : Bool} {given : List PendingRequest}
  {clock : UInt64} {ev : WorkerEvent} {w w' : Worker} {s s' : State P} {e : Event P}

def OpenAnswers (s : State P) : Event P → Prop
  | .tick _ | .push | .stop => True
  | .worker j _ => Answers (s.workers j).client s.clock

theorem open_moved (h : WorkerInv cfg running given w) (hr : RespRead w.client)
    (hm : Moved running clock ev w w') :
    RespRead w'.client ∧ (AllGenuine w'.client ↔ AllGenuine w.client ∧ Answers w.client clock) := by
  have hph := h.phase
  -- outside of a call the client does not move and makes no reading
  have hkeep (hc : w.client.phase = .idle) : RespRead w.client ∧
      (AllGenuine w.client ↔ AllGenuine w.client ∧ Answers w.client clock) :=
    ⟨hr, (and_iff_left (answers_of_idle hc clock)).symm⟩
  cases hm with
  | enter _ hp | leave _ hp | timeout _ hp | pop _ _ _ hp =>
    simp only [PhaseOk, hp] at hph
    exact hkeep hph
  | again _ hp | exit _ hp | account _ _ _ hp =>
    simp only [PhaseOk, hp] at hph
    exact hkeep hph.1
  | call _ req hp hc =>
    have hd := Did.call req.call clock hc
    exact ⟨respRead_did hr hd, allGenuine_did hr (by simp) hd⟩
  | goesOn _ req dev c hp hs hc =>
    have hd := did_of_step hs
    refine ⟨respRead_did hr hd, allGenuine_did hr ?_ hd⟩
    rintro t rfl
    exact absurd (idle_of_now hd) hc
  | returns _ req dev c hp hs ht hc =>
    have hd := did_of_step hs
    exact ⟨respRead_did hr hd, allGenuine_did hr ht hd⟩

theorem open_step (h : Inv cfg gen s) (hr : ∀ j, RespRead (s.workers j).client) (hs : step cfg gen s e = some s') :
    (∀ j, RespRead (s'.workers j).client) ∧
      ((∀ j, AllGenuine (s'.workers j).client) ↔ (∀ j, AllGenuine (s.workers j).client) ∧ OpenAnswers s e) := by
  cases e with
  | tick t =>
    simp only [step, Option.ite_none_right_eq_some, Option.some.injEq] at hs
    obtain ⟨-, rfl⟩ := hs
    exact ⟨hr, (and_iff_left trivial).symm⟩
  | push =>
    obtain ⟨j, hp⟩ := pushed_of_step hs
    have hclient (k : Fin P) : (s'.workers k).client = (s.workers k).client := by
      rw [hp.eq]
      by_cases hk : k = j
      · simp [hk]
      · simp [Function.update_of_ne hk]
    simp only [hclient, OpenAnswers, and_true]
    exact hr
  | stop =>
    simp only [step, Option.ite_none_right_eq_some, Option.some.injEq] at hs
    obtain ⟨-, rfl⟩ := hs
    exact ⟨hr, (and_iff_left trivial).symm⟩
  | worker j ev =>
    obtain ⟨w, hm, rfl⟩ := worker_of_step hs
    obtain ⟨hread, hiff⟩ := open_moved (h.workers j) (hr j) hm
    refine ⟨?_, forall_update_iff_and (p := fun w : Worker => AllGenuine w.client) hiff⟩
    exact (Function.forall_update_iff s.workers (fun _ w => RespRead w.client)).mpr ⟨hread, fun k _ => hr k⟩

theorem open_run {s₀ : State P} (h : Inv cfg gen s₀) (hr : ∀ j, RespRead (s₀.workers j).client)
    (hg : ∀ j, AllGenuine (s₀.workers j).client) {evs : List (Event P)}
    (hrun : Transition.run (step cfg gen) s₀ evs = some s) :
    (∀ j, AllGenuine (s.workers j).client) ↔ Transition.Along (step cfg gen) OpenAnswers s₀ evs := by
  apply Transition.iff_along (I := fun s => Inv cfg gen s ∧ ∀ j, RespRead (s.workers j).client)
    (P := fun s => ∀ j, AllGenuine (s.workers j).client) ?_ ?_ ⟨h, hr⟩ hg hrun
  · rintro s e t ⟨hi, hr⟩ hs
    exact ⟨inv_step hi hs, (open_step hi hr hs).1⟩
  · rintro s e t ⟨hi, hr⟩ hs
    exact (open_step hi hr hs).2

end OpenLoop

/-- Every sample was measured with an answer to its own request. -/
def SamplesAnswered (samples : List UInt64) (xs : List Exchange) : Prop :=
  ∀ rtt ∈ samples, ∃ x ∈ xs, x.rtt = rtt ∧ ∃ resp payload, x.answer = some (resp, payload) ∧ Matches x.request resp

theorem samplesAnswered_of_allGenuine {samples : List UInt64} {c : Client} (hg : AllGenuine c)
    (hs : ∀ rtt ∈ samples, ∃ x ∈ c.exchanges, x.rtt = rtt ∧ rtt ≠ 0) : SamplesAnswered samples c.exchanges := by
  intro rtt hmem
  obtain ⟨x, hx, rfl, hne⟩ := hs rtt hmem
  exact ⟨x, hx, rfl, hg x hx hne⟩

/-- A call of `do_request` is genuine exactly when the bytes that arrive first for
it are a header that answers it, unless it fails or the clock stands still. All
calls of a run of either loop are genuine exactly when no worker makes its
second clock reading behind another header, and then all samples are. -/
theorem genuine_iff_answered (cfg : WorkloadConfig) (poolSize : UInt32) (clock : UInt64)
    (stack stack' : Fin poolSize.toNat → Fin headerSize → UInt8) (sendBuf recvBuf : Fin poolSize.toNat → List UInt8) :
    (∀ (c c' : Client) (args : Call) (now : UInt64) (es : List DoRequest.Event) (stream : List UInt8),
      c.respHdrBuf.length = headerSize → (∀ args t, .call args t ∉ es) →
      Transition.run DoRequest.step (c.call args now) es = some c' → c'.phase = .idle → arrived es <+: stream →
      ∃ x, c'.exchanges = c.exchanges ++ [x] ∧ x.request = args.header now ∧
        (Genuine x ↔ ∀ t, .now t ∈ es → t = now ∨ Matches (args.header now) (deserializeHeader stream))) ∧
    (∀ (gens : Fin poolSize.toNat → Nat → UInt32) (evs : List (ClosedLoop.Event poolSize.toNat))
      (s : ClosedLoop.State poolSize.toNat),
      let s₀ := ClosedLoop.start clock poolSize stack stack' sendBuf recvBuf
      Transition.run (ClosedLoop.step cfg poolSize gens) s₀ evs = some s →
      ((∀ j, AllGenuine (s.workers j).client) ↔
        Transition.Along (ClosedLoop.step cfg poolSize gens) ClosedAnswers s₀ evs) ∧
      (Transition.Along (ClosedLoop.step cfg poolSize gens) ClosedAnswers s₀ evs →
        ∀ j, SamplesAnswered (s.workers j).samples (s.workers j).client.exchanges)) ∧
    ∀ (gen : Nat → Turn) (policy : PriorityScheduler.SchedulingPolicy) (evs : List (OpenLoop.Event poolSize.toNat))
      (s : OpenLoop.State poolSize.toNat),
      let s₀ := OpenLoop.start clock policy poolSize stack stack' sendBuf recvBuf
      Transition.run (OpenLoop.step cfg gen) s₀ evs = some s →
      ((∀ j, AllGenuine (s.workers j).client) ↔ Transition.Along (OpenLoop.step cfg gen) OpenAnswers s₀ evs) ∧
      (Transition.Along (OpenLoop.step cfg gen) OpenAnswers s₀ evs →
        ∀ j, SamplesAnswered (s.workers j).samples (s.workers j).client.exchanges) := by
  refine ⟨?_, ?_, ?_⟩
  · intro c c' args now es stream hbuf hcall hrun hidle hstream
    exact genuine_call_iff hbuf hcall hrun hidle hstream
  · intro gens evs s s₀ hrun
    have hinv := ClosedLoopBooks.inv_start cfg poolSize gens clock stack stack' sendBuf recvBuf
    have hiff := closed_run hinv (fun _ => trivial) (fun _ x hx => absurd hx List.not_mem_nil) hrun
    have hbooks := ClosedLoopBooks.inv_run hrun
    refine ⟨hiff, fun halong j => ?_⟩
    exact samplesAnswered_of_allGenuine (hiff.mpr halong j) (fun rtt => (hbooks.workers j).exchange_of_mem)
  · intro gen policy evs s s₀ hrun
    have hinv := OpenLoopDelivery.inv_start cfg gen clock policy poolSize stack stack' sendBuf recvBuf
    have hiff := open_run hinv (fun _ => trivial) (fun _ x hx => absurd hx List.not_mem_nil) hrun
    have hbooks := OpenLoopDelivery.inv_run hinv hrun
    refine ⟨hiff, fun halong j => ?_⟩
    exact samplesAnswered_of_allGenuine (hiff.mpr halong j) (fun rtt => (hbooks.workers j).exchange_of_mem)

/-- A call of id `0` and the response to it. -/
theorem genuine_own_response :
    ∃ c' x, Transition.run DoRequest.step ((DoRequest.start (fun _ => 0) (fun _ => 0) [] []).call ⟨0, 0, 7⟩ 1000)
        [.send (.sent 22), .recv (.data (serializeHeader ⟨0, 0, 7, response, 1000⟩)), .now 2000] = some c' ∧
      c'.exchanges = [x] ∧ Genuine x := by
  have hidle : (Transition.run DoRequest.step ((DoRequest.start (fun _ => 0) (fun _ => 0) [] []).call ⟨0, 0, 7⟩ 1000)
      [.send (.sent 22), .recv (.data (serializeHeader ⟨0, 0, 7, response, 1000⟩)), .now 2000]).map
        DoRequest.Client.phase = some .idle := by decide +kernel
  obtain ⟨c', hrun, hc'⟩ := Option.map_eq_some_iff.mp hidle
  have hcalls := genuine_iff_answered ⟨0, 1⟩ 1 1000 (fun _ _ => 0) (fun _ _ => 0) (fun _ => []) (fun _ => [])
  obtain ⟨x, hx, -, hiff⟩ := hcalls.1 (DoRequest.start (fun _ => 0) (fun _ => 0) [] []) c' ⟨0, 0, 7⟩ 1000 _
    (serializeHeader ⟨0, 0, 7, response, 1000⟩) (by decide) (by simp) hrun hc' ⟨[], by simp [arrived, RecvResult.bytes]⟩
  refine ⟨c', x, hrun, hx, hiff.mpr fun t _ => .inr ?_⟩
  rw [deserialize_serialize]
  exact ⟨rfl, rfl, rfl⟩

def strayResponse : List (ClosedLoop.Event 1) :=
  [.worker 0 .next, .worker 0 (.send (.sent 22)),
    .worker 0 (.recv (.data (serializeHeader ⟨7, 0, 7, response, 500⟩))), .tick 2000, .worker 0 .now,
    .worker 0 .account]

/-- The round trip to the stray response becomes a sample. -/
theorem stray_response_sampled :
    ∃ s, Transition.run (ClosedLoop.step ⟨0, 1⟩ 1 (fun _ _ => 0))
        (ClosedLoop.start 1000 1 (fun _ _ => 0) (fun _ _ => 0) (fun _ => []) (fun _ => [])) strayResponse = some s ∧
      (s.workers ⟨0, by decide⟩).samples = [1000] ∧ ¬ AllGenuine (s.workers ⟨0, by decide⟩).client ∧
      ¬ SamplesAnswered (s.workers ⟨0, by decide⟩).samples (s.workers ⟨0, by decide⟩).client.exchanges := by
  have hrun : (Transition.run (ClosedLoop.step ⟨0, 1⟩ 1 (fun _ _ => 0))
      (ClosedLoop.start 1000 1 (fun _ _ => 0) (fun _ _ => 0) (fun _ => []) (fun _ => [])) strayResponse).map
        (fun s => ((s.workers ⟨0, by decide⟩).samples, (s.workers ⟨0, by decide⟩).client.exchanges)) =
      some ([1000], [⟨⟨0, 0, 7, request, 1000⟩, [], some (⟨7, 0, 7, response, 500⟩, []), 1000⟩]) := by decide +kernel
  obtain ⟨s, hs, heq⟩ := Option.map_eq_some_iff.mp hrun
  obtain ⟨hsamples, hx⟩ := Prod.mk.inj heq
  have hno {resp : MessageHeader} {payload : List UInt8}
      (h : some ((⟨7, 0, 7, response, 500⟩ : MessageHeader), ([] : List UInt8)) = some (resp, payload))
      (hm : Matches ⟨0, 0, 7, request, 1000⟩ resp) : False := by
    cases h
    exact absurd hm.id (by decide)
  refine ⟨s, hs, hsamples, ?_, ?_⟩
  · intro hg
    rw [AllGenuine, hx, List.forall_mem_singleton] at hg
    obtain ⟨resp, payload, heq, hm⟩ := hg (by decide)
    exact hno heq hm
  · intro hg
    rw [hsamples, hx] at hg
    obtain ⟨x, hmem, -, resp, payload, heq, hm⟩ := hg 1000 (by simp)
    obtain rfl := List.mem_singleton.mp hmem
    exact hno heq hm

end DcBench.GenuineSamples

import DcBench.OpenLoopMoves
import DcBench.Lib.Partition
import Mathlib.Data.List.Forall2

namespace DcBench.OpenLoopDelivery

open DcBench.Lib DcBench.Message DcBench.Workload DcBench.OpenLoop DcBench.OpenLoopMoves
open DcBench.DoRequest (Exchange Inside inside_of_step)

/-- The exchange `x` is what `do_request` made of `req`. -/
def Serves (req : PendingRequest) (x : Exchange) : Prop := ∃ now, x.request = req.call.header now

def sample (cfg : WorkloadConfig) (x : Exchange) : Option UInt64 :=
  if 0 < x.rtt ∧ cfg.warmupRequests.toUInt64 ≤ x.request.id then some x.rtt else none

def frameBytes (x : Exchange) : Nat := headerSize + x.request.payloadSize.toNat

/-- The request that the worker has popped and not yet finished. -/
def held (w : Worker) : List PendingRequest :=
  match w.phase with
  | .popped req | .inRequest req => [req]
  | _ => []

/-- The exchanges that are in `samples` and in `total_bytes_` already. -/
def accounted (w : Worker) : List Exchange :=
  match w.phase with
  | .returned _ _ => w.client.exchanges.dropLast
  | _ => w.client.exchanges

def PhaseOk (running : Bool) (given : List PendingRequest) (w : Worker) : Prop :=
  match w.phase with
  | .testRunning | .pop | .popped _ => w.client.phase = .idle
  | .testSize => w.client.phase = .idle ∧ running = false
  | .inRequest req => ∃ now, w.client.phase.header = some (req.call.header now)
  | .returned req rtt => w.client.phase = .idle ∧
      ∃ xs x, w.client.exchanges = xs ++ [x] ∧ Serves req x ∧ x.rtt = rtt ∧ req ∈ given
  | .exited => w.client.phase = .idle ∧ running = false ∧ w.queue = []

/-- The worker of a connection that was given the requests `given`. It has
finished the first of them, may hold the next one, and the rest is queued. -/
structure WorkerInv (cfg : WorkloadConfig) (running : Bool) (given : List PendingRequest) (w : Worker) : Prop where
  served : ∃ served, given = served ++ (held w ++ w.queue) ∧ List.Forall₂ Serves served w.client.exchanges
  marked : ∀ req ∈ given, req.warmup = decide (req.id < cfg.warmupRequests.toUInt64)
  phase : PhaseOk running given w
  samples : w.samples = (accounted w).filterMap (sample cfg)

variable {cfg : WorkloadConfig} {running : Bool} {given : List PendingRequest} {w w' : Worker} {clock : UInt64}
  {ev : WorkerEvent}

theorem PhaseOk.inRequest (h : PhaseOk running given w) {req : PendingRequest} (hp : w.phase = .inRequest req) :
    ∃ now, w.client.phase.header = some (req.call.header now) := by
  rw [PhaseOk, hp] at h
  exact h

theorem accounted_isPrefix (w : Worker) : accounted w <+: w.client.exchanges := by
  unfold accounted
  split
  · exact List.dropLast_prefix _
  · exact List.prefix_rfl

theorem WorkerInv.exchange_of_mem (h : WorkerInv cfg running given w) {rtt : UInt64} (hmem : rtt ∈ w.samples) :
    ∃ x ∈ w.client.exchanges, x.rtt = rtt ∧ rtt ≠ 0 := by
  rw [h.samples, List.mem_filterMap] at hmem
  obtain ⟨x, hx, hs⟩ := hmem
  rw [sample, Option.ite_none_right_eq_some, Option.some.injEq] at hs
  obtain ⟨⟨hpos, -⟩, rfl⟩ := hs
  exact ⟨x, (accounted_isPrefix w).subset hx, rfl, UInt64.pos_iff_ne_zero.mp hpos⟩

theorem PhaseOk.returned (h : PhaseOk running given w) {req : PendingRequest} {rtt : UInt64}
    (hp : w.phase = .returned req rtt) : w.client.phase = .idle ∧
      ∃ xs x, w.client.exchanges = xs ++ [x] ∧ Serves req x ∧ x.rtt = rtt ∧ req ∈ given := by
  rw [PhaseOk, hp] at h
  exact h

theorem WorkerInv.setPhase (h : WorkerInv cfg running given w) {p : Phase}
    (hheld : held { w with phase := p } = held w) (hacc : accounted { w with phase := p } = accounted w)
    (hp : PhaseOk running given { w with phase := p }) : WorkerInv cfg running given { w with phase := p } where
  served := by
    rw [hheld]
    exact h.served
  marked := h.marked
  phase := hp
  samples := by
    rw [hacc]
    exact h.samples

theorem WorkerInv.call (h : WorkerInv cfg running given w) {req : PendingRequest} (hp : w.phase = .popped req) :
    WorkerInv cfg running given { w with client := w.client.call req.call clock, phase := .inRequest req } where
  served := by simpa [held, hp] using h.served
  marked := h.marked
  phase := ⟨clock, rfl⟩
  samples := by simpa [accounted, hp] using h.samples

theorem WorkerInv.goesOn (h : WorkerInv cfg running given w) {req : PendingRequest} {ev : DoRequest.Event}
    {c : DoRequest.Client} (hp : w.phase = .inRequest req) (hs : DoRequest.step w.client ev = some c)
    (hc : c.phase ≠ .idle) : WorkerInv cfg running given { w with client := c } := by
  obtain ⟨now, hhdr⟩ := h.phase.inRequest hp
  cases inside_of_step hhdr hs with
  | fails hidle | returns hidle => exact absurd hidle hc
  | goesOn hhdr' hx =>
    exact {
      served := by simpa [held, hp, hx] using h.served
      marked := h.marked
      phase := by
        simp only [PhaseOk, hp]
        exact ⟨now, hhdr'⟩
      samples := by simpa [accounted, hp, hx] using h.samples }

theorem WorkerInv.returns (h : WorkerInv cfg running given w) {req : PendingRequest} {ev : DoRequest.Event}
    {c : DoRequest.Client} (hp : w.phase = .inRequest req) (hs : DoRequest.step w.client ev = some c)
    (hc : c.phase = .idle) :
    WorkerInv cfg running given
      { w with
        client := c
        phase := .returned req ((c.exchanges.getLast?.map Exchange.rtt).getD 0)
        returns := w.returns ++ [clock] } := by
  obtain ⟨now, hhdr⟩ := h.phase.inRequest hp
  obtain ⟨x, hx, hreq⟩ : ∃ x, c.exchanges = w.client.exchanges ++ [x] ∧ x.request = req.call.header now := by
    cases inside_of_step hhdr hs with
    | goesOn hhdr' => simp [hc, DoRequest.Phase.header] at hhdr'
    | fails _ _ hx => exact ⟨_, hx, rfl⟩
    | returns _ _ _ _ _ hx => exact ⟨_, hx, rfl⟩
  obtain ⟨served, hgiven, hall⟩ := h.served
  have hgiven' : given = (served ++ [req]) ++ w.queue := by simpa [held, hp] using hgiven
  exact {
    served := by
      refine ⟨served ++ [req], by simpa [held] using hgiven', ?_⟩
      rw [hx]
      exact List.rel_append hall (.cons ⟨now, hreq⟩ .nil)
    marked := h.marked
    phase := ⟨hc, w.client.exchanges, x, hx, ⟨now, hreq⟩, by simp [hx], by simp [hgiven']⟩
    samples := by simpa [accounted, hp, hx] using h.samples }

theorem WorkerInv.account (h : WorkerInv cfg running given w) {req : PendingRequest} {rtt : UInt64}
    (hp : w.phase = .returned req rtt) :
    WorkerInv cfg running given
      { w with
        phase := .testRunning
        samples := if 0 < rtt ∧ req.warmup = false then w.samples ++ [rtt] else w.samples } := by
  obtain ⟨hidle, xs, x, hx, ⟨now, hreq⟩, rfl, hmem⟩ := h.phase.returned hp
  have hsamples : w.samples = xs.filterMap (sample cfg) := by simpa [accounted, hp, hx] using h.samples
  have hid : x.request.id = req.id := by rw [hreq]; rfl
  have hmark : req.warmup = false ↔ cfg.warmupRequests.toUInt64 ≤ x.request.id := by
    rw [h.marked req hmem, hid, decide_eq_false_iff_not, UInt64.not_lt]
  exact {
    served := by simpa [held, hp] using h.served
    marked := h.marked
    phase := hidle
    samples := by
      simp only [accounted, hx, List.filterMap_append, hsamples, hmark]
      by_cases hs : 0 < x.rtt ∧ cfg.warmupRequests.toUInt64 ≤ x.request.id
      · rw [if_pos hs]
        simp [sample, hs]
      · rw [if_neg hs]
        simp [sample, hs] }

theorem WorkerInv.moved (h : WorkerInv cfg running given w) (hm : Moved running clock ev w w') :
    WorkerInv cfg running given w' := by
  have hph := h.phase
  cases hm with
  | enter hev hp hr =>
    simp only [PhaseOk, hp] at hph
    exact h.setPhase (by simp [held, hp]) (by simp [accounted, hp]) hph
  | leave hev hp hr =>
    simp only [PhaseOk, hp] at hph
    exact h.setPhase (by simp [held, hp]) (by simp [accounted, hp]) ⟨hph, hr⟩
  | again hev hp hq =>
    simp only [PhaseOk, hp] at hph
    exact h.setPhase (by simp [held, hp]) (by simp [accounted, hp]) hph.1
  | exit hev hp hq =>
    simp only [PhaseOk, hp] at hph
    exact h.setPhase (by simp [held, hp]) (by simp [accounted, hp]) ⟨hph.1, hph.2, hq⟩
  | timeout hev hp hq =>
    simp only [PhaseOk, hp] at hph
    exact h.setPhase (by simp [held, hp]) (by simp [accounted, hp]) hph
  | pop hev req queue hp hq =>
    simp only [PhaseOk, hp] at hph
    exact {
      served := by simpa [held, hp, hq] using h.served
      marked := h.marked
      phase := hph
      samples := by simpa [accounted, hp] using h.samples }
  | call hev req hp hc => exact h.call hp
  | goesOn hev req ev c hp hs hc => exact h.goesOn hp hs hc
  | returns hev req ev c hp hs ht hc => exact h.returns hp hs hc
  | account hev req rtt hp => exact h.account hp

theorem WorkerInv.push (h : WorkerInv cfg true given w) {req : PendingRequest}
    (hreq : req.warmup = decide (req.id < cfg.warmupRequests.toUInt64)) :
    WorkerInv cfg true (given ++ [req]) { w with queue := w.queue ++ [req] } where
  served := by
    obtain ⟨served, hgiven, hall⟩ := h.served
    exact ⟨served, by simp [hgiven, held], hall⟩
  marked := by
    intro r hr
    obtain hr | hr := List.mem_append.mp hr
    · exact h.marked r hr
    · obtain rfl : r = req := by simpa using hr
      exact hreq
  phase := by
    have hph := h.phase
    cases hp : w.phase with
    | testRunning | pop | popped _ | inRequest _ => simpa [PhaseOk, hp] using hph
    | testSize | exited => simp [PhaseOk, hp] at hph
    | returned _ _ =>
      obtain ⟨hidle, xs, x, hx, hs, hrtt, hmem⟩ := hph.returned hp
      simp only [PhaseOk]
      exact ⟨hidle, xs, x, hx, hs, hrtt, List.mem_append_left _ hmem⟩
  samples := h.samples

theorem WorkerInv.stop (h : WorkerInv cfg true given w) : WorkerInv cfg false given w where
  served := h.served
  marked := h.marked
  phase := by
    have hph := h.phase
    cases hp : w.phase <;> simp_all [PhaseOk]
  samples := h.samples

theorem bytes_moved (h : WorkerInv cfg running given w) (hm : Moved running clock ev w w') :
    ((accounted w').map frameBytes).sum = ((accounted w).map frameBytes).sum + w.added.toNat := by
  cases hm with
  | enter _ hp | leave _ hp | again _ hp | exit _ hp | pop _ _ _ hp | timeout _ hp | call _ _ hp =>
    simp [accounted, Worker.added, hp]
  | goesOn _ req dev c hp hs hc =>
    obtain ⟨now, hhdr⟩ := h.phase.inRequest hp
    cases inside_of_step hhdr hs with
    | fails hidle | returns hidle => exact absurd hidle hc
    | goesOn _ hx => simp [accounted, Worker.added, hp, hx]
  | returns _ req dev c hp hs ht hc =>
    obtain ⟨now, hhdr⟩ := h.phase.inRequest hp
    cases inside_of_step hhdr hs with
    | goesOn hhdr' => simp [hc, DoRequest.Phase.header] at hhdr'
    | fails _ _ hx | returns _ _ _ _ _ hx => simp [accounted, Worker.added, hp, hx]
  | account _ req rtt hp =>
    obtain ⟨-, xs, x, hx, ⟨now, hreq⟩, -⟩ := h.phase.returned hp
    have hadd : w.added.toNat = headerSize + req.size.toNat := by
      rw [Worker.added, hp]
      exact toNat_frame req.size
    rw [hadd]
    simp [accounted, hp, hx, frameBytes, hreq, DoRequest.Call.header, PendingRequest.call]

variable {P : Nat} {gen : Nat → Turn} {s s' : State P}

def givenTo (s : State P) (j : Fin P) : List PendingRequest :=
  (s.issued.filter (fun x => x.conn = (j : Nat))).map Issued.req

def requests (cfg : WorkloadConfig) (gen : Nat → Turn) (n : Nat) : List PendingRequest :=
  (List.range n).map (fun k => pending cfg (UInt32.ofNat k) (gen k).size)

structure Inv (cfg : WorkloadConfig) (gen : Nat → Turn) (s : State P) : Prop where
  issued : s.issued.map Issued.req = requests cfg gen s.i.toNat
  conns : ∀ x ∈ s.issued, x.conn < P
  turn : s.i ≤ cfg.total
  stopped : s.running = false → s.i = cfg.total
  workers : ∀ j, WorkerInv cfg s.running (givenTo s j) (s.workers j)
  totalBytes : s.totalBytes = UInt64.ofNat (∑ j, ((accounted (s.workers j)).map frameBytes).sum)

theorem pending_marked (cfg : WorkloadConfig) (i size : UInt32) :
    (pending cfg i size).warmup = decide ((pending cfg i size).id < cfg.warmupRequests.toUInt64) := by
  simp only [pending, UInt32.toUInt64_lt]

theorem inv_push {j : Fin P} (h : Inv cfg gen s) (hp : Pushed cfg gen s s' j) : Inv cfg gen s' := by
  have hi := toNat_succ_of_lt hp.lt
  have hrun := hp.running
  rw [hp.eq]
  exact {
    issued := by
      simp only [List.map_append, h.issued, requests, hi, List.range_succ, List.map_append]
      simp
    conns := by
      intro x hx
      obtain hx | hx := List.mem_append.mp hx
      · exact h.conns x hx
      · obtain rfl := List.mem_singleton.mp hx
        exact j.isLt
    turn := by
      have hlt := UInt32.lt_iff_toNat_lt.mp hp.lt
      exact UInt32.le_iff_toNat_le.mpr (by rw [hi]; omega)
    stopped := by
      intro hstop
      simp [hrun] at hstop
    workers := by
      intro k
      by_cases hk : k = j
      · subst hk
        have hpush := (hrun ▸ h.workers k).push (pending_marked cfg s.i (gen s.i.toNat).size)
        simpa [givenTo, hrun] using hpush
      · have hne : ¬ (j : Nat) = k := fun he => hk (Fin.ext he.symm)
        simpa [givenTo, Function.update_of_ne hk, hne] using h.workers k
    totalBytes := by
      rw [h.totalBytes, Partition.sum_update (fun w => ((accounted w).map frameBytes).sum) _ _ _ 0]
      · rfl
      · rfl }

theorem inv_worker {j : Fin P} {w : Worker} (h : Inv cfg gen s)
    (hm : Moved s.running s.clock ev (s.workers j) w) :
    Inv cfg gen { s with
      workers := Function.update s.workers j w
      totalBytes := s.totalBytes + (s.workers j).added } where
  issued := h.issued
  conns := h.conns
  turn := h.turn
  stopped := h.stopped
  workers := by
    apply (Function.forall_update_iff s.workers (fun k w => WorkerInv cfg s.running (givenTo s k) w)).mpr
    exact ⟨(h.workers j).moved hm, fun k _ => h.workers k⟩
  totalBytes := by
    have hsum := Partition.sum_update (fun w => ((accounted w).map frameBytes).sum) s.workers j w _
      (bytes_moved (h.workers j) hm)
    simp only [hsum, h.totalBytes, UInt64.ofNat_add, UInt64.ofNat_toNat]

theorem inv_step {e : Event P} (h : Inv cfg gen s) (hs : step cfg gen s e = some s') : Inv cfg gen s' := by
  cases e with
  | tick t =>
    simp only [step, Option.ite_none_right_eq_some, Option.some.injEq] at hs
    obtain ⟨-, rfl⟩ := hs
    exact ⟨h.issued, h.conns, h.turn, h.stopped, h.workers, h.totalBytes⟩
  | push =>
    obtain ⟨j, hp⟩ := pushed_of_step hs
    exact inv_push h hp
  | stop =>
    simp only [step, Option.ite_none_right_eq_some, Option.some.injEq] at hs
    obtain ⟨⟨hrun, hlt⟩, rfl⟩ := hs
    have heq : s.i = cfg.total := UInt32.le_antisymm h.turn (UInt32.not_lt.mp hlt)
    exact ⟨h.issued, h.conns, h.turn, fun _ => heq, fun j => (hrun ▸ h.workers j).stop, h.totalBytes⟩
  | worker j ev =>
    obtain ⟨w, hm, rfl⟩ := worker_of_step hs
    exact inv_worker h hm

theorem inv_start (cfg : WorkloadConfig) (gen : Nat → Turn) (clock : UInt64)
    (policy : PriorityScheduler.SchedulingPolicy) (poolSize : UInt32)
    (stack stack' : Fin poolSize.toNat → Fin headerSize → UInt8)
    (sendBuf recvBuf : Fin poolSize.toNat → List UInt8) :
    Inv cfg gen (start clock policy poolSize stack stack' sendBuf recvBuf) where
  issued := rfl
  conns := by simp [start]
  turn := UInt32.le_iff_toNat_le.mpr (Nat.zero_le _)
  stopped := by simp [start]
  workers := fun j => ⟨⟨[], rfl, .nil⟩, by simp [givenTo, start], rfl, rfl⟩
  totalBytes := by simp [start, accounted, DoRequest.start]

theorem inv_run {s₀ : State P} (h₀ : Inv cfg gen s₀) {es : List (Event P)}
    (hr : Transition.run (step cfg gen) s₀ es = some s) : Inv cfg gen s :=
  Transition.invariant (fun _ _ _ h hs => inv_step h hs) h₀ hr

end DcBench.OpenLoopDelivery

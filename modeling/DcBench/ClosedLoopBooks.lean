import DcBench.ClosedLoop
import DcBench.Accounts
import DcBench.Lib.Partition

namespace DcBench.ClosedLoopBooks

open DcBench.Lib DcBench.Message DcBench.Workload DcBench.ClosedLoop DcBench.Accounts
open DcBench.DoRequest (Exchange Call Inside inside_of_step)

/-- What a finished call of `do_request` leaves in the books of its worker. -/
def entry (warmup : UInt64) (x : Exchange) : Entry where
  size := x.request.payloadSize
  added := true
  sample := if 0 < x.rtt ∧ warmup ≤ x.request.id then some x.rtt else none

def call (sizes : Nat → UInt32) (k : Nat) : Call := ⟨UInt64.ofNat k, sizes k, priorityForSize (sizes k)⟩

def callOf (hdr : MessageHeader) : Call := ⟨hdr.id, hdr.payloadSize, hdr.priority⟩

/-- The exchanges that are in `samples` and in `total_bytes_` already. -/
def accounted (w : Worker) : List Exchange :=
  match w.phase with
  | .returned _ _ => w.client.exchanges.dropLast
  | _ => w.client.exchanges

/-- How many requests the worker has issued. -/
def issued (w : Worker) : Nat :=
  match w.phase with
  | .inRequest _ | .returned _ _ => w.i.toNat + 1
  | _ => w.i.toNat

def PhaseOk (limit : UInt32) (sizes : Nat → UInt32) (w : Worker) : Prop :=
  match w.phase with
  | .test => w.client.phase = .idle
  | .inRequest size => w.i < limit ∧ ∃ hdr, w.client.phase.header = some hdr ∧ callOf hdr = call sizes w.i.toNat ∧
      size = sizes w.i.toNat
  | .returned size rtt => w.client.phase = .idle ∧ w.i < limit ∧ ∃ xs x, w.client.exchanges = xs ++ [x] ∧
      callOf x.request = call sizes w.i.toNat ∧ size = sizes w.i.toNat ∧ x.rtt = rtt
  | .exited => w.client.phase = .idle ∧ w.i = limit

/-- The worker issues the requests of its generator in order, and has accounted
for all but the present one. -/
structure WorkerInv (warmup count : UInt32) (sizes : Nat → UInt32) (w : Worker) : Prop where
  turn : w.i ≤ warmup + count
  calls : w.client.calls.map callOf = (List.range (issued w)).map (call sizes)
  phase : PhaseOk (warmup + count) sizes w
  samples : w.samples = (accounted w).filterMap (fun x => (entry warmup.toUInt64 x).sample)

variable {warmup count : UInt32} {sizes : Nat → UInt32} {clock : UInt64} {w w' : Worker}

theorem sample_eq_some_iff {warmup rtt : UInt64} {x : Exchange} :
    (entry warmup x).sample = some rtt ↔ (0 < x.rtt ∧ warmup ≤ x.request.id) ∧ x.rtt = rtt := by
  rw [entry, Option.ite_none_right_eq_some, Option.some.injEq]

theorem accounted_isPrefix (w : Worker) : accounted w <+: w.client.exchanges := by
  unfold accounted
  split
  · exact List.dropLast_prefix _
  · exact List.prefix_rfl

theorem WorkerInv.exchange_of_mem (h : WorkerInv warmup count sizes w) {rtt : UInt64} (hmem : rtt ∈ w.samples) :
    ∃ x ∈ w.client.exchanges, x.rtt = rtt ∧ rtt ≠ 0 := by
  rw [h.samples, List.mem_filterMap] at hmem
  obtain ⟨x, hx, hs⟩ := hmem
  obtain ⟨⟨hpos, -⟩, rfl⟩ := sample_eq_some_iff.mp hs
  exact ⟨x, (accounted_isPrefix w).subset hx, rfl, UInt64.pos_iff_ne_zero.mp hpos⟩

theorem id_of_callOf {hdr : MessageHeader} {i : UInt32} (h : callOf hdr = call sizes i.toNat) :
    hdr.id = i.toUInt64 := by
  have hid := congrArg Call.id h
  rw [call, UInt64.ofNat_uInt32ToNat] at hid
  exact hid

theorem WorkerInv.inRequest (h : WorkerInv warmup count sizes w) {size : UInt32} (hp : w.phase = .inRequest size) :
    w.i < warmup + count ∧ ∃ hdr, w.client.phase.header = some hdr ∧ callOf hdr = call sizes w.i.toNat ∧
      size = sizes w.i.toNat := by
  have hph := h.phase
  rw [PhaseOk, hp] at hph
  exact hph

theorem WorkerInv.returned (h : WorkerInv warmup count sizes w) {size : UInt32} {rtt : UInt64}
    (hp : w.phase = .returned size rtt) : w.client.phase = .idle ∧ w.i < warmup + count ∧
      ∃ xs x, w.client.exchanges = xs ++ [x] ∧ callOf x.request = call sizes w.i.toNat ∧
        size = sizes w.i.toNat ∧ x.rtt = rtt := by
  have hph := h.phase
  rw [PhaseOk, hp] at hph
  exact hph

theorem WorkerInv.call (h : WorkerInv warmup count sizes w) (hp : w.phase = .test) (hlt : w.i < warmup + count)
    (hc : w.client.phase = .idle) :
    WorkerInv warmup count sizes
      { w with
        client := w.client.call ⟨w.i.toUInt64, sizes w.i.toNat, priorityForSize (sizes w.i.toNat)⟩ clock
        phase := .inRequest (sizes w.i.toNat) } := by
  have hcall (now : UInt64) :
      callOf (Call.header ⟨w.i.toUInt64, sizes w.i.toNat, priorityForSize (sizes w.i.toNat)⟩ now) =
        ClosedLoopBooks.call sizes w.i.toNat := by
    rw [ClosedLoopBooks.call, UInt64.ofNat_uInt32ToNat]
    rfl
  exact {
    turn := h.turn
    calls := by
      have hcalls := h.calls
      simp only [issued, hp] at hcalls
      simp only [issued]
      rw [DoRequest.calls_call hc, List.map_append, hcalls, List.range_succ, List.map_append, List.map_singleton,
        List.map_singleton, hcall]
    phase := ⟨hlt, _, rfl, hcall clock, rfl⟩
    samples := by simpa [accounted, hp] using h.samples }

theorem WorkerInv.exit (h : WorkerInv warmup count sizes w) (hp : w.phase = .test) (hlt : ¬ w.i < warmup + count) :
    WorkerInv warmup count sizes { w with phase := .exited } where
  turn := h.turn
  calls := by
    have hcalls := h.calls
    simp only [issued, hp] at hcalls
    exact hcalls
  phase := by
    have hph := h.phase
    simp only [PhaseOk, hp] at hph
    exact ⟨hph, UInt32.le_antisymm h.turn (UInt32.not_lt.mp hlt)⟩
  samples := by simpa [accounted, hp] using h.samples

theorem WorkerInv.goesOn (h : WorkerInv warmup count sizes w) {size : UInt32} {dev : DoRequest.Event}
    {c : DoRequest.Client} (hp : w.phase = .inRequest size) (hs : DoRequest.step w.client dev = some c)
    (hc : c.phase ≠ .idle) : WorkerInv warmup count sizes { w with client := c } := by
  obtain ⟨hlt, hdr, hhdr, hcall, hsize⟩ := h.inRequest hp
  have hin := inside_of_step hhdr hs
  have hcalls := DoRequest.calls_inside hhdr hin
  cases hin with
  | fails hidle | returns hidle => exact absurd hidle hc
  | goesOn hhdr' hx =>
    exact {
      turn := h.turn
      calls := by
        rw [hcalls, h.calls]
        rfl
      phase := by
        simp only [PhaseOk, hp]
        exact ⟨hlt, hdr, hhdr', hcall, hsize⟩
      samples := by simpa [accounted, hp, hx] using h.samples }

theorem WorkerInv.returns (h : WorkerInv warmup count sizes w) {size : UInt32} {dev : DoRequest.Event}
    {c : DoRequest.Client} (hp : w.phase = .inRequest size) (hs : DoRequest.step w.client dev = some c)
    (hc : c.phase = .idle) :
    WorkerInv warmup count sizes
      { w with
        client := c
        phase := .returned size ((c.exchanges.getLast?.map Exchange.rtt).getD 0) } := by
  obtain ⟨hlt, hdr, hhdr, hcall, hsize⟩ := h.inRequest hp
  have hin := inside_of_step hhdr hs
  have hcalls := DoRequest.calls_inside hhdr hin
  obtain ⟨x, hx, hreq⟩ : ∃ x, c.exchanges = w.client.exchanges ++ [x] ∧ x.request = hdr := by
    cases hin with
    | goesOn hhdr' => simp [hc, DoRequest.Phase.header] at hhdr'
    | fails _ _ hx => exact ⟨_, hx, rfl⟩
    | returns _ _ _ _ _ hx => exact ⟨_, hx, rfl⟩
  exact {
    turn := h.turn
    calls := by
      have hold := h.calls
      simp only [issued, hp] at hold
      rw [hcalls, hold]
      rfl
    phase := ⟨hc, hlt, w.client.exchanges, x, hx, by rw [hreq, hcall], hsize, by simp [hx]⟩
    samples := by simpa [accounted, hp, hx] using h.samples }

theorem WorkerInv.account (h : WorkerInv warmup count sizes w) {size : UInt32} {rtt : UInt64}
    (hp : w.phase = .returned size rtt) :
    WorkerInv warmup count sizes
      { w with
        phase := .test
        i := w.i + 1
        samples := if 0 < rtt ∧ warmup ≤ w.i then w.samples ++ [rtt] else w.samples } := by
  obtain ⟨hidle, hlt, xs, x, hx, hcall, hsize, rfl⟩ := h.returned hp
  have hsucc := toNat_succ_of_lt hlt
  have hsamples : w.samples = xs.filterMap (fun x => (entry warmup.toUInt64 x).sample) := by
    simpa [accounted, hp, hx] using h.samples
  have hle : warmup ≤ w.i ↔ warmup.toUInt64 ≤ x.request.id := by
    rw [id_of_callOf hcall, UInt32.toUInt64_le]
  exact {
    turn := by
      rw [UInt32.le_iff_toNat_le, hsucc]
      exact UInt32.lt_iff_toNat_lt.mp hlt
    calls := by
      have hold := h.calls
      simp only [issued, hp] at hold
      simp only [issued, hsucc]
      exact hold
    phase := hidle
    samples := by
      simp only [accounted, hx, List.filterMap_append, hsamples, hle]
      by_cases hs : 0 < x.rtt ∧ warmup.toUInt64 ≤ x.request.id
      · rw [if_pos hs]
        simp [entry, hs]
      · rw [if_neg hs]
        simp [entry, hs] }

theorem WorkerInv.moved (h : WorkerInv warmup count sizes w) (hm : Moved warmup count sizes clock w w') :
    WorkerInv warmup count sizes w' := by
  cases hm with
  | call hp hlt hc => exact h.call hp hlt hc
  | exit hp hlt => exact h.exit hp hlt
  | goesOn size dev c hp hs hc => exact h.goesOn hp hs hc
  | returns size dev c hp hs ht hc => exact h.returns hp hs hc
  | account size rtt hp => exact h.account hp

def bytes (w : Worker) : Nat := ((accounted w).map (fun x => headerSize + x.request.payloadSize.toNat)).sum

theorem bytes_moved (h : WorkerInv warmup count sizes w) (hm : Moved warmup count sizes clock w w') :
    bytes w' = bytes w + w.added.toNat := by
  cases hm with
  | call hp | exit hp => simp [bytes, accounted, Worker.added, hp]
  | goesOn size dev c hp hs hc =>
    obtain ⟨-, hdr, hhdr, -⟩ := h.inRequest hp
    cases inside_of_step hhdr hs with
    | fails hidle | returns hidle => exact absurd hidle hc
    | goesOn _ hx => simp [bytes, accounted, Worker.added, hp, hx]
  | returns size dev c hp hs ht hc =>
    obtain ⟨-, hdr, hhdr, -⟩ := h.inRequest hp
    cases inside_of_step hhdr hs with
    | goesOn hhdr' => simp [hc, DoRequest.Phase.header] at hhdr'
    | fails _ _ hx | returns _ _ _ _ _ hx => simp [bytes, accounted, Worker.added, hp, hx]
  | account size rtt hp =>
    obtain ⟨-, -, xs, x, hx, hcall, hsize, -⟩ := h.returned hp
    have hpay : x.request.payloadSize = size := (congrArg Call.size hcall).trans hsize.symm
    have hadd : w.added.toNat = headerSize + size.toNat := by
      rw [Worker.added, hp]
      exact toNat_frame size
    rw [hadd]
    simp [bytes, accounted, hp, hx, hpay]

variable {cfg : WorkloadConfig} {poolSize : UInt32} {gens : Fin poolSize.toNat → Nat → UInt32}
  {s s' : State poolSize.toNat}

structure Inv (cfg : WorkloadConfig) (poolSize : UInt32) (gens : Fin poolSize.toNat → Nat → UInt32)
    (s : State poolSize.toNat) : Prop where
  workers : ∀ j : Fin poolSize.toNat, WorkerInv (cfg.warmup poolSize) (cfg.count poolSize (UInt32.ofNat j)) (gens j)
    (s.workers j)
  totalBytes : s.totalBytes = UInt64.ofNat (∑ j, bytes (s.workers j))

theorem inv_step {e : Event poolSize.toNat} (h : Inv cfg poolSize gens s) (hs : step cfg poolSize gens s e = some s') :
    Inv cfg poolSize gens s' := by
  refine ⟨forall_workers_of_step hs h.workers (fun j w hm => (h.workers j).moved hm), ?_⟩
  cases e with
  | tick t =>
    obtain ⟨-, heq⟩ := Option.ite_none_right_eq_some.mp hs
    cases heq
    exact h.totalBytes
  | worker j ev =>
    obtain ⟨w, hw, rfl⟩ := Option.map_eq_some_iff.mp hs
    have hsum := Partition.sum_update bytes s.workers j w _ (bytes_moved (h.workers j) (moved_of_step hw))
    simp only [hsum, h.totalBytes, UInt64.ofNat_add, UInt64.ofNat_toNat]

theorem inv_start (cfg : WorkloadConfig) (poolSize : UInt32) (gens : Fin poolSize.toNat → Nat → UInt32)
    (clock : UInt64) (stack stack' : Fin poolSize.toNat → Fin headerSize → UInt8)
    (sendBuf recvBuf : Fin poolSize.toNat → List UInt8) :
    Inv cfg poolSize gens (start clock poolSize stack stack' sendBuf recvBuf) where
  workers := fun j => ⟨UInt32.le_iff_toNat_le.mpr (Nat.zero_le _), rfl, rfl, rfl⟩
  totalBytes := by simp [start, bytes, accounted, DoRequest.start]

theorem inv_run {clock : UInt64} {stack stack' : Fin poolSize.toNat → Fin headerSize → UInt8}
    {sendBuf recvBuf : Fin poolSize.toNat → List UInt8} {es : List (Event poolSize.toNat)}
    (hr : Transition.run (step cfg poolSize gens) (start clock poolSize stack stack' sendBuf recvBuf) es = some s) :
    Inv cfg poolSize gens s :=
  Transition.invariant (fun _ _ _ h hs => inv_step h hs)
    (inv_start cfg poolSize gens clock stack stack' sendBuf recvBuf) hr

def Finished (s : State poolSize.toNat) : Prop := ∀ j, (s.workers j).phase = .exited

instance (s : State poolSize.toNat) : Decidable (Finished s) :=
  inferInstanceAs (Decidable (∀ j, (s.workers j).phase = .exited))

def result (s : State poolSize.toNat) : BenchmarkResult :=
  ⟨∑ j, ((s.workers j).samples : Multiset UInt64), s.totalBytes⟩

def entries (cfg : WorkloadConfig) (s : State poolSize.toNat) : Multiset Entry :=
  ∑ j, ((s.workers j).client.exchanges.map (entry (cfg.warmup poolSize).toUInt64) : Multiset Entry)

theorem accounted_of_exited (hp : w.phase = .exited) : accounted w = w.client.exchanges := by
  simp only [accounted, hp]

theorem books (h : Inv cfg poolSize gens s) (hfin : Finished s) : Books (result s) (entries cfg s) := by
  apply books_of_workers
  · intro j e he _
    obtain ⟨x, -, rfl⟩ := List.mem_map.mp he
    rfl
  · intro j
    rw [(h.workers j).samples, accounted_of_exited (hfin j), Multiset.filterMap_coe, List.filterMap_map]
    rfl
  · rw [h.totalBytes]
    congr 1
    refine Finset.sum_congr rfl ?_
    intro j _
    rw [bytes, accounted_of_exited (hfin j), frames_added_coe, List.map_map]
    · rfl
    · intro e he
      obtain ⟨x, -, rfl⟩ := List.mem_map.mp he
      rfl

theorem calls_of_exited (h : WorkerInv warmup count sizes w) (hp : w.phase = .exited) :
    w.client.exchanges.map (fun x => callOf x.request) = (List.range (warmup + count).toNat).map (call sizes) := by
  have hph := h.phase
  have hcalls := h.calls
  simp only [PhaseOk, hp] at hph
  simp only [issued, hp, hph.2, DoRequest.Client.calls, hph.1, DoRequest.Phase.header, Option.toList_none,
    List.append_nil, List.map_map] at hcalls
  exact hcalls

end DcBench.ClosedLoopBooks

import DcBench.WorkloadGenerator
import DcBench.HomaClosedLoop

namespace DcBench.OfferedClosed

open DcBench.Lib DcBench.Message DcBench.Workload DcBench.WorkloadGenerator
open DcBench.ClosedLoopBooks (call callOf)
open DcBench.DoRequest (Call)

section ClosedTcp

open DcBench.ClosedLoop DcBench.ClosedLoopBooks

variable {warmup count : UInt32} {clock : UInt64} {w w' : Worker} {ev : WorkerEvent}

theorem step_issued (f : Nat → UInt32) :
    w.step warmup count (fun _ => f (issued w)) clock ev = w.step warmup count f clock ev := by
  cases ev with
  | next =>
    cases hp : w.phase with
    | test => simp only [Worker.step, hp, issued]
    | inRequest size | returned size rtt | exited => simp only [Worker.step, hp]
  | send r | recv r | now | account => rfl

theorem issued_step {sizes : Nat → UInt32} (h : WorkerInv warmup count sizes w)
    (hs : w.step warmup count sizes clock ev = some w') :
    issued w' = issued w + if ev = .next ∧ w.i < warmup + count then 1 else 0 := by
  by_cases hev : ev = .next
  · subst hev
    cases hp : w.phase with
    | test =>
      simp only [Worker.step, hp] at hs
      by_cases hlt : w.i < warmup + count
      · rw [if_pos hlt] at hs
        obtain ⟨c, -, rfl⟩ := Option.map_eq_some_iff.mp hs
        simp only [issued, hp, hlt, and_self, if_true]
      · rw [if_neg hlt] at hs
        cases hs
        simp only [issued, hp, hlt, and_false, if_false, Nat.add_zero]
    | inRequest size | returned size rtt | exited => simp [Worker.step, hp] at hs
  · rw [if_neg (fun hc => hev hc.1), Nat.add_zero]
    have htest : w.phase ≠ .test := by
      intro hp
      cases ev <;> simp [Worker.step, hp] at hs hev
    cases moved_of_step hs with
    | call hp hlt hc => exact absurd hp htest
    | exit hp hlt => exact absurd hp htest
    | goesOn size dev c hp hst hc => simp only [issued, hp]
    | returns size dev c hp hst ht hc => simp only [issued, hp]
    | account size rtt hp =>
      obtain ⟨-, hlt, -⟩ := h.returned hp
      simp only [issued, hp, toNat_succ_of_lt hlt]

end ClosedTcp

section ClosedHoma

open DcBench.HomaClosedLoop

variable {warmup count : UInt32} {clock : UInt64} {w w' : Worker} {ev : WorkerEvent}

def requests (w : Worker) : List MessageHeader := w.exchanges.map Exchange.request ++ w.phase.header.toList

def issuedHoma (w : Worker) : Nat := w.i.toNat + w.phase.header.toList.length

theorem step_issuedHoma (f : Nat → UInt32) :
    w.step warmup count (fun _ => f (issuedHoma w)) clock ev = w.step warmup count f clock ev := by
  cases ev with
  | next =>
    cases hp : w.phase with
    | test => simp only [Worker.step, hp, issuedHoma, Phase.header, Option.toList_none, List.length_nil, Nat.add_zero]
    | socket | send hdr | recv hdr | received hdr received | stamped hdr received recvTs | exited =>
      simp only [Worker.step, hp]
  | socket valid | send r | recv r | now | account => rfl

theorem issuedHoma_step {sizes : Nat → UInt32} (h : WorkerInv warmup count sizes w)
    (hs : w.step warmup count sizes clock ev = some w') :
    issuedHoma w' = issuedHoma w + if ev = .next ∧ w.i < warmup + count then 1 else 0 := by
  by_cases hev : ev = .next
  · subst hev
    cases hp : w.phase with
    | test =>
      simp only [Worker.step, hp, Option.some.injEq] at hs
      subst hs
      by_cases hlt : w.i < warmup + count
      · simp [issuedHoma, hp, hlt, Phase.header]
      · simp [issuedHoma, hp, hlt, Phase.header]
    | socket | send hdr | recv hdr | received hdr received | stamped hdr received recvTs | exited =>
      simp [Worker.step, hp] at hs
  · rw [if_neg (fun hc => hev hc.1), Nat.add_zero]
    have htest : w.phase ≠ .test := by
      intro hp
      cases ev <;> simp [Worker.step, hp] at hs hev
    have hsucc {hdr : MessageHeader} (hp : w.phase.header = some hdr) : (w.i + 1).toNat = w.i.toNat + 1 :=
      toNat_succ_of_lt (h.busy hdr hp).1
    cases moved_of_step hs with
    | stamp hp hlt => exact absurd hp htest
    | exit hp hlt => exact absurd hp htest
    | opened hp | invalid hp => simp [issuedHoma, hp, Phase.header]
    | send hdr hp | recv hdr received hp | now hdr received hp => simp [issuedHoma, hp, Phase.header]
    | sendFails hdr hp =>
      have hh : w.phase.header = some hdr := by rw [hp]; rfl
      rw [issuedHoma, issuedHoma, hh, hsucc hh]
      rfl
    | account hdr received recvTs hp =>
      have hh : w.phase.header = some hdr := by rw [hp]; rfl
      rw [issuedHoma, issuedHoma, hh, hsucc hh]
      rfl

theorem requests_eq {sizes : Nat → UInt32} (h : WorkerInv warmup count sizes w) :
    (requests w).map callOf = (List.range (issuedHoma w)).map (call sizes) := by
  cases hh : w.phase.header with
  | none =>
    simp only [requests, issuedHoma, hh, Option.toList_none, List.append_nil, List.length_nil, Nat.add_zero, ← h.calls,
      List.map_map]
    rfl
  | some hdr =>
    simp only [requests, issuedHoma, hh, Option.toList_some, List.map_append, List.map_singleton, List.length_singleton,
      List.range_succ, (h.busy hdr hh).2, ← h.calls, List.map_map]
    rfl

theorem issuedHoma_le {sizes : Nat → UInt32} (h : WorkerInv warmup count sizes w) :
    issuedHoma w ≤ (warmup + count).toNat := by
  cases hh : w.phase.header with
  | none =>
    rw [issuedHoma, hh]
    exact UInt32.le_iff_toNat_le.mp h.turn
  | some hdr =>
    rw [issuedHoma, hh]
    exact UInt32.lt_iff_toNat_lt.mp (h.busy hdr hh).1

end ClosedHoma

variable {D G : Type} (lib : Library D G) (cfg : GeneratorConfig D)

def limit (j : Fin cfg.closedLoopConcurrency.toNat) : UInt32 :=
  cfg.warmup cfg.closedLoopConcurrency + cfg.count cfg.closedLoopConcurrency (UInt32.ofNat j)

def offered (j : Fin cfg.closedLoopConcurrency.toNat) : List Call :=
  (List.range (limit cfg j).toNat).map (call (sizes lib cfg (UInt32.ofNat j)))

/-- A worker at its loop test draws a size if it goes on. -/
def tcpDraws (s : ClosedLoop.State cfg.closedLoopConcurrency.toNat) :
    ClosedLoop.Event cfg.closedLoopConcurrency.toNat → Option (Fin cfg.closedLoopConcurrency.toNat)
  | .worker j .next => if (s.workers j).i < limit cfg j then some j else none
  | _ => none

def homaDraws (s : HomaClosedLoop.State cfg.closedLoopConcurrency.toNat) :
    HomaClosedLoop.Event cfg.closedLoopConcurrency.toNat → Option (Fin cfg.closedLoopConcurrency.toNat)
  | .worker j .next => if (s.workers j).i < limit cfg j then some j else none
  | _ => none

/-- `TcpClient::run_closed_loop` with the generators of its workers. -/
def tcpClosedStep :=
  Source.drawing (nextSize lib cfg)
    (fun sizes => ClosedLoop.step cfg.toWorkloadConfig cfg.closedLoopConcurrency (fun j _ => sizes j)) (tcpDraws cfg)

/-- `HomaClient::run_closed_loop` with the generators of its workers. -/
def homaClosedStep :=
  Source.drawing (nextSize lib cfg)
    (fun sizes => HomaClosedLoop.step cfg.toWorkloadConfig cfg.closedLoopConcurrency (fun j _ => sizes j))
    (homaDraws cfg)

variable {lib cfg}

theorem run_of_tcpClosed {s₀ : ClosedLoop.State cfg.closedLoopConcurrency.toNat}
    {g : Fin cfg.closedLoopConcurrency.toNat → G} {es : List (ClosedLoop.Event cfg.closedLoopConcurrency.toNat)}
    {s : ClosedLoop.State cfg.closedLoopConcurrency.toNat × (Fin cfg.closedLoopConcurrency.toNat → G)}
    (h₀ : ClosedLoopBooks.Inv cfg.toWorkloadConfig cfg.closedLoopConcurrency
      (fun j => Source.stream (nextSize lib cfg) (g j)) s₀)
    (hzero : ∀ j, ClosedLoopBooks.issued (s₀.workers j) = 0)
    (hr : Transition.run (tcpClosedStep lib cfg) (s₀, g) es = some s) :
    Transition.run (ClosedLoop.step cfg.toWorkloadConfig cfg.closedLoopConcurrency
      (fun j => Source.stream (nextSize lib cfg) (g j))) s₀ es = some s.1 := by
  refine Source.run_of_drawing (fun s j => ClosedLoopBooks.issued (s.workers j)) g
    (fun _ _ _ h hs => ClosedLoopBooks.inv_step h hs) ?_ ?_ h₀ (funext hzero) hr
  · intro s e _
    cases e with
    | tick t => rfl
    | worker j ev => exact congrArg (Option.map _) (step_issued (Source.stream (nextSize lib cfg) (g j)))
  · intro s e t hinv hs
    cases e with
    | tick r =>
      obtain ⟨-, heq⟩ := Option.ite_none_right_eq_some.mp hs
      cases heq
      rfl
    | worker j ev =>
      obtain ⟨w, hw, rfl⟩ := Option.map_eq_some_iff.mp hs
      have hdraw : tcpDraws cfg s (.worker j ev) =
          if ev = .next ∧ (s.workers j).i < limit cfg j then some j else none := by
        cases ev <;> simp [tcpDraws]
      rw [hdraw]
      exact Source.count_update ClosedLoopBooks.issued s.workers (issued_step (hinv.workers j) hw)

theorem run_of_homaClosed {s₀ : HomaClosedLoop.State cfg.closedLoopConcurrency.toNat}
    {g : Fin cfg.closedLoopConcurrency.toNat → G} {es : List (HomaClosedLoop.Event cfg.closedLoopConcurrency.toNat)}
    {s : HomaClosedLoop.State cfg.closedLoopConcurrency.toNat × (Fin cfg.closedLoopConcurrency.toNat → G)}
    (h₀ : HomaClosedLoop.Inv cfg.toWorkloadConfig cfg.closedLoopConcurrency
      (fun j => Source.stream (nextSize lib cfg) (g j)) s₀)
    (hzero : ∀ j, issuedHoma (s₀.workers j) = 0)
    (hr : Transition.run (homaClosedStep lib cfg) (s₀, g) es = some s) :
    Transition.run (HomaClosedLoop.step cfg.toWorkloadConfig cfg.closedLoopConcurrency
      (fun j => Source.stream (nextSize lib cfg) (g j))) s₀ es = some s.1 := by
  refine Source.run_of_drawing (fun s j => issuedHoma (s.workers j)) g
    (fun _ _ _ h hs => HomaClosedLoop.inv_step h hs) ?_ ?_ h₀ (funext hzero) hr
  · intro s e _
    cases e with
    | tick t => rfl
    | worker j ev => exact congrArg (Option.map _) (step_issuedHoma (Source.stream (nextSize lib cfg) (g j)))
  · intro s e t hinv hs
    cases e with
    | tick r =>
      obtain ⟨-, heq⟩ := Option.ite_none_right_eq_some.mp hs
      cases heq
      rfl
    | worker j ev =>
      obtain ⟨w, hw, rfl⟩ := Option.map_eq_some_iff.mp hs
      have hdraw : homaDraws cfg s (.worker j ev) =
          if ev = .next ∧ (s.workers j).i < limit cfg j then some j else none := by
        cases ev <;> simp [homaDraws]
      rw [hdraw]
      exact Source.count_update issuedHoma s.workers (issuedHoma_step (hinv.workers j) hw)

end DcBench.OfferedClosed

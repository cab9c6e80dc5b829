import DcBench.OpenLoop

namespace DcBench.OpenLoopMoves

open DcBench.Lib DcBench.Message DcBench.ExactTransfer DcBench.Workload DcBench.OpenLoop

inductive Moved (running : Bool) (clock : UInt64) (ev : WorkerEvent) (w : Worker) : Worker → Prop
  | enter (hev : ev ≠ .call) (hp : w.phase = .testRunning) (hr : running = true) :
      Moved running clock ev w { w with phase := .pop }
  | leave (hev : ev ≠ .call) (hp : w.phase = .testRunning) (hr : running = false) :
      Moved running clock ev w { w with phase := .testSize }
  | again (hev : ev ≠ .call) (hp : w.phase = .testSize) (hq : w.queue ≠ []) :
      Moved running clock ev w { w with phase := .pop }
  | exit (hev : ev ≠ .call) (hp : w.phase = .testSize) (hq : w.queue = []) :
      Moved running clock ev w { w with phase := .exited }
  | pop (hev : ev ≠ .call) (req : PendingRequest) (queue : List PendingRequest) (hp : w.phase = .pop)
      (hq : w.queue = req :: queue) :
      Moved running clock ev w { w with phase := .popped req, queue := queue }
  | timeout (hev : ev ≠ .call) (hp : w.phase = .pop) (hq : w.queue = []) :
      Moved running clock ev w { w with phase := .testRunning }
  | call (hev : ev = .call) (req : PendingRequest) (hp : w.phase = .popped req) (hc : w.client.phase = .idle) :
      Moved running clock ev w { w with client := w.client.call req.call clock, phase := .inRequest req }
  | goesOn (hev : ev ≠ .call) (req : PendingRequest) (dev : DoRequest.Event) (c : DoRequest.Client)
      (hp : w.phase = .inRequest req) (hs : DoRequest.step w.client dev = some c)
      (hc : c.phase ≠ .idle) : Moved running clock ev w { w with client := c }
  | returns (hev : ev ≠ .call) (req : PendingRequest) (dev : DoRequest.Event) (c : DoRequest.Client)
      (hp : w.phase = .inRequest req) (hs : DoRequest.step w.client dev = some c)
      (ht : ∀ t, dev = .now t → t = clock) (hc : c.phase = .idle) :
      Moved running clock ev w
        { w with
          client := c
          phase := .returned req ((c.exchanges.getLast?.map DoRequest.Exchange.rtt).getD 0)
          returns := w.returns ++ [clock] }
  | account (hev : ev ≠ .call) (req : PendingRequest) (rtt : UInt64) (hp : w.phase = .returned req rtt) :
      Moved running clock ev w
        { w with
          phase := .testRunning
          samples := if 0 < rtt ∧ req.warmup = false then w.samples ++ [rtt] else w.samples }

theorem moved_of_advance {running : Bool} {clock : UInt64} {w w' : Worker} {req : PendingRequest}
    {ev : WorkerEvent} {dev : DoRequest.Event} (hev : ev ≠ .call) (hp : w.phase = .inRequest req) (ht : ∀ t, dev = .now t → t = clock)
    (h : w.advance req clock dev = some w') : Moved running clock ev w w' := by
  obtain ⟨c, hc, rfl⟩ := Option.map_eq_some_iff.mp h
  by_cases hidle : c.phase = .idle
  · rw [if_pos hidle]
    exact .returns hev req dev c hp hc ht hidle
  · rw [if_neg hidle]
    exact .goesOn hev req dev c hp hc hidle

theorem moved_of_step {running : Bool} {clock : UInt64} {w w' : Worker} {ev : WorkerEvent}
    (h : w.step running clock ev = some w') : Moved running clock ev w w' := by
  cases ev with
  | test =>
    cases hp : w.phase with
    | testRunning =>
      simp only [Worker.step, hp, Option.some.injEq] at h
      subst h
      cases running with
      | true => exact .enter (by decide) hp rfl
      | false => exact .leave (by decide) hp rfl
    | testSize =>
      simp only [Worker.step, hp, Option.some.injEq] at h
      subst h
      by_cases hq : w.queue = []
      · rw [if_neg (by simp [hq])]
        exact .exit (by decide) hp hq
      · rw [if_pos (List.length_pos_iff.mpr hq)]
        exact .again (by decide) hp hq
    | pop | popped req | inRequest req | returned req rtt | exited => simp [Worker.step, hp] at h
  | pop =>
    cases hp : w.phase with
    | pop =>
      cases hq : w.queue with
      | nil => simp [Worker.step, hp, hq] at h
      | cons req queue =>
        simp only [Worker.step, hp, hq, Option.some.injEq] at h
        subst h
        exact .pop (by decide) req queue hp hq
    | testRunning | testSize | popped req | inRequest req | returned req rtt | exited =>
      simp [Worker.step, hp] at h
  | timeout =>
    cases hp : w.phase with
    | pop =>
      cases hq : w.queue with
      | nil =>
        simp only [Worker.step, hp, hq, Option.some.injEq] at h
        subst h
        rw [← hq]
        exact .timeout (by decide) hp hq
      | cons req queue => simp [Worker.step, hp, hq] at h
    | testRunning | testSize | popped req | inRequest req | returned req rtt | exited =>
      simp [Worker.step, hp] at h
  | call =>
    cases hp : w.phase with
    | popped req =>
      cases hc : w.client.phase <;> simp [Worker.step, hp, DoRequest.step, hc] at h
      subst h
      exact .call rfl req hp hc
    | testRunning | testSize | pop | inRequest req | returned req rtt | exited =>
      simp [Worker.step, hp] at h
  | send r =>
    cases hp : w.phase with
    | inRequest req =>
      simp only [Worker.step, hp] at h
      exact moved_of_advance (by simp) hp (by simp) h
    | testRunning | testSize | pop | popped req | returned req rtt | exited => simp [Worker.step, hp] at h
  | recv r =>
    cases hp : w.phase with
    | inRequest req =>
      simp only [Worker.step, hp] at h
      exact moved_of_advance (by simp) hp (by simp) h
    | testRunning | testSize | pop | popped req | returned req rtt | exited => simp [Worker.step, hp] at h
  | now =>
    cases hp : w.phase with
    | inRequest req =>
      simp only [Worker.step, hp] at h
      exact moved_of_advance (by simp) hp (fun t ht => by cases ht; rfl) h
    | testRunning | testSize | pop | popped req | returned req rtt | exited => simp [Worker.step, hp] at h
  | account =>
    cases hp : w.phase with
    | returned req rtt =>
      simp only [Worker.step, hp, Option.some.injEq] at h
      subst h
      exact .account (by decide) req rtt hp
    | testRunning | testSize | pop | popped req | inRequest req | exited => simp [Worker.step, hp] at h

variable {P : Nat} {cfg : WorkloadConfig} {gen : Nat → Turn} {s s' : State P}

structure Pushed (cfg : WorkloadConfig) (gen : Nat → Turn) (s s' : State P) (j : Fin P) : Prop where
  running : s.running = true
  lt : s.i < cfg.total
  chosen : ∃ connIdx, s.scheduler.select (gen s.i.toNat).size (gen s.i.toNat).draw = some (connIdx, s'.scheduler) ∧
    connIdx.toNat = j
  arrival : s'.nextTime = s.nextTime + 1000 * truncate (gen s.i.toNat).waitUs ∧ s'.nextTime ≤ s.clock.toNat
  eq : s' = { s with
    i := s.i + 1
    nextTime := s'.nextTime
    scheduler := s'.scheduler
    workers := Function.update s.workers j
      { s.workers j with queue := (s.workers j).queue ++ [pending cfg s.i (gen s.i.toNat).size] }
    issued := s.issued ++ [⟨j, pending cfg s.i (gen s.i.toNat).size, s'.nextTime, s.clock⟩] }

theorem pushed_of_step (h : step cfg gen s .push = some s') : ∃ j, Pushed cfg gen s s' j := by
  simp only [step, Option.ite_none_right_eq_some] at h
  obtain ⟨⟨hrun, hlt, htime⟩, h⟩ := h
  cases hsel : s.scheduler.select (gen s.i.toNat).size (gen s.i.toNat).draw with
  | none => simp [hsel] at h
  | some r =>
    obtain ⟨connIdx, scheduler⟩ := r
    by_cases hj : connIdx.toNat < P
    · simp only [hsel, dif_pos hj, Option.some.injEq] at h
      subst h
      exact ⟨⟨connIdx.toNat, hj⟩, hrun, hlt, ⟨connIdx, hsel, rfl⟩, ⟨rfl, htime⟩, rfl⟩
    · simp [hsel, hj] at h

theorem worker_of_step {j : Fin P} {ev : WorkerEvent} (h : step cfg gen s (.worker j ev) = some s') :
    ∃ w, Moved s.running s.clock ev (s.workers j) w ∧ s' = { s with
      workers := Function.update s.workers j w
      totalBytes := s.totalBytes + (s.workers j).added } := by
  obtain ⟨w, hw, rfl⟩ := Option.map_eq_some_iff.mp h
  exact ⟨w, moved_of_step hw, rfl⟩

end DcBench.OpenLoopMoves

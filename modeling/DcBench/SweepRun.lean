import DcBench.OrchestrateProcess

namespace DcBench.SweepRun

open DcBench.Lib DcBench.OrchestrateMoves DcBench.Provenance DcBench.OrchestrateProcess
open DcBench.OrchestrateMain (RawConfig Experiment History loadExperiment protocolOf follow)
open DcBench.Orchestrate (ExperimentConfig NodeConfig Protocol)

/-- The generated configs, as the orchestrator reads them back from their files,
and the options. -/
structure Args where
  configs : List RawConfig
  deploy : Bool
  dryRun : Bool

/-- Where `main` stands. It is `generated` once the configs are listed; a process
that ends with a status other than 0 raises. -/
inductive Phase
  | generated
  | next
  | write
  | process
  | unlink
  | returned
  | raised
  deriving DecidableEq, Repr

/-- `i` is the index of the loop and `tmp` the files `sweep_config_i.json` that
exist. `started` and `finished` are history: the experiment of the present turn,
and those of the turns before. -/
structure State where
  phase : Phase
  i : Nat
  tmp : List Nat
  main : OrchestrateMain.State
  started : History
  finished : List (Orchestrate.State × List Orchestrate.Event)

inductive Event
  | makedirs (ok : Bool)
  | next
  | write (ok : Bool)
  | process (e : OrchestrateMain.Event)
  | exited
  | unlink (ok : Bool)
  deriving DecidableEq, Repr

def isBackground : OrchestrateMain.Event → Bool
  | .background _ => true
  | _ => false

/-- The process is started on the file of this turn, with `--deploy` in the first
turn only. -/
def Args.starts (args : Args) (i : Nat) : OrchestrateMain.Event → Bool
  | .start raw deploy => decide (args.configs[i]? = some raw ∧ deploy = (args.deploy && decide (i = 0)))
  | _ => true

def State.process (built : String → String → Bool) (s : State) (e : OrchestrateMain.Event) : Option State :=
  (OrchestrateMain.step built s.main e).map (fun main =>
    { s with main := main, started := follow s.main.orch s.started e })

def step (built : String → String → Bool) (args : Args) (s : State) : Event → Option State
  | .makedirs ok =>
    match s.phase with
    | .generated =>
      some { s with phase := if args.dryRun then .returned else if ok then .next else .raised }
    | _ => none
  | .next =>
    match s.phase with
    | .next => some { s with phase := if s.i < args.configs.length then .write else .returned }
    | _ => none
  | .write ok =>
    match s.phase with
    | .write => some (if ok then { s with phase := .process, tmp := s.i :: s.tmp } else { s with phase := .raised })
    | _ => none
  | .process e =>
    if isBackground e || (decide (s.phase = .process) && args.starts s.i e) then s.process built e else none
  | .exited =>
    match s.phase, s.main.phase with
    | .process, .exited code =>
      some { s with
        main := { s.main with phase := .outside }
        phase := if code = 0 then .unlink else .raised
        finished := if code = 0 then s.finished ++ s.started.toList else s.finished }
    | _, _ => none
  | .unlink ok =>
    match s.phase with
    | .unlink => some (if ok then { s with phase := .next, i := s.i + 1, tmp := s.tmp.erase s.i }
        else { s with phase := .raised })
    | _ => none

def start (main : OrchestrateMain.State) : State := ⟨.generated, 0, [], main, none, []⟩

inductive Stepped (built : String → String → Bool) (args : Args) (s : State) : Event → State → Prop
  | dryRun (hp : s.phase = .generated) (hdry : args.dryRun = true) (ok : Bool) :
      Stepped built args s (.makedirs ok) { s with phase := .returned }
  | makedirs (hp : s.phase = .generated) (hdry : args.dryRun = false) :
      Stepped built args s (.makedirs true) { s with phase := .next }
  | enter (hp : s.phase = .next) (hi : s.i < args.configs.length) :
      Stepped built args s .next { s with phase := .write }
  | finish (hp : s.phase = .next) (hi : args.configs.length ≤ s.i) :
      Stepped built args s .next { s with phase := .returned }
  | write (hp : s.phase = .write) :
      Stepped built args s (.write true) { s with phase := .process, tmp := s.i :: s.tmp }
  | fails {e : Event} (hp : s.phase = .generated ∧ args.dryRun = false ∨ s.phase = .write ∨ s.phase = .unlink) :
      Stepped built args s e { s with phase := .raised }
  | process {e : OrchestrateMain.Event} {t : State} (he : isBackground e = false) (hp : s.phase = .process)
      (hstart : args.starts s.i e = true) (hs : s.process built e = some t) : Stepped built args s (.process e) t
  | background {e : Orchestrate.Event} {t : State} (hs : s.process built (.background e) = some t) :
      Stepped built args s (.process (.background e)) t
  | exited (hp : s.phase = .process) (hm : s.main.phase = .exited 0) :
      Stepped built args s .exited
        { s with
          main := { s.main with phase := .outside }
          phase := .unlink
          finished := s.finished ++ s.started.toList }
  | exitedWith (hp : s.phase = .process) {code : Nat} (hcode : code ≠ 0) (hm : s.main.phase = .exited code) :
      Stepped built args s .exited { s with main := { s.main with phase := .outside }, phase := .raised }
  | unlink (hp : s.phase = .unlink) :
      Stepped built args s (.unlink true) { s with phase := .next, i := s.i + 1, tmp := s.tmp.erase s.i }

variable {built : String → String → Bool} {args : Args} {s t : State} {e : Event}

theorem stepped_of_step (h : step built args s e = some t) : Stepped built args s e t := by
  cases e with
  | makedirs ok =>
    cases hp : s.phase <;> simp only [step, hp, Option.some.injEq, reduceCtorEq] at h
    subst h
    cases hdry : args.dryRun with
    | true => exact .dryRun hp hdry ok
    | false =>
      cases ok
      · exact .fails (.inl ⟨hp, hdry⟩)
      · exact .makedirs hp hdry
  | next =>
    cases hp : s.phase <;> simp only [step, hp, Option.some.injEq, reduceCtorEq] at h
    subst h
    by_cases hi : s.i < args.configs.length
    · rw [if_pos hi]
      exact .enter hp hi
    · rw [if_neg hi]
      exact .finish hp (Nat.le_of_not_lt hi)
  | write ok =>
    cases hp : s.phase <;> simp only [step, hp, Option.some.injEq, reduceCtorEq] at h
    subst h
    cases ok
    · exact .fails (.inr (.inl hp))
    · exact .write hp
  | process ev =>
    simp only [step, Option.ite_none_right_eq_some, Bool.or_eq_true, Bool.and_eq_true, decide_eq_true_eq] at h
    obtain ⟨hallowed, h⟩ := h
    cases he : isBackground ev with
    | true =>
      cases ev <;> simp only [isBackground, reduceCtorEq] at he
      exact .background h
    | false =>
      obtain ⟨hp, hstart⟩ := hallowed.resolve_left (by simp [he])
      exact .process he hp hstart h
  | exited =>
    cases hp : s.phase <;> cases hm : s.main.phase <;>
      simp only [step, hp, hm, Option.some.injEq, reduceCtorEq] at h
    rename_i code
    subst h
    by_cases hcode : code = 0
    · subst hcode
      exact .exited hp hm
    · rw [if_neg hcode, if_neg hcode]
      exact .exitedWith hp hcode hm
  | unlink ok =>
    cases hp : s.phase <;> simp only [step, hp, Option.some.injEq, reduceCtorEq] at h
    subst h
    cases ok
    · exact .fails (.inr (.inr hp))
    · exact .unlink hp

theorem process_eq {ev : OrchestrateMain.Event} (h : s.process built ev = some t) :
    ∃ main, OrchestrateMain.step built s.main ev = some main ∧
      t = { s with main := main, started := follow s.main.orch s.started ev } := by
  obtain ⟨main, hmain, rfl⟩ := Option.map_eq_some_iff.mp h
  exact ⟨main, hmain, rfl⟩

def Args.dir (args : Args) (k : Nat) : Option (List String) :=
  (args.configs[k]?.bind loadExperiment).map (fun x => x.outputDir.path)

/-- The experiment of the config `k`, entered in the world `w`, has returned. Of
the results that its clients left, those are in place that no config up to `i`
has replaced. -/
def Kept (args : Args) (i : Nat) (files : List String → Option Orchestrate.Origin) (k : Nat) (w : Orchestrate.State)
    (log : List Orchestrate.Event) : Prop :=
  ∃ raw x protocol, args.configs[k]? = some raw ∧ loadExperiment raw = some x ∧
    protocolOf x.protocol = some protocol ∧ (∃ orch, Tracked (x.config protocol) orch w log ∧ Returned orch) ∧
    ∀ j node, x.clients[j]? = some node → (∀ l ≤ i, k < l → args.dir l ≠ args.dir k) →
      (files ((x.config protocol).localCsv j) = some ⟨w.experiments, j⟩ ↔ Delivered w.experiments j node log)

variable {i i' k : Nat} {files files' : List String → Option Orchestrate.Origin} {w : Orchestrate.State}
  {log : List Orchestrate.Event}

theorem dir_eq {raw : RawConfig} {x : Experiment} (hraw : args.configs[k]? = some raw)
    (hx : loadExperiment raw = some x) : args.dir k = some x.outputDir.path := by
  rw [Args.dir, hraw, Option.bind_some, hx, Option.map_some]

theorem Kept.mono (h : Kept args i files k w log) (hle : i ≤ i') : Kept args i' files k w log := by
  obtain ⟨raw, x, protocol, hraw, hx, hknown, hrun, hfiles⟩ := h
  refine ⟨raw, x, protocol, hraw, hx, hknown, hrun, ?_⟩
  intro j node hnode hdirs
  exact hfiles j node hnode (fun l hl => hdirs l (Nat.le_trans hl hle))

theorem Kept.frame (h : Kept args i files k w log) (hk : k < i)
    (hframe : ∀ path, (∀ raw x protocol j, args.configs[i]? = some raw → loadExperiment raw = some x →
      path ≠ (x.config protocol).localCsv j) → files' path = files path) : Kept args i files' k w log := by
  obtain ⟨raw, x, protocol, hraw, hx, hknown, hrun, hfiles⟩ := h
  refine ⟨raw, x, protocol, hraw, hx, hknown, hrun, ?_⟩
  intro j node hnode hdirs
  rw [hframe, hfiles j node hnode hdirs]
  intro raw' x' protocol' j' hraw' hx' heq
  have hdir := hdirs i (Nat.le_refl i) hk
  rw [dir_eq hraw' hx', dir_eq hraw hx] at hdir
  exact hdir (congrArg some (List.append_inj' heq rfl).1.symm)

structure Inv (args : Args) (s : State) : Prop where
  numbered : Numbered s.main.orch
  quiet : s.phase ≠ .process → s.main.phase = .outside
  process : s.phase = .process → ∀ raw, args.configs[s.i]? = some raw → Ok raw s.main s.started
  inRange : s.phase = .write ∨ s.phase = .process ∨ s.phase = .unlink → s.i < args.configs.length
  length : s.phase ≠ .raised → s.finished.length = s.i + (if s.phase = .unlink then 1 else 0)
  bound : s.i ≤ args.configs.length
  dry : args.dryRun = true → s.finished = [] ∧ (s.phase = .generated ∨ s.phase = .returned)
  returned : s.phase = .returned → args.dryRun = false → args.configs.length ≤ s.i
  kept : ∀ k w log, s.finished[k]? = some (w, log) → Kept args s.i s.main.orch.files k w log

theorem inv_start (args : Args) {main : OrchestrateMain.State} (hnum : Numbered main.orch)
    (hout : main.phase = .outside) : Inv args (start main) where
  numbered := hnum
  quiet _ := hout
  process hp := (by cases hp)
  inRange hp := by simp [start] at hp
  length _ := rfl
  bound := Nat.zero_le _
  dry _ := ⟨rfl, .inl rfl⟩
  returned hp := (by cases hp)
  kept k w log hk := by simp [start] at hk

theorem Inv.elim_dry {P : Prop} (h : Inv args s) (hgen : s.phase ≠ .generated) (hret : s.phase ≠ .returned)
    (hdry : args.dryRun = true) : P := by
  obtain ⟨-, hp | hp⟩ := h.dry hdry
  · exact absurd hp hgen
  · exact absurd hp hret

theorem inv_step (h : Inv args s) (hs : Stepped built args s e t) : Inv args t := by
  have hok {started : History} (hout : s.main.phase = .outside) (raw : RawConfig) : Ok raw s.main started := by
    rw [Ok, hout]
    trivial
  cases hs with
  | dryRun hp hdry ok =>
    have hout := h.quiet (by simp [hp])
    have hlen := h.length (by simp [hp])
    refine ⟨h.numbered, fun _ => hout, fun hp => (by cases hp), by simp, ?_, h.bound,
      fun _ => ⟨(h.dry hdry).1, .inr rfl⟩, ?_, h.kept⟩
    · simpa [hp] using hlen
    · intro _ hnot
      rw [hdry] at hnot
      cases hnot
  | makedirs hp hdry =>
    have hout := h.quiet (by simp [hp])
    have hlen := h.length (by simp [hp])
    refine ⟨h.numbered, fun _ => hout, fun hp => (by cases hp), by simp, ?_, h.bound, ?_,
      fun hp => (by cases hp), h.kept⟩
    · simpa [hp] using hlen
    · intro hyes
      rw [hdry] at hyes
      cases hyes
  | enter hp hi =>
    have hout := h.quiet (by simp [hp])
    have hlen := h.length (by simp [hp])
    refine ⟨h.numbered, fun _ => hout, fun hp => (by cases hp), fun _ => hi, ?_, h.bound,
      h.elim_dry (by simp [hp]) (by simp [hp]), fun hp => (by cases hp), h.kept⟩
    simpa [hp] using hlen
  | finish hp hi =>
    have hout := h.quiet (by simp [hp])
    have hlen := h.length (by simp [hp])
    refine ⟨h.numbered, fun _ => hout, fun hp => (by cases hp), by simp, ?_, h.bound,
      h.elim_dry (by simp [hp]) (by simp [hp]), fun _ _ => hi, h.kept⟩
    simpa [hp] using hlen
  | write hp =>
    have hout := h.quiet (by simp [hp])
    have hlen := h.length (by simp [hp])
    refine ⟨h.numbered, fun _ => hout, fun _ raw _ => hok hout raw, fun _ => h.inRange (.inl hp), ?_,
      h.bound, h.elim_dry (by simp [hp]) (by simp [hp]), fun hp => (by cases hp), h.kept⟩
    simpa [hp] using hlen
  | fails hp =>
    have hout := h.quiet (by obtain ⟨hp, -⟩ | hp | hp := hp <;> simp [hp])
    refine ⟨h.numbered, fun _ => hout, fun hp => (by cases hp), by simp, fun hp => absurd rfl hp,
      h.bound, ?_, fun hp => (by cases hp), h.kept⟩
    obtain ⟨-, hdry⟩ | hp | hp := hp
    · intro hyes
      rw [hdry] at hyes
      cases hyes
    · exact h.elim_dry (by simp [hp]) (by simp [hp])
    · exact h.elim_dry (by simp [hp]) (by simp [hp])
  | process he hp hstart hs =>
    obtain ⟨main, hmain, rfl⟩ := process_eq hs
    have hi := h.inRange (.inr (.inl hp))
    have hlen := h.length (by simp [hp])
    have hraw := List.getElem?_eq_getElem hi
    have hmine := h.process hp _ hraw
    refine ⟨numbered_main h.numbered hmain, fun hne => absurd hp hne, ?_, h.inRange, h.length, h.bound,
      h.dry, h.returned, ?_⟩
    · intro _ raw' hraw'
      refine ok_step (h.process hp raw' hraw') h.numbered ?_ hmain
      rintro raw deploy rfl
      simp only [Args.starts, decide_eq_true_eq] at hstart
      exact Option.some.inj (hstart.1.symm.trans hraw')
    · intro k w log hk
      have hlt : k < s.i := by
        have := (List.getElem?_eq_some_iff.mp hk).1
        simpa [hp, hlen] using this
      refine (h.kept k w log hk).frame hlt ?_
      intro path hpath
      exact files_main hmine hmain (fun x protocol j hx => hpath _ x protocol j hraw hx)
  | background hs =>
    obtain ⟨main, hmain, rfl⟩ := process_eq hs
    have hnum := numbered_main h.numbered hmain
    have hstep := hmain
    simp only [OrchestrateMain.step, Option.ite_none_right_eq_some, Option.map_eq_some_iff] at hmain
    obtain ⟨hback, orch, horch, rfl⟩ := hmain
    obtain ⟨-, -, hfiles⟩ := background_eq hback horch
    refine ⟨hnum, h.quiet, ?_, h.inRange, h.length, h.bound, h.dry, h.returned, ?_⟩
    · intro hp raw hraw
      exact ok_step (h.process hp raw hraw) h.numbered (by simp) hstep
    · intro k w log hk
      rw [hfiles]
      exact h.kept k w log hk
  | exited hp hm =>
    have hi := h.inRange (.inr (.inl hp))
    have hlen := h.length (by simp [hp])
    rw [if_neg (by simp [hp]), Nat.add_zero] at hlen
    have hraw := List.getElem?_eq_getElem hi
    have hmine := h.process hp _ hraw
    rw [Ok, hm] at hmine
    obtain ⟨x, protocol, w, log, hver, hstarted, htrack, hret⟩ := hmine rfl
    refine ⟨h.numbered, fun _ => rfl, fun hp => (by cases hp), fun _ => hi, ?_, h.bound,
      h.elim_dry (by simp [hp]) (by simp [hp]), fun hp => (by cases hp), ?_⟩
    · intro _
      simp [hstarted, hlen]
    · intro k w' log' hk
      rw [hstarted, Option.toList_some, List.getElem?_append] at hk
      split at hk
      · exact h.kept k w' log' hk
      · obtain ⟨hk0, heq⟩ := List.getElem?_eq_some_iff.mp hk
        obtain rfl : k = s.i := by
          simp only [List.length_singleton] at hk0
          omega
        simp only [hlen, Nat.sub_self, List.getElem_singleton, Prod.mk.injEq] at heq
        obtain ⟨rfl, rfl⟩ := heq
        refine ⟨_, x, protocol, hraw, hver.loaded, hver.known, ⟨s.main.orch, htrack, hret⟩, ?_⟩
        intro j node hnode _
        exact file_iff_delivered htrack.numbered htrack.run htrack.once hret hnode
  | exitedWith hp hcode hm =>
    exact ⟨h.numbered, fun _ => rfl, fun hp => (by cases hp), by simp, fun hp => absurd rfl hp,
      h.bound, h.elim_dry (by simp [hp]) (by simp [hp]), fun hp => (by cases hp), h.kept⟩
  | unlink hp =>
    have hout := h.quiet (by simp [hp])
    have hlen := h.length (by simp [hp])
    refine ⟨h.numbered, fun _ => hout, fun hp => (by cases hp), by simp, ?_, h.inRange (.inr (.inr hp)),
      h.elim_dry (by simp [hp]) (by simp [hp]), fun hp => (by cases hp), ?_⟩
    · simpa [hp] using hlen
    · intro k w log hk
      exact (h.kept k w log hk).mono (Nat.le_succ _)

/-- A sweep that returns has run the experiment of every config, one after the
other and each to its end (none with `--dry-run`), and what is in the directory of
a config afterwards is what its own experiment put there, unless a later config
has the same directory: the file of a client is of that experiment exactly when
the client delivered. -/
theorem sweep_keeps_results (built : String → String → Bool) (args : Args) (main : OrchestrateMain.State)
    (hnum : Numbered main.orch) (hout : main.phase = .outside) (es : List Event) (t : State)
    (hr : Transition.run (step built args) (start main) es = some t) (hret : t.phase = .returned) :
    t.finished.length = (if args.dryRun then 0 else args.configs.length) ∧
    ∀ k w log, t.finished[k]? = some (w, log) → ∃ raw x protocol, args.configs[k]? = some raw ∧
      loadExperiment raw = some x ∧ protocolOf x.protocol = some protocol ∧
      (∃ orch, Tracked (x.config protocol) orch w log ∧ Returned orch) ∧
      ∀ j node, x.clients[j]? = some node → (∀ l, k < l → args.dir l ≠ args.dir k) →
        (t.main.orch.files ((x.config protocol).localCsv j) = some ⟨w.experiments, j⟩ ↔
          Delivered w.experiments j node log) := by
  have hinv : Inv args t :=
    Transition.invariant (fun _ _ _ h hs => inv_step h (stepped_of_step hs)) (inv_start args hnum hout) hr
  refine ⟨?_, ?_⟩
  · cases hdry : args.dryRun with
    | true => rw [(hinv.dry hdry).1, List.length_nil, if_pos rfl]
    | false =>
      have hlen := hinv.length (by simp [hret])
      rw [if_neg (by simp [hret]), Nat.add_zero] at hlen
      rw [hlen, if_neg Bool.false_ne_true]
      exact Nat.le_antisymm hinv.bound (hinv.returned hret hdry)
  intro k w log hk
  obtain ⟨raw, x, protocol, hraw, hx, hknown, hrun, hfiles⟩ := hinv.kept k w log hk
  refine ⟨raw, x, protocol, hraw, hx, hknown, hrun, ?_⟩
  intro j node hnode hdirs
  exact hfiles j node hnode (fun l _ => hdirs l)

def swept (name : String) : RawConfig where
  name := some name
  protocol := some "tcp"
  server := some ⟨some "node0", none⟩
  clients := some [⟨some "node1", none⟩]
  binaryDir := none
  outputDir := some ⟨["results", name], false⟩

def threads : Args := ⟨[swept "pair_threads=1", swept "pair_threads=2"], false, false⟩

def turn (i : Nat) (name : String) : List Event :=
  [.next, .write true, .process (.start (swept name) false), .process (.test true), .process (.test true),
    .process .call] ++
  (called (writing i)).map (fun ev =>
    .process (if OrchestrateMain.isBackground ev then .background ev else .inside ev)) ++
  [.process .exit, .exited, .unlink true]

def bothTurns : List Event := [.makedirs true] ++ turn 0 "pair_threads=1" ++ turn 1 "pair_threads=2" ++ [.next]

theorem bothTurns_keep_results : ∃ t, Transition.run (step (fun _ _ => true) threads)
    (start ⟨.outside, fun _ => true, fresh⟩) bothTurns = some t ∧ t.finished.length = 2 ∧
    t.main.orch.files ["results", "pair_threads=1", "client_0", "latency.csv"] = some ⟨0, 0⟩ ∧
    t.main.orch.files ["results", "pair_threads=2", "client_0", "latency.csv"] = some ⟨1, 0⟩ := by
  have hrun : (Transition.run (step (fun _ _ => true) threads) (start ⟨.outside, fun _ => true, fresh⟩) bothTurns).map
      (fun t => (t.phase, t.main.orch.files ["results", "pair_threads=1", "client_0", "latency.csv"],
        t.main.orch.files ["results", "pair_threads=2", "client_0", "latency.csv"])) =
      some (.returned, some ⟨0, 0⟩, some ⟨1, 0⟩) := by decide +kernel
  obtain ⟨t, ht, hfields⟩ := Option.map_eq_some_iff.mp hrun
  simp only [Prod.mk.injEq] at hfields
  obtain ⟨hret, hfiles⟩ := hfields
  exact ⟨t, ht, (sweep_keeps_results _ _ _ numbered_fresh rfl _ t ht hret).1, hfiles⟩

end DcBench.SweepRun

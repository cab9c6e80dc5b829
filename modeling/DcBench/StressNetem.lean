import DcBench.StressSweep
import DcBench.Lib.Transition

namespace DcBench.StressNetem

open DcBench.Lib DcBench.StressSweep
open DcBench.OrchestrateMain (RawConfig OutputDir follow)

variable {F : Type}

inductive Stepped (rates : Rates F) (built : String → String → Bool) (args : Args F) (s : State F) :
    Event → State F → Prop
  | finish (hp : s.phase = .outer) : Stepped rates built args s .openConfig { s with phase := .returned }
  | keyError (hp : s.phase = .outer) : Stepped rates built args s .openConfig { s with phase := .raised }
  | opened (hp : s.phase = .outer) {raw : RawConfig} (hraw : args.configs[s.config]? = some raw) {host : String}
      {base : OutputDir} (hkeys : serverAndBase raw = some (host, base)) {phase : Phase} (iface : String)
      (hphase : phase = .inner ∨ phase = .detect) :
      Stepped rates built args s .openConfig
        { s with phase := phase, rate := 0, host := host, base := base, iface := iface }
  | noIface (hp : s.phase = .detect) (iface : String) :
      Stepped rates built args s (.detect iface) { s with phase := .raised }
  | detected (hp : s.phase = .detect) (iface : String) :
      Stepped rates built args s (.detect iface) { s with phase := .inner, iface := iface }
  | nextConfig (hp : s.phase = .inner) :
      Stepped rates built args s .next { s with phase := .outer, config := s.config + 1 }
  | enter (hp : s.phase = .inner) {loss : F} (hloss : args.loss[s.rate]? = some loss) :
      Stepped rates built args s .next { s with phase := .del }
  | del (hp : s.phase = .del) {loss : F} (hloss : args.loss[s.rate]? = some loss) (ran : Bool) :
      Stepped rates built args s (.del ran)
        { s.delQdisc ran with phase := if rates.positive loss then .add else .process }
  | added (hp : s.phase = .add) {loss : F} (hloss : args.loss[s.rate]? = some loss)
      (hfree : s.qdisc (s.host, s.iface) = none) :
      Stepped rates built args s (.add .added) { s.setQdisc (some loss) with phase := .process }
  | addFails (hp : s.phase = .add) {loss : F} (hloss : args.loss[s.rate]? = some loss) (applied : Bool) :
      Stepped rates built args s (.add (.failed applied))
        { if applied then s.setQdisc (some loss) else s with phase := .clear true }
  | process {e : OrchestrateMain.Event} {t : State F} (he : isBackground e = false) (hp : s.phase = .process)
      {raw : RawConfig} (hraw : args.configs[s.config]? = some raw)
      (hstart : ∀ raw' deploy, e = .start raw' deploy → raw' = raw) (hs : s.process built e = some t) :
      Stepped rates built args s (.process e) t
  | background {e : Orchestrate.Event} {t : State F} (hs : s.process built (.background e) = some t) :
      Stepped rates built args s (.process (.background e)) t
  | exited (hp : s.phase = .process) {code : Nat} (hm : s.main.phase = .exited code) :
      Stepped rates built args s .exited
        { s with
          main := { s.main with phase := .outside }
          phase := if code = 0 then .move else .clear false }
  | stopped (hp : s.phase = .outer ∨ s.phase = .detect ∨ s.phase = .inner) :
      Stepped rates built args s .interrupt { s with phase := .raised }
  | interrupt (hp : s.phase = .del ∨ s.phase = .add ∨ s.phase = .process ∨ s.phase = .move)
      (phase : OrchestrateMain.Phase) :
      Stepped rates built args s .interrupt { s with main := { s.main with phase := phase }, phase := .clear true }
  | moved (hp : s.phase = .move) {loss : F} (hloss : args.loss[s.rate]? = some loss) (hslash : s.base.slash = false) :
      Stepped rates built args s (.move .moved)
        { s.setFiles (moveDir s.files s.base.path (dest s.base (rates.tag loss))) with phase := .clear false }
  | moveFails {r : Move} (hr : r ≠ .moved) (hp : s.phase = .move)
      (files : List String → Option Orchestrate.Origin) :
      Stepped rates built args s (.move r) { s.setFiles files with phase := .clear true }
  | clear {raising : Bool} (hp : s.phase = .clear raising) (ran : Bool) {interrupted leaves : Bool}
      (hleaves : leaves = (raising || interrupted)) :
      Stepped rates built args s (.clear ran interrupted)
        { s.delQdisc ran with
          phase := if leaves then .raised else .inner
          rate := if leaves then s.rate else s.rate + 1 }

variable {rates : Rates F} {built : String → String → Bool} {args : Args F} {s t : State F} {e : Event}

theorem stepped_of_step (h : step rates built args s e = some t) : Stepped rates built args s e t := by
  cases e with
  | openConfig =>
    cases hp : s.phase <;> simp only [step, hp, reduceCtorEq] at h
    cases hraw : args.configs[s.config]? with
    | none =>
      simp only [hraw, Option.some.injEq] at h
      exact h ▸ .finish hp
    | some raw =>
      simp only [hraw] at h
      cases hkeys : serverAndBase raw with
      | none =>
        simp only [hkeys, Option.some.injEq] at h
        exact h ▸ .keyError hp
      | some pair =>
        obtain ⟨host, base⟩ := pair
        simp only [hkeys] at h
        cases hiface : args.given with
        | some iface =>
          simp only [hiface, Option.some.injEq] at h
          exact h ▸ .opened hp hraw hkeys iface (.inl rfl)
        | none =>
          simp only [hiface, Option.some.injEq] at h
          exact h ▸ .opened hp hraw hkeys s.iface (.inr rfl)
  | detect iface =>
    cases hp : s.phase <;> simp only [step, hp, Option.some.injEq, reduceCtorEq] at h
    subst h
    split
    · exact .noIface hp iface
    · exact .detected hp iface
  | next =>
    cases hp : s.phase <;> simp only [step, hp, reduceCtorEq] at h
    cases hloss : args.loss[s.rate]? with
    | none =>
      simp only [hloss, Option.some.injEq] at h
      exact h ▸ .nextConfig hp
    | some loss =>
      simp only [hloss, Option.some.injEq] at h
      exact h ▸ .enter hp hloss
  | del ran =>
    cases hp : s.phase <;> cases hloss : args.loss[s.rate]? <;>
      simp only [step, hp, hloss, Option.some.injEq, reduceCtorEq] at h
    exact h ▸ .del hp hloss ran
  | add r =>
    cases hp : s.phase <;> cases hloss : args.loss[s.rate]? <;>
      simp only [step, hp, hloss, Option.ite_none_left_eq_some, Option.some.injEq, reduceCtorEq] at h
    obtain ⟨hfree, rfl⟩ := h
    cases r with
    | added => exact .added hp hloss (by simpa [Tc.applied] using hfree)
    | failed applied => exact .addFails hp hloss applied
  | process e =>
    cases he : isBackground e with
    | true =>
      cases e <;> simp only [isBackground, reduceCtorEq] at he
      simp only [step, isBackground, if_true] at h
      exact .background h
    | false =>
      cases hp : s.phase <;> cases hraw : args.configs[s.config]? <;>
        simp only [step, he, hp, hraw, Bool.false_eq_true, if_false, Option.ite_none_left_eq_some, reduceCtorEq] at h
      refine .process he hp hraw ?_ h.2
      rintro raw' deploy rfl
      have heq := h.1
      simp only [isStart, Bool.true_and, ne_eq, decide_not, Bool.not_eq_true', decide_eq_false_iff_not,
        Decidable.not_not, OrchestrateMain.Event.start.injEq] at heq
      exact heq.1
  | exited =>
    cases hp : s.phase <;> cases hm : s.main.phase <;>
      simp only [step, hp, hm, Option.some.injEq, reduceCtorEq] at h
    exact h ▸ .exited hp hm
  | interrupt =>
    cases hp : s.phase <;> simp only [step, hp, Option.some.injEq, reduceCtorEq] at h
    case outer | detect | inner => exact h ▸ .stopped (by simp [hp])
    case process => exact h ▸ .interrupt (by simp [hp]) _
    all_goals exact h ▸ .interrupt (by simp [hp]) s.main.phase
  | move r =>
    cases hp : s.phase <;> cases hloss : args.loss[s.rate]? <;> simp only [step, hp, hloss, reduceCtorEq] at h
    cases r with
    | moved =>
      simp only [Option.ite_none_left_eq_some, Option.some.injEq, Bool.not_eq_true] at h
      exact h.2 ▸ .moved hp hloss h.1
    | rmtreeFails removed | moveFails =>
      simp only [Option.some.injEq] at h
      exact h ▸ .moveFails (by simp) hp _
  | clear ran interrupted =>
    cases hp : s.phase <;> simp only [step, hp, Option.some.injEq, reduceCtorEq] at h
    exact h ▸ .clear hp ran rfl

theorem process_eq {ev : OrchestrateMain.Event} (h : s.process built ev = some t) :
    ∃ main, OrchestrateMain.step built s.main ev = some main ∧
      t = { s with main := main, started := follow s.main.orch s.started ev } := by
  obtain ⟨main, hmain, rfl⟩ := Option.map_eq_some_iff.mp h
  exact ⟨main, hmain, rfl⟩

/-- What the name of a results directory says of the loss. -/
def Rates.named (rates : Rates F) (loss : F) : Option F := if rates.positive loss then some loss else none

/-- Experiments run and results are moved between `apply_netem` and
`clear_netem`. -/
def measuring : Phase → Bool
  | .process | .move => true
  | _ => false

def inTry : Phase → Bool
  | .del | .add | .process | .move | .clear _ => true
  | .outer | .detect | .inner | .returned | .raised => false

/-- The command of `apply_netem` or `clear_netem` that removes the loss has
reached the host. Its failure is not noticed. -/
def removes : Event → Bool
  | .del ran | .clear ran _ => ran
  | _ => true

/-- `add` is reached with a positive rate only, and an experiment with such a rate
only through an `add` that has set it. -/
structure InForce (rates : Rates F) (args : Args F) (s : State F) : Prop where
  adding : s.phase = .add → ∀ loss, args.loss[s.rate]? = some loss → rates.positive loss = true
  impaired : measuring s.phase = true → ∀ loss, args.loss[s.rate]? = some loss → rates.positive loss = true →
    s.qdisc (s.host, s.iface) = some loss

theorem inForce_of_other {phase : Phase} (hp : s.phase = phase) (hadd : phase ≠ .add) (hm : measuring phase = false) :
    InForce rates args s := by
  subst hp
  refine ⟨fun hp => absurd hp hadd, fun hp => ?_⟩
  rw [hm] at hp
  cases hp

theorem inForce_step (h : InForce rates args s) (hs : Stepped rates built args s e t) : InForce rates args t := by
  cases hs with
  | finish hp | keyError hp | noIface hp iface | detected hp iface | nextConfig hp | enter hp hloss
  | addFails hp hloss applied | stopped hp | interrupt hp phase | moved hp hloss hslash
  | moveFails hr hp files =>
    exact inForce_of_other rfl (by simp) rfl
  | opened hp hraw hkeys iface hphase =>
    obtain rfl | rfl := hphase
    · exact inForce_of_other rfl (by simp) rfl
    · exact inForce_of_other rfl (by simp) rfl
  | @del hp loss hloss ran =>
    have hrate (loss' : F) (hloss' : args.loss[(s.delQdisc ran).rate]? = some loss') : loss = loss' := by
      cases ran <;> exact Option.some.inj (hloss.symm.trans hloss')
    refine ⟨?_, ?_⟩
    · intro hadd loss' hloss'
      rw [← hrate loss' hloss']
      by_contra hneg
      rw [if_neg hneg] at hadd
      cases hadd
    · intro hm loss' hloss' hpos
      rw [← hrate loss' hloss'] at hpos
      rw [if_pos hpos] at hm
      cases hm
  | @added hp loss hloss hfree =>
    refine ⟨fun hp => (by cases hp), ?_⟩
    intro _ loss' hloss' _
    obtain rfl : loss = loss' := Option.some.inj (hloss.symm.trans hloss')
    exact Function.update_self _ _ _
  | process he hp hraw hstart hs =>
    obtain ⟨main, -, rfl⟩ := process_eq hs
    exact ⟨h.adding, h.impaired⟩
  | background hs =>
    obtain ⟨main, -, rfl⟩ := process_eq hs
    exact ⟨h.adding, h.impaired⟩
  | @exited hp code hm =>
    refine ⟨fun hadd => ?_, fun _ => h.impaired (by rw [hp]; rfl)⟩
    by_cases hcode : code = 0 <;> simp [hcode] at hadd
  | @clear raising hp ran interrupted leaves hleaves =>
    cases leaves
    · exact inForce_of_other rfl (by simp) rfl
    · exact inForce_of_other rfl (by simp) rfl

/-- The interfaces, as long as every command that removes the loss arrives: only
the one of the present turn can differ from what it was at the start without
being clear. -/
structure Restored (rates : Rates F) (args : Args F) (qdisc : String × String → Option F) (s : State F) : Prop where
  others : ∀ key, key ≠ (s.host, s.iface) ∨ inTry s.phase = false → s.qdisc key = qdisc key ∨ s.qdisc key = none
  added : s.phase = .add → s.qdisc (s.host, s.iface) = none
  unimpaired : measuring s.phase = true → ∀ loss, args.loss[s.rate]? = some loss → rates.positive loss = false →
    s.qdisc (s.host, s.iface) = none

variable {qdisc : String × String → Option F}

theorem Restored.outside (h : Restored rates args qdisc s) (hout : inTry s.phase = false)
    (hq : t.qdisc = s.qdisc) (hadd : t.phase ≠ .add) (hm : measuring t.phase = false) :
    Restored rates args qdisc t := by
  refine ⟨?_, fun hp => absurd hp hadd, fun hp => ?_⟩
  · intro key _
    rw [hq]
    exact h.others key (.inr hout)
  · rw [hm] at hp
    cases hp

theorem Restored.removed (h : Restored rates args qdisc s) (ht : t.qdisc = Function.update s.qdisc (s.host, s.iface) none)
    (hhost : (t.host, t.iface) = (s.host, s.iface)) : Restored rates args qdisc t := by
  have hself : t.qdisc (t.host, t.iface) = none := by
    rw [ht, hhost, Function.update_self]
  refine ⟨?_, fun _ => hself, fun _ _ _ _ => hself⟩
  intro key _
  by_cases hkey : key = (s.host, s.iface)
  · right
    rw [hkey, ← hhost, hself]
  · rw [ht, Function.update_of_ne hkey]
    exact h.others key (.inl hkey)

theorem Restored.inside (h : Restored rates args qdisc s)
    (ht : ∀ key, key ≠ (s.host, s.iface) → t.qdisc key = s.qdisc key) (hhost : (t.host, t.iface) = (s.host, s.iface))
    (hin : inTry t.phase = true) (hadd : t.phase ≠ .add)
    (hm : measuring t.phase = true → ∀ loss, args.loss[t.rate]? = some loss → rates.positive loss = false →
      t.qdisc (t.host, t.iface) = none) : Restored rates args qdisc t := by
  refine ⟨?_, fun hp => absurd hp hadd, hm⟩
  intro key hkey
  rw [hin, hhost] at hkey
  have hne := hkey.resolve_right (by simp)
  rw [ht key hne]
  exact h.others key (.inl hne)

theorem restored_step (h : Restored rates args qdisc s) (hforce : InForce rates args s) (he : removes e = true)
    (hs : Stepped rates built args s e t) : Restored rates args qdisc t := by
  cases hs with
  | finish hp | keyError hp | noIface hp iface | detected hp iface | nextConfig hp =>
    exact h.outside (by rw [hp]; rfl) rfl (by simp) rfl
  | opened hp hraw hkeys iface hphase =>
    obtain rfl | rfl := hphase
    · exact h.outside (by rw [hp]; rfl) rfl (by simp) rfl
    · exact h.outside (by rw [hp]; rfl) rfl (by simp) rfl
  | enter hp hloss => exact h.outside (by rw [hp]; rfl) rfl (by simp) rfl
  | stopped hp =>
    refine h.outside ?_ rfl (by simp) rfl
    obtain hp | hp | hp := hp
    all_goals rw [hp]; rfl
  | del hp hloss ran =>
    obtain rfl : ran = true := he
    exact h.removed rfl rfl
  | @added hp loss hloss hfree =>
    refine h.inside (fun key hkey => Function.update_of_ne hkey _ _) rfl rfl (by simp) ?_
    intro _ loss' hloss' hneg
    rw [hforce.adding hp loss' hloss'] at hneg
    cases hneg
  | addFails hp hloss applied =>
    refine h.inside (fun key hkey => ?_) ?_ rfl (by simp) (fun hm => (by cases hm))
    · cases applied
      · rfl
      · exact Function.update_of_ne hkey _ _
    · cases applied <;> rfl
  | process he hp hraw hstart hs =>
    obtain ⟨main, -, rfl⟩ := process_eq hs
    exact ⟨h.others, h.added, h.unimpaired⟩
  | background hs =>
    obtain ⟨main, -, rfl⟩ := process_eq hs
    exact ⟨h.others, h.added, h.unimpaired⟩
  | @exited hp code hm =>
    have hunimpaired := h.unimpaired (by rw [hp]; rfl)
    refine h.inside (fun _ _ => rfl) rfl ?_ ?_ (fun _ => hunimpaired)
    · by_cases hcode : code = 0 <;> simp [hcode, inTry]
    · by_cases hcode : code = 0 <;> simp [hcode]
  | interrupt hp phase | moved hp hloss hslash | moveFails hr hp files =>
    exact h.inside (fun _ _ => rfl) rfl rfl (by simp) (fun hm => (by cases hm))
  | clear hp ran hleaves =>
    obtain rfl : ran = true := he
    exact h.removed rfl rfl

theorem inForce_run {main : OrchestrateMain.State} {es : List Event}
    (hr : Transition.run (step rates built args) (start qdisc main) es = some s) : InForce rates args s :=
  Transition.invariant (fun _ _ _ h hs => inForce_step h (stepped_of_step hs))
    (inForce_of_other (show (start qdisc main).phase = .outer from rfl) (by simp) rfl) hr

theorem restored_run {main : OrchestrateMain.State} {es : List Event}
    (hr : Transition.run (step rates built args) (start qdisc main) es = some s)
    (hran : ∀ e ∈ es, removes e = true) : Restored rates args qdisc s := by
  revert hran
  refine Transition.run_induction (motive := fun es s => (∀ e ∈ es, removes e = true) → Restored rates args qdisc s)
    ?_ ?_ hr
  · intro _
    exact ⟨fun key _ => .inl rfl, fun hp => (by cases hp), fun hm => (by cases hm)⟩
  · intro es e s t hrun ih hs hran
    rw [List.forall_mem_append, List.forall_mem_singleton] at hran
    exact restored_step (ih hran.1) (inForce_run hrun) hran.2 (stepped_of_step hs)

/-- A positive loss rate is in force on the server's interface whenever an
experiment of its turn runs, whichever commands fail. If the removals arrive,
the rate 0 is in force as well, and at every point outside of the `try`, where
an exception leaves the script too, no interface has a loss that it did not have
at the start. -/
theorem loss_in_force (rates : Rates F) (built : String → String → Bool) (args : Args F)
    (qdisc : String × String → Option F) (main : OrchestrateMain.State) (es : List Event) (s : State F)
    (hr : Transition.run (step rates built args) (start qdisc main) es = some s) :
    (measuring s.phase = true → ∀ loss, args.loss[s.rate]? = some loss → rates.positive loss = true →
      s.qdisc (s.host, s.iface) = some loss) ∧
    ((∀ e ∈ es, removes e = true) →
      (measuring s.phase = true → ∀ loss, args.loss[s.rate]? = some loss →
        s.qdisc (s.host, s.iface) = Rates.named rates loss) ∧
      (inTry s.phase = false → ∀ key, s.qdisc key = qdisc key ∨ s.qdisc key = none)) := by
  have hforce := (inForce_run hr).impaired
  refine ⟨hforce, fun hran => ?_⟩
  have hrest := restored_run hr hran
  refine ⟨?_, fun hout key => hrest.others key (.inr hout)⟩
  intro hm loss hloss
  rw [Rates.named]
  split
  · exact hforce hm loss hloss ‹_›
  · exact hrest.unimpaired hm loss hloss (Bool.eq_false_iff.mpr ‹_›)

def percents : Rates Nat := ⟨fun n => 0 < n, fun n => toString n ++ ".0"⟩

def pairFile : RawConfig where
  name := some "pair"
  protocol := some "tcp"
  server := some ⟨some "node0", some "root"⟩
  clients := some [⟨some "node1", none⟩]
  binaryDir := none
  outputDir := some ⟨["results", "pair"], false⟩

def pairArgs : Args Nat := ⟨[pairFile], [5, 0], none⟩

def deployed : OrchestrateMain.State :=
  ⟨.outside, fun _ => true, ⟨0, none, [], [], [], fun _ => none, fun _ => none⟩⟩

/-- The turn of 5 % up to the call of the experiment. -/
def impairing : List Event :=
  [.openConfig, .detect "eth1", .next, .del true, .add .added, .process (.start pairFile false),
    .process (.test true), .process (.test true), .process .call]

theorem impairing_in_force : ∃ s, Transition.run (step percents (fun _ _ => true) pairArgs)
    (start (fun _ => none) deployed) impairing = some s ∧ s.main.phase = .running ∧
    s.qdisc ("node0", "eth1") = some 5 := by
  have hrun : (Transition.run (step percents (fun _ _ => true) pairArgs) (start (fun _ => none) deployed)
      impairing).map (fun s => (s.main.phase, s.phase, s.rate, s.host, s.iface)) =
      some (.running, .process, 0, "node0", "eth1") := by decide +kernel
  obtain ⟨s, hs, hfields⟩ := Option.map_eq_some_iff.mp hrun
  simp only [Prod.mk.injEq] at hfields
  obtain ⟨hmain, hphase, hrate, hhost, hiface⟩ := hfields
  have hforce := (loss_in_force _ _ _ _ _ _ _ hs).1 (by rw [hphase]; rfl) 5 (by rw [hrate]; rfl) rfl
  rw [hhost, hiface] at hforce
  exact ⟨s, hs, hmain, hforce⟩

end DcBench.StressNetem

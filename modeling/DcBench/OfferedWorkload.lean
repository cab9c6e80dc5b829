import DcBench.OfferedClosed
import DcBench.HomaOpenBooks
import DcBench.OpenLoopDelivery

namespace DcBench.OfferedWorkload

open DcBench.Lib DcBench.Message DcBench.Workload DcBench.WorkloadGenerator DcBench.OfferedClosed
open DcBench.ClosedLoopBooks (call callOf)
open DcBench.DoRequest (Call)

/-- A request of an open loop with its scheduled arrival. -/
structure Offer where
  time : Int
  call : Call
deriving DecidableEq

/-- When the `n`-th arrival is due, from the start of the loop. -/
def offset (gen : Nat → Turn) (n : Nat) : Int := ((List.range n).map (fun k => 1000 * truncate (gen k).waitUs)).sum

theorem offset_succ (gen : Nat → Turn) (n : Nat) :
    offset gen (n + 1) = offset gen n + 1000 * truncate (gen n).waitUs := by
  rw [offset, List.range_succ, List.map_append, List.sum_append, List.map_singleton, List.sum_singleton, offset]

def offer (gen : Nat → Turn) (k : Nat) : Offer := ⟨offset gen (k + 1), call (fun k => (gen k).size) k⟩

def offers (gen : Nat → Turn) (n : Nat) : List Offer := (List.range n).map (offer gen)

theorem offers_succ (gen : Nat → Turn) (n : Nat) : offers gen (n + 1) = offers gen n ++ [offer gen n] := by
  rw [offers, List.range_succ, List.map_append, List.map_singleton, offers]

section Tcp

open DcBench.OpenLoop DcBench.OpenLoopMoves

variable {P : Nat} {cfg : WorkloadConfig} {gen : Nat → Turn} {clock : UInt64} {s s' : State P}

def tcpOffers (clock : UInt64) (s : State P) : List Offer :=
  s.issued.map (fun x => ⟨x.arrival - clock.toNat, x.req.call⟩)

structure Scheduled (gen : Nat → Turn) (clock : UInt64) (s : State P) : Prop where
  nextTime : s.nextTime = clock.toNat + offset gen s.i.toNat
  offers : tcpOffers clock s = offers gen s.i.toNat

theorem scheduled_step {e : Event P} (h : Scheduled gen clock s) (hs : step cfg gen s e = some s') :
    Scheduled gen clock s' := by
  cases e with
  | tick t =>
    obtain ⟨-, heq⟩ := Option.ite_none_right_eq_some.mp hs
    cases heq
    exact ⟨h.nextTime, h.offers⟩
  | push =>
    obtain ⟨j, hp⟩ := pushed_of_step hs
    have hsucc := toNat_succ_of_lt hp.lt
    have htime : s'.nextTime = clock.toNat + offset gen (s.i.toNat + 1) := by
      rw [hp.arrival.1, h.nextTime, offset_succ, Int.add_assoc]
    have hi : s'.i = s.i + 1 := congrArg State.i hp.eq
    have hissued := congrArg State.issued hp.eq
    refine ⟨by rw [hi, hsucc, htime], ?_⟩
    have hcall : PendingRequest.call (pending cfg s.i (gen s.i.toNat).size) = call (fun k => (gen k).size) s.i.toNat := by
      rw [call, UInt64.ofNat_uInt32ToNat]
      rfl
    rw [hi, hsucc, offers_succ, ← h.offers, tcpOffers, hissued, List.map_append, List.map_singleton, htime, hcall, offer]
    congr 3
    exact add_sub_cancel_left _ _
  | stop =>
    obtain ⟨-, heq⟩ := Option.ite_none_right_eq_some.mp hs
    cases heq
    exact ⟨h.nextTime, h.offers⟩
  | worker j ev =>
    obtain ⟨w, -, rfl⟩ := worker_of_step hs
    exact ⟨h.nextTime, h.offers⟩

end Tcp

section Homa

open DcBench.HomaOpenLoop DcBench.HomaLedger DcBench.HomaOpenBooks

variable {cfg : WorkloadConfig} {gen : Nat → Turn} {clock : UInt64} {s s' : State} {e : Event}

def stamped (s : State) : Event → List Offer
  | .stamp => (current s.sender).toList.map (fun hdr => ⟨s.nextTime, callOf hdr⟩)
  | _ => []

/-- The open loop with the list of the requests it has stamped. -/
def homaStep (cfg : WorkloadConfig) (gen : Nat → Turn) (s : State × List Offer) (e : Event) :
    Option (State × List Offer) :=
  (step cfg gen s.1 e).map (fun t => (t, s.2 ++ stamped t e))

def homaOffers (clock : UInt64) (os : List Offer) : List Offer :=
  os.map (fun o => { o with time := o.time - clock.toNat })

def issuedOpen (s : State) : Nat := s.i.toNat + (current s.sender).toList.length

structure Stamped (cfg : WorkloadConfig) (gen : Nat → Turn) (clock : UInt64) (s : State × List Offer) : Prop where
  ledger : Ledger cfg s.1
  booked : Booked cfg gen s.1
  nextTime : s.1.nextTime = clock.toNat + offset gen (issuedOpen s.1)
  offers : homaOffers clock s.2 = offers gen (issuedOpen s.1)

theorem issuedOpen_step (hl : Ledger cfg s) (hs : step cfg gen s e = some s') :
    issuedOpen s' = issuedOpen s + if e = .stamp then 1 else 0 := by
  cases move_of_step hs with
  | tick t ht | test r hr hr' | recvFails hr | recv id hr hid ht | stampRecv id hr | lookup id recvTs hr => rfl
  | stamp nextTime hsnd hi => simp [issuedOpen, current, hsnd]
  | sendFails hdr hsnd => simp [issuedOpen, current, hsnd]
  | send id hdr hsnd hid hf => simp [issuedOpen, current, hsnd]
  | insert id hdr hsnd => simp [issuedOpen, current, hsnd]
  | account hdr hsnd =>
    have hsucc := toNat_succ_of_lt (hl.inTurn (by simp [hsnd]) (by simp [hsnd]))
    simp [issuedOpen, current, hsnd, hsucc]
  | stop hsnd hi => simp [issuedOpen, current, hsnd]

theorem issuedOpen_le (hl : Ledger cfg s) : issuedOpen s ≤ cfg.total.toNat := by
  cases hs : s.sender with
  | next | stopped =>
    rw [issuedOpen, hs]
    exact UInt32.le_iff_toNat_le.mp hl.turn
  | stamped hdr | sent id hdr | account hdr =>
    rw [issuedOpen, hs]
    exact UInt32.lt_iff_toNat_lt.mp (hl.inTurn (by simp [hs]) (by simp [hs]))

theorem nextTime_step (hs : step cfg gen s e = some s') (he : e ≠ .stamp) : s'.nextTime = s.nextTime := by
  cases move_of_step hs with
  | stamp nextTime hsnd hi => exact absurd rfl he
  | _ => rfl

theorem stamp_step (hs : step cfg gen s .stamp = some s') :
    current s.sender = none ∧ s'.nextTime = s.nextTime + 1000 * truncate (gen s.i.toNat).waitUs ∧
      s'.sender = .stamped (header s.i (gen s.i.toNat).size s.clock) := by
  obtain ⟨⟨hsnd, -, -⟩, heq⟩ := Option.ite_none_right_eq_some.mp hs
  cases heq
  exact ⟨by rw [hsnd]; rfl, rfl, rfl⟩

theorem stamped_step {s s' : State × List Offer} (h : Stamped cfg gen clock s) (hs : homaStep cfg gen s e = some s') :
    Stamped cfg gen clock s' := by
  obtain ⟨t, ht, rfl⟩ := Option.map_eq_some_iff.mp hs
  have hm := move_of_step ht
  have hissued := issuedOpen_step h.ledger ht
  refine ⟨ledger_move h.ledger hm, booked_move h.ledger h.booked hm, ?_, ?_⟩
  · by_cases he : e = .stamp
    · subst he
      obtain ⟨hnone, htime, -⟩ := stamp_step ht
      have hi : issuedOpen s.1 = s.1.i.toNat := by rw [issuedOpen, hnone]; rfl
      rw [if_pos rfl] at hissued
      rw [hissued, htime, h.nextTime, hi, offset_succ, Int.add_assoc]
    · rw [if_neg he, Nat.add_zero] at hissued
      rw [hissued, nextTime_step ht he, h.nextTime]
  · by_cases he : e = .stamp
    · subst he
      obtain ⟨hnone, htime, hsnd⟩ := stamp_step ht
      have hi : issuedOpen s.1 = s.1.i.toNat := by rw [issuedOpen, hnone]; rfl
      have hcall := HomaClosedLoop.callOf_header (fun k => (gen k).size) s.1.i s.1.clock
      have hnext : t.nextTime - clock.toNat = offset gen (s.1.i.toNat + 1) := by
        rw [htime, h.nextTime, hi, offset_succ]
        omega
      rw [if_pos rfl] at hissued
      rw [hissued, offers_succ, ← h.offers, homaOffers, List.map_append, homaOffers, hi]
      congr 1
      simp only [stamped, hsnd, current, Option.toList_some, List.map_singleton, hnext, offer]
      rw [hcall]
    · rw [if_neg he, Nat.add_zero] at hissued
      have hnil : stamped t e = [] := by cases e <;> first | rfl | exact absurd rfl he
      rw [hissued, hnil, List.append_nil, h.offers]

theorem stamped_start (cfg : WorkloadConfig) (gen : Nat → Turn) (clock : UInt64) :
    Stamped cfg gen clock (start clock, []) where
  ledger := ledger_start cfg clock
  booked := ⟨nofun, .nil, nofun, nofun, rfl⟩
  nextTime := by simp [issuedOpen, offset, start, current]
  offers := rfl

end Homa

variable {D G : Type} (lib : Library D G) (cfg : GeneratorConfig D)

/-- `TcpClient::run_open_loop` with its generator. `draws` are the draws of the
scheduler, which has an engine of its own. -/
def tcpOpenStep (P : Nat) (draws : Nat → UInt32 → UInt32 → UInt32) :=
  Source.drawing (ι := Unit) (nextArrival lib cfg)
    (fun a => OpenLoop.step (P := P) cfg.toWorkloadConfig (fun k => ⟨(a ()).waitUs, (a ()).size, draws k⟩))
    (fun _ e => if e = .push then some () else none)

/-- `HomaClient::run_open_loop` with its generator. -/
def homaOpenStep :=
  Source.drawing (ι := Unit) (nextArrival lib cfg)
    (fun a => homaStep cfg.toWorkloadConfig (fun _ => ⟨(a ()).waitUs, (a ()).size, fun lo _ => lo⟩))
    (fun _ e => if e = .stamp then some () else none)

/-- The turns of the producer: what the generator and the scheduler draw. -/
def turns (draws : Nat → UInt32 → UInt32 → UInt32) (k : Nat) : Turn :=
  ⟨(arrivals lib cfg k).waitUs, (arrivals lib cfg k).size, draws k⟩

def offeredOpen : List Offer := offers (turns lib cfg (fun _ lo _ => lo)) cfg.total.toNat

variable {lib cfg}

theorem offers_turns (draws draws' : Nat → UInt32 → UInt32 → UInt32) (n : Nat) :
    offers (turns lib cfg draws) n = offers (turns lib cfg draws') n := rfl

theorem count_unit {p : Prop} [Decidable p] (n : Unit → Nat) (k : Unit) :
    Source.count (if p then some () else none) n k = n k + if p then 1 else 0 := by
  rw [Source.count_ite]
  simp

theorem run_of_tcpOpen {P : Nat} {draws : Nat → UInt32 → UInt32 → UInt32} {s₀ : OpenLoop.State P}
    {es : List (OpenLoop.Event P)} {s : OpenLoop.State P × (Unit → G)} (hzero : s₀.i = 0)
    (hr : Transition.run (tcpOpenStep lib cfg P draws) (s₀, fun _ => lib.engine 42) es = some s) :
    Transition.run (OpenLoop.step cfg.toWorkloadConfig (turns lib cfg draws)) s₀ es = some s.1 := by
  refine Source.run_of_drawing (P := fun _ => True) (fun s _ => s.i.toNat) (fun _ => lib.engine 42)
    (fun _ _ _ _ _ => trivial) ?_ ?_ trivial (by rw [hzero]; rfl) hr
  · intro s e _
    cases e <;> rfl
  · intro s e t _ hs
    funext k
    rw [count_unit]
    cases e with
    | tick r =>
      obtain ⟨-, heq⟩ := Option.ite_none_right_eq_some.mp hs
      cases heq
      rfl
    | push =>
      obtain ⟨j, hp⟩ := OpenLoopMoves.pushed_of_step hs
      have hi : t.i = s.i + 1 := congrArg OpenLoop.State.i hp.eq
      rw [hi, toNat_succ_of_lt hp.lt, if_pos rfl]
    | stop =>
      obtain ⟨-, heq⟩ := Option.ite_none_right_eq_some.mp hs
      cases heq
      rfl
    | worker j ev =>
      obtain ⟨w, -, rfl⟩ := OpenLoopMoves.worker_of_step hs
      rfl

theorem run_of_homaOpen {clock : UInt64} {es : List HomaOpenLoop.Event}
    {s : (HomaOpenLoop.State × List Offer) × (Unit → G)}
    (hr : Transition.run (homaOpenStep lib cfg) ((HomaOpenLoop.start clock, []), fun _ => lib.engine 42) es = some s) :
    Transition.run (homaStep cfg.toWorkloadConfig (turns lib cfg (fun _ lo _ => lo))) (HomaOpenLoop.start clock, []) es =
      some s.1 := by
  refine Source.run_of_drawing (P := Stamped cfg.toWorkloadConfig (turns lib cfg (fun _ lo _ => lo)) clock)
    (fun s _ => issuedOpen s.1) (fun _ => lib.engine 42) (fun _ _ _ h hs => stamped_step h hs) ?_ ?_ ?_ rfl hr
  · intro s e _
    cases e with
    | stamp =>
      cases hs : s.1.sender with
      | next =>
        have hi : issuedOpen s.1 = s.1.i.toNat := by rw [issuedOpen, hs]; rfl
        simp only [homaStep, HomaOpenLoop.step, hi]
        rfl
      | stamped hdr | sent id hdr | account hdr | stopped => simp [homaStep, HomaOpenLoop.step, hs]
    | send r | recv r => cases r <;> rfl
    | tick t | insert | account | stop | test | stampRecv | lookup => rfl
  · intro s e t h hs
    funext k
    obtain ⟨u, hu, rfl⟩ := Option.map_eq_some_iff.mp hs
    rw [count_unit, issuedOpen_step h.ledger hu]
  · exact stamped_start _ _ clock

theorem exited_step {warmup count : UInt32} {sizes : Nat → UInt32} {clock : UInt64} {w w' : HomaClosedLoop.Worker}
    {ev : HomaClosedLoop.WorkerEvent} (hturn : w.i ≤ warmup + count)
    (hs : w.step warmup count sizes clock ev = some w') (hev : ev ≠ .socket false) (hexit : w'.phase = .exited) :
    w'.i = warmup + count := by
  have hopen : w.phase ≠ .socket := by
    intro hp
    cases ev with
    | socket valid =>
      cases valid with
      | false => exact hev rfl
      | true =>
        simp only [HomaClosedLoop.Worker.step, hp, Option.some.injEq] at hs
        subst hs
        cases hexit
    | next | send r | recv r | now | account => simp [HomaClosedLoop.Worker.step, hp] at hs
  cases HomaClosedLoop.moved_of_step hs with
  | invalid hp => exact absurd hp hopen
  | exit hp hlt => exact UInt32.le_antisymm hturn (UInt32.not_lt.mp hlt)
  | opened | stamp | sendFails | send | recv | now | account => cases hexit

/-- A worker of the Homa client whose socket is valid leaves its loop only after
its last request. -/
theorem exited_homa {P : UInt32} {counts : WorkloadConfig} {gens : Fin P.toNat → Nat → UInt32} {clock : UInt64}
    {es : List (HomaClosedLoop.Event P.toNat)} {s : HomaClosedLoop.State P.toNat}
    (hr : Transition.run (HomaClosedLoop.step counts P gens) (HomaClosedLoop.start clock P) es = some s)
    (hvalid : ∀ j, .worker j (.socket false) ∉ es) (j : Fin P.toNat) (hj : (s.workers j).phase = .exited) :
    (s.workers j).i = counts.warmup P + counts.count P (UInt32.ofNat j) := by
  revert hvalid j
  refine Transition.run_induction (motive := fun es s => (∀ j, .worker j (.socket false) ∉ es) → ∀ j : Fin P.toNat,
    (s.workers j).phase = .exited → (s.workers j).i = counts.warmup P + counts.count P (UInt32.ofNat j)) ?_ ?_ hr
  · intro _ j hj
    cases hj
  · intro es e s t hrun ih hs hvalid
    have ih := ih (fun k hk => hvalid k (List.mem_append_left _ hk))
    cases e with
    | tick r =>
      obtain ⟨-, heq⟩ := Option.ite_none_right_eq_some.mp hs
      cases heq
      exact ih
    | worker k ev =>
      obtain ⟨w, hw, rfl⟩ := Option.map_eq_some_iff.mp hs
      have hev : ev ≠ .socket false := by
        rintro rfl
        exact hvalid k (List.mem_append_right _ List.mem_cons_self)
      apply (Function.forall_update_iff s.workers (fun j w => w.phase = .exited →
        w.i = counts.warmup P + counts.count P (UInt32.ofNat j))).mpr
      exact ⟨exited_step ((HomaClosedLoop.inv_run hrun).workers k).turn hw hev, fun j _ => ih j⟩

/-- The descriptors of a pool that are open at the same time: `int`s, not
negative, all different. -/
structure ValidSockets {P : Nat} (fds : Fin P → Int) : Prop where
  nonneg : ∀ j, 0 ≤ fds j
  int : ∀ j, fds j < 2 ^ 31
  distinct : Function.Injective fds

theorem ValidSockets.le {P : Nat} {fds : Fin P → Int} (h : ValidSockets fds) : P ≤ 2 ^ 31 := by
  have hlt (j : Fin P) : (fds j).toNat < 2 ^ 31 := by
    have := h.nonneg j
    have := h.int j
    omega
  have hinj : Function.Injective (fun j => (⟨(fds j).toNat, hlt j⟩ : Fin (2 ^ 31))) := by
    intro j k hjk
    have heq : (fds j).toNat = (fds k).toNat := congrArg Fin.val hjk
    have := h.nonneg j
    have := h.nonneg k
    exact h.distinct (by omega)
  have hcard := Fintype.card_le_of_injective _ hinj
  rwa [Fintype.card_fin, Fintype.card_fin] at hcard

/-- Both clients follow one and the same list of requests and exhaust it. -/
structure SameOffer {α : Type} (offered tcp homa : List α) (tcpOver homaOver : Prop) : Prop where
  tcpBegins : tcp <+: offered
  homaBegins : homa <+: offered
  tcpAll : tcpOver → tcp = offered
  homaAll : homaOver → homa = offered
  agree : tcpOver → homaOver → tcp = homa

theorem map_range_begins {α : Type} (f : Nat → α) {n m : Nat} (h : n ≤ m) :
    (List.range n).map f <+: (List.range m).map f := by
  rw [← Nat.min_eq_left h, ← List.take_range, List.map_take]
  exact List.take_prefix _ _

theorem sameOffer_of_eq {α : Type} {f : Nat → α} {n m k : Nat} {tcp homa : List α} {tcpOver homaOver : Prop}
    (htcp : tcp = (List.range n).map f) (hhoma : homa = (List.range m).map f) (hn : n ≤ k) (hm : m ≤ k)
    (htcpOver : tcpOver → n = k) (hhomaOver : homaOver → m = k) :
    SameOffer ((List.range k).map f) tcp homa tcpOver homaOver where
  tcpBegins := by
    rw [htcp]
    exact map_range_begins f hn
  homaBegins := by
    rw [hhoma]
    exact map_range_begins f hm
  tcpAll := fun h => by rw [htcp, htcpOver h]
  homaAll := fun h => by rw [hhoma, hhomaOver h]
  agree := fun h h' => by rw [htcp, hhoma, htcpOver h, hhomaOver h']

theorem issued_le {warmup count : UInt32} {sizes : Nat → UInt32} {w : ClosedLoop.Worker}
    (h : ClosedLoopBooks.WorkerInv warmup count sizes w) : ClosedLoopBooks.issued w ≤ (warmup + count).toNat := by
  have hturn := UInt32.le_iff_toNat_le.mp h.turn
  cases hp : w.phase with
  | test | exited =>
    simp only [ClosedLoopBooks.issued, hp]
    exact hturn
  | inRequest size =>
    obtain ⟨hlt, -⟩ := h.inRequest hp
    simp only [ClosedLoopBooks.issued, hp]
    exact UInt32.lt_iff_toNat_lt.mp hlt
  | returned size rtt =>
    obtain ⟨-, hlt, -⟩ := h.returned hp
    simp only [ClosedLoopBooks.issued, hp]
    exact UInt32.lt_iff_toNat_lt.mp hlt

def tcpStart (lib : Library D G) (cfg : GeneratorConfig D) (clock : UInt64)
    (stack stack' : Fin cfg.closedLoopConcurrency.toNat → Fin headerSize → UInt8)
    (sendBuf recvBuf : Fin cfg.closedLoopConcurrency.toNat → List UInt8) :=
  (ClosedLoop.start clock cfg.closedLoopConcurrency stack stack' sendBuf recvBuf,
    fun j : Fin cfg.closedLoopConcurrency.toNat => lib.engine (tcpSeed (UInt32.ofNat j)))

def homaStart (lib : Library D G) (cfg : GeneratorConfig D) (clock : UInt64) :=
  (HomaClosedLoop.start clock cfg.closedLoopConcurrency,
    fun j : Fin cfg.closedLoopConcurrency.toNat => lib.engine (homaSeed (UInt32.ofNat j)))

theorem sameOffer_closed {clock clock' : UInt64}
    {stack stack' : Fin cfg.closedLoopConcurrency.toNat → Fin headerSize → UInt8}
    {sendBuf recvBuf : Fin cfg.closedLoopConcurrency.toNat → List UInt8}
    {es : List (ClosedLoop.Event cfg.closedLoopConcurrency.toNat)}
    {es' : List (HomaClosedLoop.Event cfg.closedLoopConcurrency.toNat)}
    {s : ClosedLoop.State cfg.closedLoopConcurrency.toNat × (Fin cfg.closedLoopConcurrency.toNat → G)}
    {t : HomaClosedLoop.State cfg.closedLoopConcurrency.toNat × (Fin cfg.closedLoopConcurrency.toNat → G)}
    (hpool : cfg.closedLoopConcurrency.toNat ≤ 2 ^ 31)
    (hs : Transition.run (tcpClosedStep lib cfg) (tcpStart lib cfg clock stack stack' sendBuf recvBuf) es = some s)
    (ht : Transition.run (homaClosedStep lib cfg) (homaStart lib cfg clock') es' = some t)
    (hvalid : ∀ j, .worker j (.socket false) ∉ es') (j : Fin cfg.closedLoopConcurrency.toNat) :
    SameOffer (offered lib cfg j) ((s.1.workers j).client.calls.map callOf) ((requests (t.1.workers j)).map callOf)
      ((s.1.workers j).phase = .exited) ((t.1.workers j).phase = .exited) := by
  have hseed (k : Fin cfg.closedLoopConcurrency.toNat) :
      lib.engine (tcpSeed (UInt32.ofNat k)) = lib.engine (homaSeed (UInt32.ofNat k)) := by
    congr 1
    apply tcpSeed_eq_homaSeed
    have hk := k.isLt
    have hmod := Nat.mod_le k (2 ^ 32)
    rw [UInt32.toNat_ofNat']
    omega
  have hrun := run_of_tcpClosed (ClosedLoopBooks.inv_start _ _ _ clock stack stack' sendBuf recvBuf) (fun _ => rfl) hs
  have hrun' := run_of_homaClosed (HomaClosedLoop.inv_start _ _ _ clock') (fun _ => rfl) ht
  simp only [hseed] at hrun
  have hinv := (ClosedLoopBooks.inv_run hrun).workers j
  have hinv' := (HomaClosedLoop.inv_run hrun').workers j
  refine sameOffer_of_eq hinv.calls (requests_eq hinv') (issued_le hinv) (issuedHoma_le hinv') ?_ ?_
  · intro hp
    have hph := hinv.phase
    simp only [ClosedLoopBooks.PhaseOk, hp] at hph
    simp only [ClosedLoopBooks.issued, hp, hph.2]
    rfl
  · intro hp
    rw [issuedHoma, hp, exited_homa hrun' hvalid j hp]
    rfl

theorem sameOffer_open {clock clock' : UInt64} {policy : PriorityScheduler.SchedulingPolicy} {poolSize : UInt32}
    {draws : Nat → UInt32 → UInt32 → UInt32} {stack stack' : Fin poolSize.toNat → Fin headerSize → UInt8}
    {sendBuf recvBuf : Fin poolSize.toNat → List UInt8} {es : List (OpenLoop.Event poolSize.toNat)}
    {es' : List HomaOpenLoop.Event} {s : OpenLoop.State poolSize.toNat × (Unit → G)}
    {t : (HomaOpenLoop.State × List Offer) × (Unit → G)}
    (hs : Transition.run (tcpOpenStep lib cfg poolSize.toNat draws)
      (OpenLoop.start clock policy poolSize stack stack' sendBuf recvBuf, fun _ => lib.engine 42) es = some s)
    (ht : Transition.run (homaOpenStep lib cfg) ((HomaOpenLoop.start clock', []), fun _ => lib.engine 42) es' = some t) :
    SameOffer (offeredOpen lib cfg) (tcpOffers clock s.1) (homaOffers clock' t.1.2)
      (s.1.running = false) (t.1.1.sender = .stopped) := by
  have hrun := run_of_tcpOpen rfl hs
  have hrun' := run_of_homaOpen ht
  have hinv := OpenLoopDelivery.inv_run (OpenLoopDelivery.inv_start _ _ clock policy poolSize stack stack' sendBuf
    recvBuf) hrun
  have hsched : Scheduled (turns lib cfg draws) clock s.1 :=
    Transition.invariant (fun _ _ _ h hs => scheduled_step h hs) ⟨by simp [OpenLoop.start, offset], rfl⟩ hrun
  have hinv' : Stamped cfg.toWorkloadConfig (turns lib cfg (fun _ lo _ => lo)) clock' t.1 :=
    Transition.invariant (fun _ _ _ h hs => stamped_step h hs) (stamped_start _ _ clock') hrun'
  refine sameOffer_of_eq (hsched.offers.trans (offers_turns _ _ _)) hinv'.offers
    (UInt32.le_iff_toNat_le.mp hinv.turn) (issuedOpen_le hinv'.ledger) ?_ ?_
  · intro hstop
    rw [hinv.stopped hstop]
  · intro hstop
    rw [issuedOpen, hstop, hinv'.booked.stopped hstop]
    rfl

/-- Both clients are offered the same workload: `offered` and `offeredOpen` are
made from the configuration alone, and no run of either client departs from
them, whatever its requests come to. -/
theorem same_workload (lib : Library D G) (cfg : GeneratorConfig D) (fds : Fin cfg.closedLoopConcurrency.toNat → Int)
    (hfds : ValidSockets fds) :
    (∀ clock clock' stack stack' sendBuf recvBuf es es' s t,
      Transition.run (tcpClosedStep lib cfg) (tcpStart lib cfg clock stack stack' sendBuf recvBuf) es = some s →
      Transition.run (homaClosedStep lib cfg) (homaStart lib cfg clock') es' = some t →
      (∀ j, .worker j (.socket false) ∉ es') →
      ∀ j, SameOffer (offered lib cfg j) ((s.1.workers j).client.calls.map callOf)
        ((requests (t.1.workers j)).map callOf) ((s.1.workers j).phase = .exited) ((t.1.workers j).phase = .exited)) ∧
    (∀ clock clock' policy poolSize draws stack stack' sendBuf recvBuf es es' s t,
      Transition.run (tcpOpenStep lib cfg (UInt32.toNat poolSize) draws)
        (OpenLoop.start clock policy poolSize stack stack' sendBuf recvBuf, fun _ => lib.engine 42) es = some s →
      Transition.run (homaOpenStep lib cfg) ((HomaOpenLoop.start clock', []), fun _ => lib.engine 42) es' = some t →
      SameOffer (offeredOpen lib cfg) (tcpOffers clock s.1) (homaOffers clock' t.1.2) (s.1.running = false)
        (t.1.1.sender = .stopped)) := by
  constructor
  · intro clock clock' stack stack' sendBuf recvBuf es es' s t hs ht hvalid j
    exact sameOffer_closed hfds.le hs ht hvalid j
  · intro clock clock' policy poolSize draws stack stack' sendBuf recvBuf es es' s t hs ht
    exact sameOffer_open hs ht

/-- Exact arithmetic and a linear congruential engine, of which each draw takes
the upper half. -/
def congruential : Library ℚ UInt64 :=
  let next (g : UInt64) : UInt64 := g * 6364136223846793005 + 1442695040888963407
  let unit (g : UInt64) : ℚ := (g >>> 32).toNat / 2 ^ 32
  { literal := id
    ofUInt32 := fun n => n.toNat
    toUInt32 := fun x => UInt32.ofNat ⌊x⌋.toNat
    value := id
    le := fun x y => decide (x ≤ y)
    sub := (· - ·)
    div := (· / ·)
    pow := fun x _ => x
    engine := next
    uniformInt := fun lo hi g => (lo + ((g >>> 32) % ((hi - lo).toUInt64 + 1)).toUInt32, next g)
    uniformReal := fun lo hi g => (lo + (hi - lo) * unit g, next g)
    bernoulli := fun p g => (decide (unit g < p), next g)
    exponential := fun rate g => (unit g / rate, next g) }

/-- Payloads of one to nine bytes, two workers or an arrival every few microseconds. -/
def mixed : GeneratorConfig ℚ where
  warmupRequests := 2
  numRequests := 3
  distribution := .uniform
  fixedSize := 1024
  uniformMin := 1
  uniformMax := 9
  bimodalSmall := 256
  bimodalLarge := 1048576
  bimodalSmallFraction := 9 / 10
  paretoShape := 3 / 2
  paretoScale := 256
  paretoMax := 2097152
  targetRps := 200000
  closedLoopConcurrency := 2

/-- The first request of worker 0 fails, then one of worker 1. -/
def tcpClosed : List (ClosedLoop.Event 2) :=
  [.worker 0 .next, .worker 0 (.send .error), .worker 0 .account, .worker 0 .next, .worker 1 .next,
    .worker 1 (.send (.sent 22)), .worker 0 (.send (.sent 22)), .worker 0 (.send (.sent 1)),
    .worker 0 (.send (.sent 2)), .worker 1 (.send (.sent 6)), .tick 9, .worker 1 (.recv .eof), .worker 1 .account,
    .worker 0 (.recv (.data (List.replicate 22 0))), .worker 0 .now, .worker 0 .account, .worker 0 .next,
    .worker 0 (.send (.sent 9)), .worker 1 .next, .worker 1 (.send (.sent 22)), .worker 1 (.send (.sent 3)),
    .worker 1 (.recv (.data (List.replicate 22 0))), .worker 1 .now, .worker 1 .account, .worker 0 (.send .error),
    .worker 0 .account, .worker 0 .next, .worker 1 .next]

/-- The second request of worker 0 cannot be sent, its third is not answered. -/
def homaClosed : List (HomaClosedLoop.Event 2) :=
  [.worker 0 (.socket true), .worker 1 (.socket true), .worker 0 .next, .worker 0 (.send 0), .worker 1 .next, .tick 7,
    .worker 0 (.recv 26), .worker 0 .now, .worker 0 .account, .worker 0 .next, .worker 0 (.send (-1)),
    .worker 1 (.send 0), .worker 1 (.recv 28), .worker 1 .now, .worker 1 .account, .worker 0 .next,
    .worker 0 (.send 0), .worker 1 .next, .worker 1 (.send 0), .worker 0 (.recv (-1)), .worker 0 .now,
    .worker 0 .account, .worker 0 .next, .worker 1 (.recv 25), .worker 1 .now, .worker 1 .account, .worker 1 .next]

/-- The first request fails before the second is pushed. -/
def tcpOpen : List (OpenLoop.Event 2) :=
  [.tick 100000, .push, .worker 0 .test, .worker 0 .pop, .worker 0 .call, .worker 0 (.send .error), .worker 0 .account,
    .push, .push, .push, .push, .stop]

def homaOpen : List HomaOpenLoop.Event :=
  [.tick 100000, .stamp, .send none, .account, .stamp, .send (some 7), .insert, .account, .test, .recv (some 7),
    .stampRecv, .lookup, .stamp, .send (some 9), .insert, .account, .stamp, .send none, .account, .stamp,
    .send (some 11), .insert, .account, .stop]

theorem mixed_same : ∃ s t u v,
    Transition.run (tcpClosedStep congruential mixed) (tcpStart congruential mixed 3 (fun _ _ => 0) (fun _ _ => 0)
      (fun _ => []) (fun _ => [])) tcpClosed = some s ∧
    Transition.run (homaClosedStep congruential mixed) (homaStart congruential mixed 5) homaClosed = some t ∧
    Transition.run (tcpOpenStep congruential mixed 2 (fun _ lo _ => lo)) (OpenLoop.start 3 .roundRobin 2 (fun _ _ => 0)
      (fun _ _ => 0) (fun _ => []) (fun _ => []), fun _ => congruential.engine 42) tcpOpen = some u ∧
    Transition.run (homaOpenStep congruential mixed) ((HomaOpenLoop.start 5, []), fun _ => congruential.engine 42)
      homaOpen = some v ∧
    (∀ j, (s.1.workers j).client.calls.map callOf = (requests (t.1.workers j)).map callOf) ∧
    tcpOffers 3 u.1 = homaOffers 5 v.1.2 ∧ u.1.issued.length = 5 := by
  have hs : (Transition.run (tcpClosedStep congruential mixed) (tcpStart congruential mixed 3 (fun _ _ => 0)
      (fun _ _ => 0) (fun _ => []) (fun _ => [])) tcpClosed).map (fun s => decide (∀ j, (s.1.workers j).phase = .exited)) =
      some true := by decide +kernel
  have ht : (Transition.run (homaClosedStep congruential mixed) (homaStart congruential mixed 5) homaClosed).map
      (fun t => decide (∀ j, (t.1.workers j).phase = .exited)) = some true := by decide +kernel
  have hu : (Transition.run (tcpOpenStep congruential mixed 2 (fun _ lo _ => lo)) (OpenLoop.start 3 .roundRobin 2
      (fun _ _ => 0) (fun _ _ => 0) (fun _ => []) (fun _ => []), fun _ => congruential.engine 42) tcpOpen).map
      (fun u => (u.1.running, u.1.issued.length)) = some (false, 5) := by decide +kernel
  have hv : (Transition.run (homaOpenStep congruential mixed) ((HomaOpenLoop.start 5, []),
      fun _ => congruential.engine 42) homaOpen).map (fun v => v.1.1.sender) = some .stopped := by decide +kernel
  obtain ⟨s, hs, hsOver⟩ := Option.map_eq_some_iff.mp hs
  obtain ⟨t, ht, htOver⟩ := Option.map_eq_some_iff.mp ht
  obtain ⟨u, hu, huOver⟩ := Option.map_eq_some_iff.mp hu
  obtain ⟨v, hv, hvOver⟩ := Option.map_eq_some_iff.mp hv
  obtain ⟨huOver, hlen⟩ := Prod.mk.inj huOver
  have hfds : ValidSockets (P := mixed.closedLoopConcurrency.toNat) (fun j => 4 + (j : Nat)) :=
    ⟨by decide, by decide, by decide⟩
  obtain ⟨hclosed, hopen⟩ := same_workload congruential mixed (fun j => 4 + (j : Nat)) hfds
  refine ⟨s, t, u, v, hs, ht, hu, hv, ?_, ?_, hlen⟩
  · intro j
    have hvalid : ∀ j : Fin 2, HomaClosedLoop.Event.worker j (.socket false) ∉ homaClosed := by decide
    have hsame := hclosed 3 5 _ _ _ _ tcpClosed homaClosed s t hs ht hvalid j
    exact hsame.agree (of_decide_eq_true hsOver j) (of_decide_eq_true htOver j)
  · exact (hopen 3 5 .roundRobin 2 _ _ _ _ _ _ _ u v hu hv).agree huOver hvOver

end DcBench.OfferedWorkload

import DcBench.HomaBenchmark
import DcBench.Lib.Numerals
import DcBench.Lib.Pointwise
import Mathlib.Algebra.Order.BigOperators.Group.Finset

namespace DcBench.HomaEndToEnd

open DcBench.Lib DcBench.Message DcBench.Workload DcBench.HomaBenchmark
open DcBench.HomaServer (Parcel AnswersParcel Echoing)
open DcBench.HomaClosedLoop (Worker Exchange Outcome Phase Moved moved_of_step)

/-- The request that the kernel has accepted and the worker has not yet booked. -/
def inKernel : Phase → List MessageHeader
  | .recv hdr | .received hdr _ | .stamped hdr _ _ => [hdr]
  | _ => []

def accepted (w : Worker) : List Exchange := w.exchanges.filter (fun x => decide (x.outcome ≠ .sendFails))

def submitted (w : Worker) : List MessageHeader := (accepted w).map Exchange.request ++ inKernel w.phase

def isSuccess (x : Exchange) : Bool :=
  match x.outcome with
  | .success _ => true
  | _ => false

def booking : Phase → Nat
  | .received _ received | .stamped _ received _ => if 0 < received then 1 else 0
  | _ => 0

def succeeded (w : Worker) : Nat := w.exchanges.countP isSuccess + booking w.phase

def waiting : Phase → Nat
  | .recv _ => 1
  | _ => 0

def Own (p : Parcel) (reply : Option Parcel) : Prop := ∃ r, reply = some r ∧ r.rpcId = p.rpcId

/-- A worker and the history of its socket. As long as no call of `recv` has
failed, the only RPC without a response is the present one. -/
structure WorkerOk (addr : UInt32 × UInt16) (w : Worker) (sent : List Parcel) (got : List (Option Parcel)) : Prop where
  requests : List.Forall₂ (fun hdr (p : Parcel) => p.src = addr ∧ p.bytes = wire hdr) (submitted w) sent
  turn : sent.length = got.length + waiting w.phase
  successes : succeeded w ≤ (taken got).length
  own : none ∉ got → List.Forall₂ Own (sent.take got.length) got

variable {warmup count : UInt32} {sizes : Nat → UInt32} {clock : UInt64} {addr : UInt32 × UInt16} {w w' : Worker}
  {sent : List Parcel} {got : List (Option Parcel)}

theorem WorkerOk.quiet (h : WorkerOk addr w sent got) (hsub : submitted w' = submitted w)
    (hsucc : succeeded w' = succeeded w) (hwait : waiting w'.phase = waiting w.phase) :
    WorkerOk addr w' sent got := by
  refine ⟨?_, ?_, ?_, h.own⟩
  · rw [hsub]
    exact h.requests
  · rw [hwait]
    exact h.turn
  · rw [hsucc]
    exact h.successes

theorem WorkerOk.local {ev : HomaClosedLoop.WorkerEvent} (h : WorkerOk addr w sent got)
    (hev : ∀ received, ev ≠ .recv received) (hsend : ∀ value, 0 ≤ value → ev ≠ .send value)
    (hs : w.step warmup count sizes clock ev = some w') : WorkerOk addr w' sent got := by
  cases ev with
  | recv received => exact absurd rfl (hev received)
  | socket valid =>
    cases hp : w.phase <;> simp only [Worker.step, hp, Option.some.injEq, reduceCtorEq] at hs
    subst hs
    apply h.quiet
    all_goals cases valid <;> simp [submitted, accepted, succeeded, inKernel, booking, waiting, hp]
  | next =>
    cases hp : w.phase <;> simp only [Worker.step, hp, Option.some.injEq, reduceCtorEq] at hs
    subst hs
    by_cases hlt : w.i < warmup + count
    · simp only [if_pos hlt]
      apply h.quiet
      all_goals simp [submitted, accepted, succeeded, inKernel, booking, waiting, hp]
    · simp only [if_neg hlt]
      apply h.quiet
      all_goals simp [submitted, accepted, succeeded, inKernel, booking, waiting, hp]
  | send value =>
    by_cases hneg : value < 0
    · cases hp : w.phase <;> simp only [Worker.step, hp, Option.some.injEq, reduceCtorEq] at hs
      rw [if_pos hneg] at hs
      subst hs
      apply h.quiet
      all_goals simp [submitted, accepted, succeeded, inKernel, booking, waiting, isSuccess, hp]
    · exact absurd rfl (hsend value (by omega))
  | now =>
    cases hp : w.phase <;> simp only [Worker.step, hp, Option.some.injEq, reduceCtorEq] at hs
    subst hs
    apply h.quiet
    all_goals simp [submitted, accepted, succeeded, inKernel, booking, waiting, hp]
  | account =>
    cases hp : w.phase with
    | stamped hdr received recvTs =>
      simp only [Worker.step, hp, Option.some.injEq] at hs
      subst hs
      apply h.quiet
      all_goals by_cases hrec : 0 < received
      all_goals simp [submitted, accepted, succeeded, inKernel, booking, waiting, isSuccess, hp, hrec]
    | socket | test | send hdr | recv hdr | received hdr received | exited => simp [Worker.step, hp] at hs

theorem WorkerOk.send (h : WorkerOk addr w sent got) {hdr : MessageHeader} (hhdr : w.phase.header = some hdr)
    (hs : w.step warmup count sizes clock (.send 0) = some w') (id : UInt64) :
    WorkerOk addr w' (sent ++ [⟨addr, id, wire hdr⟩]) got := by
  cases hp : w.phase <;> simp only [Worker.step, hp, Option.some.injEq, reduceCtorEq] at hs
  case send hdr' =>
  obtain rfl : hdr' = hdr := by simpa [hp, Phase.header] using hhdr
  rw [if_neg (by decide)] at hs
  subst hs
  have hreq := h.requests
  have hturn := h.turn
  have hsucc := h.successes
  simp only [submitted, hp, inKernel, List.append_nil] at hreq
  simp only [hp, waiting, Nat.add_zero] at hturn
  simp only [succeeded, hp, booking] at hsucc
  refine ⟨?_, ?_, ?_, ?_⟩
  · exact List.rel_append hreq (.cons ⟨rfl, rfl⟩ .nil)
  · simp [waiting, hturn]
  · simpa [succeeded, booking] using hsucc
  · intro hnone
    have hown := h.own hnone
    rw [List.take_append_of_le_length (Nat.le_of_eq hturn.symm)]
    exact hown

theorem own_of_open (hown : List.Forall₂ Own (sent.take got.length) got) (hlen : sent.length = got.length + 1)
    {id : UInt64} (hmem : id ∈ sent.map Parcel.rpcId) (hopen : id ∉ taken got) :
    ∃ p, sent = sent.take got.length ++ [p] ∧ p.rpcId = id := by
  obtain ⟨init, p, rfl⟩ : ∃ init p, sent = init ++ [p] :=
    ⟨sent.dropLast, sent.getLast (by rintro rfl; simp at hlen), (List.dropLast_append_getLast _).symm⟩
  have hinit : got.length = init.length := by simpa using hlen.symm
  have htake : (init ++ [p]).take got.length = init := by rw [hinit, List.take_left]
  rw [htake] at hown ⊢
  refine ⟨p, rfl, ?_⟩
  rw [List.map_append, List.mem_append] at hmem
  obtain hmem | hmem := hmem
  · exfalso
    obtain ⟨q, hq, rfl⟩ := List.mem_map.mp hmem
    apply hopen
    clear htake hinit hlen hopen hmem
    induction hown with
    | nil => cases hq
    | cons hx _ ih =>
      obtain ⟨r, rfl, hr⟩ := hx
      simp only [taken, List.filterMap_cons, Option.map_some, List.mem_cons]
      obtain rfl | hq := List.mem_cons.mp hq
      · exact .inl hr.symm
      · exact .inr (ih hq)
  · exact (List.mem_singleton.mp hmem).symm

theorem taken_concat_some (got : List (Option Parcel)) (r : Parcel) :
    taken (got ++ [some r]) = taken got ++ [r.rpcId] := by
  simp [taken]

theorem taken_concat_none (got : List (Option Parcel)) : taken (got ++ [none]) = taken got := by simp [taken]

theorem WorkerOk.recv (h : WorkerOk addr w sent got) {received : Int} {reply : Option Parcel}
    (hs : w.step warmup count sizes clock (.recv received) = some w') (hfail : reply = none → received < 0)
    (hreply : ∀ r, reply = some r → r.rpcId ∈ sent.map Parcel.rpcId ∧ r.rpcId ∉ taken got) :
    WorkerOk addr w' sent (got ++ [reply]) := by
  cases hp : w.phase <;> simp only [Worker.step, hp, Option.some.injEq, reduceCtorEq] at hs
  case recv hdr =>
  subst hs
  have hreq := h.requests
  have hturn := h.turn
  have hsucc := h.successes
  simp only [submitted, hp, inKernel] at hreq
  simp only [hp, waiting] at hturn
  simp only [succeeded, hp, booking, Nat.add_zero] at hsucc
  refine ⟨hreq, ?_, ?_, ?_⟩
  · simpa [waiting] using hturn
  · cases reply with
    | none =>
      rw [taken_concat_none]
      have hneg : ¬ 0 < received := by
        have := hfail rfl
        omega
      simpa [succeeded, booking, accepted, if_neg hneg] using hsucc
    | some r =>
      rw [taken_concat_some, List.length_append, List.length_singleton]
      simp only [succeeded, booking]
      split
      · omega
      · omega
  · intro hnone
    cases reply with
    | none => simp at hnone
    | some r =>
      obtain ⟨hmem, hopen⟩ := hreply r rfl
      have hown := h.own (by simpa using hnone)
      obtain ⟨p, hsent, hid⟩ := own_of_open hown hturn hmem hopen
      rw [List.length_append, List.length_singleton, ← hturn, List.take_length, hsent]
      exact List.rel_append hown (.cons ⟨r, rfl, hid.symm⟩ .nil)

variable {n : Nat} {known known' : Parcel → Prop} {t t' : HomaServer.State n}

def served (w : HomaServer.Worker) : List Parcel := HomaServer.requests w.received

structure ServerOk (t : HomaServer.State n) (known : Parcel → Prop) : Prop where
  echoing : ∀ w, Echoing (t.workers w)
  received : ∀ w, ∀ p ∈ (t.workers w).received, known p
  requestCount : t.requestCount = UInt64.ofNat (∑ w, (served (t.workers w)).length)
  byteCount : t.byteCount = UInt64.ofNat (∑ w, ((served (t.workers w)).map (fun p => p.bytes.length)).sum)

theorem ServerOk.mono (h : ServerOk t known) (hknown : ∀ p, known p → known' p) : ServerOk t known' :=
  { h with received := fun w p hp => hknown p (h.received w p hp) }

theorem ServerOk.update (h : ServerOk t known) (j : Fin n) {w : HomaServer.Worker} (hw : Echoing w) (ps : List Parcel)
    (hrec : w.received = (t.workers j).received ++ ps) (hps : ∀ p ∈ ps, known p) :
    ServerOk { t with
      requestCount := t.requestCount + UInt64.ofNat (HomaServer.requests ps).length
      byteCount := t.byteCount + UInt64.ofNat ((HomaServer.requests ps).map (fun p => p.bytes.length)).sum
      workers := Function.update t.workers j w } known := by
  have hserved : served w = served (t.workers j) ++ HomaServer.requests ps := by
    rw [served, served, hrec, HomaServer.requests, List.filter_append]
    rfl
  have hcount := Partition.sum_update (fun w => (served w).length) t.workers j w (HomaServer.requests ps).length
    (by simp only [hserved, List.length_append])
  have hbytes := Partition.sum_update (fun w => ((served w).map (fun p => p.bytes.length)).sum) t.workers j w
    ((HomaServer.requests ps).map (fun p => p.bytes.length)).sum
    (by simp only [hserved, List.map_append, List.sum_append])
  refine ⟨HomaServer.echoing_update h.echoing hw, ?_, ?_, ?_⟩
  · refine (Function.forall_update_iff t.workers (p := fun _ w => ∀ p ∈ w.received, known p)).mpr
      ⟨?_, fun k _ => h.received k⟩
    intro p hp
    rw [hrec, List.mem_append] at hp
    exact hp.elim (h.received j p) (hps p)
  · simp only [hcount, h.requestCount, UInt64.ofNat_add]
  · simp only [hbytes, h.byteCount, UInt64.ofNat_add]

theorem ServerOk.quiet (h : ServerOk t known) (j : Fin n) {w : HomaServer.Worker} (hw : Echoing w)
    (hrec : w.received = (t.workers j).received) :
    ServerOk { t with workers := Function.update t.workers j w } known := by
  have hupdate := h.update j hw [] (by rw [hrec, List.append_nil]) (fun _ hp => by cases hp)
  simpa [HomaServer.requests] using hupdate

theorem ServerOk.step {e : HomaServer.Event n} (h : ServerOk t known)
    (hknown : ∀ j p, e = .recv j (some p) → known p) (hs : HomaServer.step t e = some t') : ServerOk t' known := by
  have hechoing := HomaServer.echoing_step h.echoing hs
  cases e with
  | stop =>
    cases hs
    exact { h with }
  | test j =>
    obtain ⟨w, hw, rfl⟩ := Option.map_eq_some_iff.mp hs
    have hj := hechoing j
    simp only [Function.update_self] at hj
    refine h.quiet j hj ?_
    unfold HomaServer.Worker.test at hw
    split at hw <;> cases hw
    · rfl
    · rfl
  | recv j result =>
    simp only [HomaServer.step, Option.ite_none_right_eq_some] at hs
    obtain ⟨-, hs⟩ := hs
    cases result with
    | none =>
      cases hs
      have hj := hechoing j
      simp only [Function.update_self] at hj
      exact h.quiet j hj rfl
    | some p =>
      simp only [Option.ite_none_left_eq_some, Nat.not_lt] at hs
      obtain ⟨hp, hs⟩ := hs
      have hone : ∀ q ∈ [p], known q := fun q hq => List.mem_singleton.mp hq ▸ hknown j p rfl
      split at hs
      case isTrue hl =>
        cases hs
        have hj := hechoing j
        simp only [Function.update_self] at hj
        have hupdate := h.update j hj [p] rfl hone
        have hskip : HomaServer.requests [p] = [] := by simp [HomaServer.requests, hl]
        simpa [hskip] using hupdate
      case isFalse hl =>
        cases hs
        have hj := hechoing j
        simp only [Function.update_self] at hj
        have hupdate := h.update j hj [p] rfl hone
        have hkeep : HomaServer.requests [p] = [p] := by simp [HomaServer.requests, Nat.le_of_not_lt hl]
        simpa [hkeep] using hupdate

theorem replies_isPrefix {e : HomaServer.Event n} (hs : HomaServer.step t e = some t') (w : Fin n) :
    (t.workers w).replies <+: (t'.workers w).replies := by
  have hupdate (j : Fin n) {x : HomaServer.Worker} (hx : (t.workers j).replies <+: x.replies) :
      (t.workers w).replies <+: (Function.update t.workers j x w).replies := by
    by_cases hw : w = j
    · subst hw
      rwa [Function.update_self]
    · rw [Function.update_of_ne hw]
  cases e with
  | stop =>
    cases hs
    exact List.prefix_rfl
  | test j =>
    obtain ⟨x, hx, rfl⟩ := Option.map_eq_some_iff.mp hs
    apply hupdate j
    unfold HomaServer.Worker.test at hx
    split at hx <;> cases hx
    · exact List.prefix_rfl
    · exact List.prefix_rfl
  | recv j result =>
    simp only [HomaServer.step, Option.ite_none_right_eq_some] at hs
    obtain ⟨-, hs⟩ := hs
    cases result with
    | none =>
      cases hs
      exact hupdate j List.prefix_rfl
    | some p =>
      simp only [Option.ite_none_left_eq_some] at hs
      obtain ⟨-, hs⟩ := hs
      split at hs <;> cases hs
      · exact hupdate j List.prefix_rfl
      · exact hupdate j (List.prefix_append _ _)

variable {cfg : WorkloadConfig} {concurrency : UInt32} {gens : Fin concurrency.toNat → Nat → UInt32}
  {addrs : Fin concurrency.toNat → UInt32 × UInt16} {s s' : State concurrency.toNat n}

structure Inv (cfg : WorkloadConfig) (concurrency : UInt32) (gens : Fin concurrency.toNat → Nat → UInt32)
    (addrs : Fin concurrency.toNat → UInt32 × UInt16) (s : State concurrency.toNat n) : Prop where
  clients : HomaClosedLoop.Inv cfg concurrency gens s.clients
  server : ServerOk s.server (fun p => ∃ j, p ∈ s.sent j)
  workers : ∀ j, WorkerOk (addrs j) (s.clients.workers j) (s.sent j) (s.got j)
  fresh : ∀ j, ((s.sent j).map Parcel.rpcId).Nodup
  once : ∀ j, (taken (s.got j)).Nodup
  answered : ∀ j r, some r ∈ s.got j → s.replied r ∧ ∃ p ∈ s.sent j, AnswersParcel p r

theorem WorkerOk.src {p : Parcel} (h : WorkerOk addr w sent got) (hp : p ∈ sent) : p.src = addr := by
  obtain ⟨hdr, -, hsrc, -⟩ := Pointwise.exists_left h.requests hp
  exact hsrc

theorem ServerOk.answers (h : ServerOk s.server (fun p => ∃ j, p ∈ s.sent j)) {r : Parcel} (hr : s.replied r) :
    ∃ j, ∃ p ∈ s.sent j, AnswersParcel p r := by
  obtain ⟨w, hw⟩ := hr
  obtain ⟨p, hp, ha⟩ := Pointwise.exists_left (h.echoing w).replies hw
  obtain ⟨j, hj⟩ := h.received w p (List.mem_of_mem_filter hp)
  exact ⟨j, p, hj, ha⟩

theorem forall_moved {P : Nat} {q : Fin P → Worker → List Parcel → List (Option Parcel) → Prop}
    {workers workers' : Fin P → Worker} {sent sent' : Fin P → List Parcel} {got got' : Fin P → List (Option Parcel)}
    (h : ∀ j, q j (workers j) (sent j) (got j)) (j : Fin P)
    (hother : ∀ k, k ≠ j → workers' k = workers k ∧ sent' k = sent k ∧ got' k = got k)
    (hj : q j (workers' j) (sent' j) (got' j)) : ∀ k, q k (workers' k) (sent' k) (got' k) := by
  intro k
  by_cases hk : k = j
  · subst hk
    exact hj
  · obtain ⟨hw, hs, hg⟩ := hother k hk
    rw [hw, hs, hg]
    exact h k

theorem inv_client {ev : HomaClosedLoop.Event concurrency.toNat} {c : HomaClosedLoop.State concurrency.toNat}
    (h : Inv cfg concurrency gens addrs s) (hlocal : ∀ j value, 0 ≤ value → ev ≠ .worker j (.send value))
    (hrecv : ∀ j received, ev ≠ .worker j (.recv received))
    (hs : HomaClosedLoop.step cfg concurrency gens s.clients ev = some c) :
    Inv cfg concurrency gens addrs { s with clients := c } := by
  refine ⟨HomaClosedLoop.inv_step h.clients hs, h.server, ?_, h.fresh, h.once, h.answered⟩
  cases ev with
  | tick now =>
    obtain ⟨-, heq⟩ := Option.ite_none_right_eq_some.mp hs
    cases heq
    exact h.workers
  | worker j ev =>
    obtain ⟨x, hx, rfl⟩ := Option.map_eq_some_iff.mp hs
    refine (Function.forall_update_iff s.clients.workers
      (p := fun k x => WorkerOk (addrs k) x (s.sent k) (s.got k))).mpr ⟨?_, fun k _ => h.workers k⟩
    apply (h.workers j).local _ _ hx
    · rintro received rfl
      exact hrecv j received rfl
    · rintro value hv rfl
      exact hlocal j value hv rfl

theorem inv_send {j : Fin concurrency.toNat} {id : UInt64} {hdr : MessageHeader}
    {c : HomaClosedLoop.State concurrency.toNat} (h : Inv cfg concurrency gens addrs s)
    (hfresh : id ∉ (s.sent j).map Parcel.rpcId) (hhdr : (s.clients.workers j).phase.header = some hdr)
    (hs : HomaClosedLoop.step cfg concurrency gens s.clients (.worker j (.send 0)) = some c) :
    Inv cfg concurrency gens addrs
      { s with clients := c, sent := Function.update s.sent j (s.sent j ++ [⟨addrs j, id, wire hdr⟩]) } := by
  have hclients := HomaClosedLoop.inv_step h.clients hs
  obtain ⟨x, hx, rfl⟩ := Option.map_eq_some_iff.mp hs
  have hgrow (k : Fin concurrency.toNat) (p : Parcel) (hp : p ∈ s.sent k) :
      p ∈ Function.update s.sent j (s.sent j ++ [⟨addrs j, id, wire hdr⟩]) k := by
    by_cases hk : k = j
    · subst hk
      rw [Function.update_self]
      exact List.mem_append_left _ hp
    · rwa [Function.update_of_ne hk]
  refine ⟨hclients, h.server.mono (fun p ⟨k, hp⟩ => ⟨k, hgrow k p hp⟩), ?_, ?_, h.once, ?_⟩
  · refine forall_moved h.workers j ?_ ?_
    · intro k hk
      exact ⟨Function.update_of_ne hk _ _, Function.update_of_ne hk _ _, rfl⟩
    · simp only [Function.update_self]
      exact (h.workers j).send hhdr hx id
  · refine (Function.forall_update_iff s.sent (p := fun _ ps => (ps.map Parcel.rpcId).Nodup)).mpr
      ⟨?_, fun k _ => h.fresh k⟩
    rw [List.map_append, List.nodup_append']
    refine ⟨h.fresh j, List.nodup_singleton _, ?_⟩
    simpa using hfresh
  · intro k r hr
    obtain ⟨hrep, p, hp, ha⟩ := h.answered k r hr
    exact ⟨hrep, p, hgrow k p hp, ha⟩

theorem inv_recv {j : Fin concurrency.toNat} {reply : Option Parcel} {received : Int}
    {c : HomaClosedLoop.State concurrency.toNat} (haddrs : Function.Injective addrs)
    (h : Inv cfg concurrency gens addrs s) (hmay : s.mayReceive (addrs j) j received reply)
    (hs : HomaClosedLoop.step cfg concurrency gens s.clients (.worker j (.recv received)) = some c) :
    Inv cfg concurrency gens addrs { s with clients := c, got := Function.update s.got j (s.got j ++ [reply]) } := by
  have hclients := HomaClosedLoop.inv_step h.clients hs
  obtain ⟨x, hx, rfl⟩ := Option.map_eq_some_iff.mp hs
  refine ⟨hclients, h.server, ?_, h.fresh, ?_, ?_⟩
  · refine forall_moved h.workers j ?_ ?_
    · intro k hk
      exact ⟨Function.update_of_ne hk _ _, rfl, Function.update_of_ne hk _ _⟩
    · simp only [Function.update_self]
      apply (h.workers j).recv hx
      · rintro rfl
        exact hmay
      · rintro r rfl
        exact ⟨hmay.2.2.1, hmay.2.2.2.1⟩
  · refine (Function.forall_update_iff s.got (p := fun _ gs => (taken gs).Nodup)).mpr ⟨?_, fun k _ => h.once k⟩
    cases reply with
    | none =>
      rw [taken_concat_none]
      exact h.once j
    | some r =>
      rw [taken_concat_some, List.nodup_append']
      refine ⟨h.once j, List.nodup_singleton _, ?_⟩
      simpa using hmay.2.2.2.1
  · refine (Function.forall_update_iff s.got
      (p := fun k gs => ∀ r, some r ∈ gs → s.replied r ∧ ∃ p ∈ s.sent k, AnswersParcel p r)).mpr
        ⟨?_, fun k _ => h.answered k⟩
    intro r hr
    rw [List.mem_append] at hr
    obtain hr | hr := hr
    · exact h.answered j r hr
    · -- the server answers whom the request came from, and no other worker has that address
      obtain rfl := List.mem_singleton.mp hr
      obtain ⟨hrep, hsrc, -⟩ := hmay
      obtain ⟨k, p, hp, ha⟩ := h.server.answers hrep
      obtain rfl : k = j := haddrs (by rw [← hsrc, ha.src, (h.workers k).src hp])
      exact ⟨hrep, p, hp, ha⟩

theorem inv_step {e : Event concurrency.toNat n} (haddrs : Function.Injective addrs)
    (h : Inv cfg concurrency gens addrs s) (hs : step cfg concurrency gens addrs s e = some s') :
    Inv cfg concurrency gens addrs s' := by
  cases e with
  | client ev =>
    simp only [step, Option.ite_none_right_eq_some] at hs
    obtain ⟨hlocal, hs⟩ := hs
    obtain ⟨c, hc, rfl⟩ := Option.map_eq_some_iff.mp hs
    refine inv_client h ?_ ?_ hc
    · rintro j value - rfl
      cases hlocal
    · rintro j received rfl
      cases hlocal
  | send j id =>
    cases id with
    | none =>
      obtain ⟨c, hc, rfl⟩ := Option.map_eq_some_iff.mp hs
      refine inv_client h ?_ ?_ hc
      · rintro k value hv heq
        cases heq
        exact absurd hv (by decide)
      · rintro k received heq
        cases heq
    | some id =>
      simp only [step, Option.ite_none_left_eq_some] at hs
      obtain ⟨hfresh, hs⟩ := hs
      obtain ⟨hdr, hhdr, hs⟩ := Option.bind_eq_some_iff.mp hs
      obtain ⟨c, hc, rfl⟩ := Option.map_eq_some_iff.mp hs
      exact inv_send h hfresh hhdr hc
  | recv j reply received =>
    simp only [step, Option.ite_none_right_eq_some] at hs
    obtain ⟨hmay, hs⟩ := hs
    obtain ⟨c, hc, rfl⟩ := Option.map_eq_some_iff.mp hs
    exact inv_recv haddrs h hmay hc
  | server ev =>
    simp only [step, Option.ite_none_right_eq_some] at hs
    obtain ⟨hmay, hs⟩ := hs
    obtain ⟨t, ht, rfl⟩ := Option.map_eq_some_iff.mp hs
    have hserver : ServerOk t (fun p => ∃ j, p ∈ s.sent j) := by
      apply h.server.step _ ht
      rintro j p rfl
      exact hmay
    refine ⟨h.clients, hserver, h.workers, h.fresh, h.once, ?_⟩
    intro j r hr
    obtain ⟨⟨w, hw⟩, hp⟩ := h.answered j r hr
    exact ⟨⟨w, (replies_isPrefix ht w).subset hw⟩, hp⟩

theorem inv_run (haddrs : Function.Injective addrs) {clock : UInt64} {es : List (Event concurrency.toNat n)}
    (hr : Transition.run (step cfg concurrency gens addrs) (start clock concurrency n) es = some s) :
    Inv cfg concurrency gens addrs s := by
  refine Transition.invariant (fun _ _ _ h hs => inv_step haddrs h hs) ?_ hr
  refine ⟨HomaClosedLoop.inv_start cfg concurrency gens clock, ?_, ?_, ?_, ?_, ?_⟩
  · refine ⟨fun w => ⟨List.length_replicate, .nil⟩, ?_, ?_, ?_⟩
    · intro w p hp
      cases hp
    · simp [start, HomaServer.start, served, HomaServer.requests]
    · simp [start, HomaServer.start, served, HomaServer.requests]
  · intro j
    exact ⟨.nil, rfl, Nat.le_refl _, fun _ => .nil⟩
  · intro j
    exact List.nodup_nil
  · intro j
    exact List.nodup_nil
  · intro j r hr
    cases hr

theorem Inv.samples_le (h : Inv cfg concurrency gens addrs s) (j : Fin concurrency.toNat) :
    (s.clients.workers j).samples.length ≤ (taken (s.got j)).length := by
  rw [(h.clients.workers j).samples, List.length_filterMap_eq_countP]
  refine Nat.le_trans (List.countP_mono_left ?_) ((Nat.le_add_right _ _).trans (h.workers j).successes)
  intro x _ hx
  cases ho : x.outcome <;> simp_all [HomaClosedLoop.entry, isSuccess]

/-- The server has answered every RPC whose response has been received, and no
two of these are the same. -/
theorem Inv.sum_taken_le (h : Inv cfg concurrency gens addrs s) (haddrs : Function.Injective addrs) :
    ∑ j, (taken (s.got j)).length ≤ ∑ w, (s.server.workers w).replies.length := by
  let key (r : Parcel) : (UInt32 × UInt16) × UInt64 := (r.src, r.rpcId)
  let ids (j : Fin concurrency.toNat) : Finset ((UInt32 × UInt16) × UInt64) :=
    ((taken (s.got j)).map (fun id => (addrs j, id))).toFinset
  let answers (w : Fin n) : Finset ((UInt32 × UInt16) × UInt64) := ((s.server.workers w).replies.map key).toFinset
  have hcard (j : Fin concurrency.toNat) : (ids j).card = (taken (s.got j)).length := by
    rw [List.toFinset_card_of_nodup ((h.once j).map (fun _ _ heq => (Prod.mk.inj heq).2)), List.length_map]
  have hdisjoint : ((Finset.univ : Finset (Fin concurrency.toNat)) : Set _).PairwiseDisjoint ids := by
    intro j _ k _ hjk
    refine Finset.disjoint_left.mpr ?_
    intro a ha hb
    simp only [ids, List.mem_toFinset, List.mem_map] at ha hb
    obtain ⟨x, -, rfl⟩ := ha
    obtain ⟨y, -, heq⟩ := hb
    exact hjk (haddrs (Prod.mk.inj heq).1.symm)
  have hsubset : Finset.univ.biUnion ids ⊆ Finset.univ.biUnion answers := by
    intro a ha
    obtain ⟨j, -, ha⟩ := Finset.mem_biUnion.mp ha
    simp only [ids, List.mem_toFinset, List.mem_map] at ha
    obtain ⟨id, hid, rfl⟩ := ha
    obtain ⟨g, hg, heq⟩ := List.mem_filterMap.mp hid
    obtain ⟨r, rfl, rfl⟩ := Option.map_eq_some_iff.mp heq
    obtain ⟨⟨w, hw⟩, p, hp, ha⟩ := h.answered j r hg
    refine Finset.mem_biUnion.mpr ⟨w, Finset.mem_univ w, ?_⟩
    simp only [answers, List.mem_toFinset, List.mem_map]
    refine ⟨r, hw, ?_⟩
    simp only [key, ha.src, (h.workers j).src hp]
  calc ∑ j, (taken (s.got j)).length = (Finset.univ.biUnion ids).card := by
        rw [Finset.card_biUnion (fun j hj k hk => hdisjoint hj hk)]
        exact Finset.sum_congr rfl (fun j _ => (hcard j).symm)
    _ ≤ (Finset.univ.biUnion answers).card := Finset.card_le_card hsubset
    _ ≤ ∑ w, (answers w).card := Finset.card_biUnion_le
    _ ≤ ∑ w, (s.server.workers w).replies.length := by
        refine Finset.sum_le_sum (fun w _ => ?_)
        exact (List.toFinset_card_le _).trans_eq (List.length_map _)

theorem Inv.own (h : Inv cfg concurrency gens addrs s) {j : Fin concurrency.toNat} (hnone : none ∉ s.got j) {k : Nat}
    {x : Exchange} (hx : (accepted (s.clients.workers j))[k]? = some x) :
    ∃ p r, (s.sent j)[k]? = some p ∧ p.src = addrs j ∧ p.bytes = wire x.request ∧
      (s.got j)[k]? = some (some r) ∧ s.replied r ∧ AnswersParcel p r := by
  have hw := h.workers j
  have hsub : (submitted (s.clients.workers j))[k]? = some x.request := by
    have hlt := (List.getElem?_eq_some_iff.mp hx).1
    rw [submitted, List.getElem?_append_left (by rwa [List.length_map]), List.getElem?_map, hx]
    rfl
  obtain ⟨p, hp, hsrc, hbytes⟩ := Pointwise.exists_right hw.requests hsub
  -- a request that has been booked is no longer waited for
  have hlt : k < (s.got j).length := by
    have hlen := hw.requests.length_eq
    have hturn := hw.turn
    have hk := (List.getElem?_eq_some_iff.mp hx).1
    simp only [submitted, List.length_append, List.length_map] at hlen
    cases hph : (s.clients.workers j).phase with
    | recv hdr | received hdr r | stamped hdr r ts | socket | test | send hdr | exited =>
      simp only [hph, inKernel, waiting, List.length_nil, List.length_singleton] at hlen hturn
      omega
  have htake : ((s.sent j).take (s.got j).length)[k]? = some p := by rw [List.getElem?_take_of_lt hlt, hp]
  obtain ⟨g, hg, r, rfl, hid⟩ := Pointwise.exists_right (hw.own hnone) htake
  obtain ⟨hrep, p', hp', ha⟩ := h.answered j r (List.mem_of_getElem? hg)
  obtain rfl : p' = p :=
    List.inj_on_of_nodup_map (h.fresh j) hp' (List.mem_of_getElem? hp) (ha.rpcId.symm.trans hid)
  exact ⟨p', r, hp, hsrc, hbytes, hg, hrep, ha⟩

theorem sum_length_replies (h : ServerOk t known) :
    t.requestCount = UInt64.ofNat (∑ w, (t.workers w).replies.length) ∧
      t.byteCount = UInt64.ofNat (∑ w, ((t.workers w).replies.map (fun r => r.bytes.length)).sum) := by
  have hbytes {ps rs : List Parcel} (hans : List.Forall₂ AnswersParcel ps rs) :
      (ps.map (fun p => p.bytes.length)).sum = (rs.map (fun r => r.bytes.length)).sum := by
    induction hans with
    | nil => rfl
    | cons hx _ ih => rw [List.map_cons, List.map_cons, List.sum_cons, List.sum_cons, ih, hx.bytes.length]
  constructor
  · rw [h.requestCount]
    exact congrArg UInt64.ofNat (Finset.sum_congr rfl (fun w _ => (h.echoing w).replies.length_eq))
  · rw [h.byteCount]
    exact congrArg UInt64.ofNat (Finset.sum_congr rfl (fun w _ => hbytes (h.echoing w).replies))

/-- A closed loop of Homa clients against the server, over a transport that may
lose requests, repeat them and fail at any call. The server's counters are the
number and the bytes of its replies; each reply answers a request that a client
has sent; the clients have no more samples than the server has replies. A worker
for which no call of `recv` has failed has got, with every request, the answer to
that request. -/
theorem homa_end_to_end (cfg : WorkloadConfig) (concurrency : UInt32) (gens : Fin concurrency.toNat → Nat → UInt32)
    (addrs : Fin concurrency.toNat → UInt32 × UInt16) (haddrs : Function.Injective addrs) (clock : UInt64) (n : Nat)
    (es : List (Event concurrency.toNat n)) (s : State concurrency.toNat n)
    (hr : Transition.run (step cfg concurrency gens addrs) (start clock concurrency n) es = some s) :
    s.server.requestCount = UInt64.ofNat (∑ w, (s.server.workers w).replies.length) ∧
    s.server.byteCount = UInt64.ofNat (∑ w, ((s.server.workers w).replies.map (fun r => r.bytes.length)).sum) ∧
    (∀ r, s.replied r → ∃ j, ∃ p ∈ s.sent j, AnswersParcel p r) ∧
    ∑ j, (s.clients.workers j).samples.length ≤ ∑ w, (s.server.workers w).replies.length ∧
    (∀ j, none ∉ s.got j → ∀ (k : Nat) (x : Exchange), (accepted (s.clients.workers j))[k]? = some x →
      ∃ p r, (s.sent j)[k]? = some p ∧ p.src = addrs j ∧ p.bytes = wire x.request ∧
        (s.got j)[k]? = some (some r) ∧ s.replied r ∧ AnswersParcel p r) := by
  have h := inv_run haddrs hr
  obtain ⟨hcount, hbytes⟩ := sum_length_replies h.server
  refine ⟨hcount, hbytes, fun r hr => h.server.answers hr, ?_, fun j hnone k x hx => h.own hnone hx⟩
  exact (Finset.sum_le_sum (fun j _ => h.samples_le j)).trans (h.sum_taken_le haddrs)

/-- Two workers with one request each; the first request reaches the server twice. -/
def repeated : List (Event 2 1) :=
  let worker (j : Fin 2) (ev : HomaClosedLoop.WorkerEvent) : Event 2 1 := .client (.worker j ev)
  let parcel (j : Fin 2) (id : UInt64) (type : UInt8) : Parcel :=
    ⟨(UInt32.ofNat j.val, 5), id, serializeHeader ⟨0, 0, 7, type, 50⟩⟩
  [worker 0 (.socket true), worker 1 (.socket true), worker 0 .next, .send 0 (some 2), worker 1 .next,
    .send 1 (some 2), .server (.test 0), .server (.recv 0 (some (parcel 0 2 request))), .server (.test 0),
    .server (.recv 0 (some (parcel 1 2 request))), .server (.test 0), .client (.tick 80),
    .recv 1 (some (parcel 1 2 response)) 22, worker 1 .now, worker 1 .account,
    .server (.recv 0 (some (parcel 0 2 request))), .recv 0 (some (parcel 0 2 response)) 22, worker 0 .now,
    worker 0 .account]

theorem repeated_end_to_end : ∃ s : State 2 1,
    Transition.run (step ⟨0, 2⟩ 2 (fun _ _ => 0) (fun j => (UInt32.ofNat j.val, 5))) (start 50 2 1) repeated = some s ∧
    s.server.requestCount = 3 ∧ ∑ w, (s.server.workers w).replies.length = 3 ∧
    ∑ j, (s.clients.workers j).samples.length ≤ 3 := by
  have hrun : (Transition.run (step ⟨0, 2⟩ 2 (fun _ _ => 0) (fun j => (UInt32.ofNat j.val, 5))) (start 50 2 1)
      repeated).map (fun s : State 2 1 => (s.server.requestCount, (s.server.workers 0).replies.length)) =
        some (3, 3) := by decide +kernel
  obtain ⟨s, hs, heq⟩ := Option.map_eq_some_iff.mp hrun
  obtain ⟨hcount, hreplies⟩ := Prod.mk.inj heq
  have hinj : Function.Injective (fun j : Fin 2 => ((UInt32.ofNat j.val, 5) : UInt32 × UInt16)) := by decide
  obtain ⟨-, -, -, hle, -⟩ := homa_end_to_end ⟨0, 2⟩ 2 (fun _ _ => 0) _ hinj 50 1 repeated s hs
  have hsum : ∑ w, (s.server.workers w).replies.length = 3 := by rw [Fin.sum_univ_one, hreplies]
  exact ⟨s, hs, hcount, hsum, hle.trans_eq hsum⟩

end DcBench.HomaEndToEnd

import DcBench.HomaMatching

namespace DcBench.HomaWarmup

open DcBench.Lib DcBench.Message DcBench.Workload DcBench.HomaOpenLoop DcBench.HomaLedger DcBench.HomaSamples
open DcBench.HomaMatching

variable {cfg : WorkloadConfig} {gen : Nat → Turn} {s s' : State} {e : Event}

/-- The request of this RPC is not a warm-up request. Its header id is the
loop variable of its turn. -/
def Measured (cfg : WorkloadConfig) (r : Rpc) : Prop := cfg.warmupRequests.toUInt64 ≤ r.header.id

/-- A matched response is recorded exactly when its request is measured. -/
def Classifies (cfg : WorkloadConfig) (rpcs : List Rpc) (l : Lookup) : Prop :=
  l.sendTs.isSome → ∀ r ∈ rpcs, r.id = l.id → (l.recorded = true ↔ Measured cfg r)

def Classified (cfg : WorkloadConfig) (s : State) : Prop := ∀ l ∈ s.lookups, Classifies cfg s.rpcs l

/-- How many responses the kernel handed out before that of this RPC. -/
def arrivalRank (s : State) (id : UInt64) : Nat := s.taken.idxOf id

/-- When a response is looked up whose RPC has been inserted: the answer to a
warm-up request arrived among the first `warmupRequests` responses (or its
request carries no timestamp), the answer to a measured one after them. -/
def InOrder (cfg : WorkloadConfig) (s : State) (e : Event) : Prop :=
  e = .lookup → ∀ id recvTs, s.receiver = .stamped id recvTs → (∀ hdr, s.sender ≠ .sent id hdr) →
    ∀ r ∈ s.rpcs, r.id = id →
      (r.header.id < cfg.warmupRequests.toUInt64 →
        arrivalRank s id < cfg.warmupRequests.toNat ∨ r.header.sendTimestampNs = 0) ∧
      (cfg.warmupRequests.toUInt64 ≤ r.header.id →
        cfg.warmupRequests.toNat ≤ arrivalRank s id ∧ r.header.sendTimestampNs ≠ 0)

/-- The receiver's counter is the arrival rank: it counts every response, and
there are fewer than `2 ^ 32`. -/
theorem receivedCount_eq_arrivalRank (h : Inv cfg s) {id recvTs : UInt64} (hr : s.receiver = .stamped id recvTs) :
    s.receivedCount.toNat = arrivalRank s id := by
  have hlt := length_lookups_lt h.ledger id recvTs hr
  have htaken : s.taken = s.lookups.map Lookup.id ++ [id] := by simpa [inHand, hr] using h.ledger.taken
  have honce := h.ledger.once
  rw [htaken] at honce
  have hnew := List.disjoint_singleton.mp (List.disjoint_of_nodup_append honce)
  rw [arrivalRank, htaken, List.idxOf_append_of_notMem hnew, h.mapped.count, List.length_map,
    List.idxOf_cons_self, Nat.add_zero, UInt32.toNat_ofNat_of_lt' (Nat.lt_of_succ_lt hlt)]

theorem timestamp_of_pending (h : Inv cfg s) {id ts : UInt64} (hts : s.pending id = some ts) {r : Rpc}
    (hmem : r ∈ s.rpcs) (hid : r.id = id) : ts = r.header.sendTimestampNs := by
  obtain ⟨-, -, r', hmem', hid', rfl⟩ := (h.mapped.pending id ts).mp hts
  rw [List.inj_on_of_nodup_map h.ledger.fresh hmem' hmem (hid'.trans hid.symm)]

theorem recorded_iff (h : Inv cfg s) {id recvTs ts : UInt64} (hr : s.receiver = .stamped id recvTs)
    (hts : s.pending id = some ts) {r : Rpc} (hmem : r ∈ s.rpcs) (hid : r.id = id) :
    (0 < (s.pending id).getD 0 ∧ cfg.warmupRequests < s.receivedCount + 1) ↔
      r.header.sendTimestampNs ≠ 0 ∧ cfg.warmupRequests.toNat ≤ arrivalRank s id := by
  rw [lt_receivedCount_iff h hr, hts, Option.getD_some, timestamp_of_pending h hts hmem hid,
    UInt64.pos_iff_ne_zero, UInt32.le_iff_toNat_le, receivedCount_eq_arrivalRank h hr]

theorem classifies_lookup_iff (h : Inv cfg s) {id recvTs : UInt64} (hr : s.receiver = .stamped id recvTs) :
    Classifies cfg s.rpcs ⟨id, recvTs, s.pending id,
      decide (0 < (s.pending id).getD 0 ∧ cfg.warmupRequests < s.receivedCount + 1)⟩ ↔
    InOrder cfg s .lookup := by
  have hsplit : ∀ ts, s.pending id = some ts → ∀ r ∈ s.rpcs, r.id = id →
      ((decide (0 < (s.pending id).getD 0 ∧ cfg.warmupRequests < s.receivedCount + 1) = true ↔ Measured cfg r) ↔
        (r.header.id < cfg.warmupRequests.toUInt64 →
          arrivalRank s id < cfg.warmupRequests.toNat ∨ r.header.sendTimestampNs = 0) ∧
        (cfg.warmupRequests.toUInt64 ≤ r.header.id →
          cfg.warmupRequests.toNat ≤ arrivalRank s id ∧ r.header.sendTimestampNs ≠ 0)) := by
    intro ts hts r hmem hid
    rw [decide_eq_true_eq, recorded_iff h hr hts hmem hid, Measured, ← UInt64.not_le, ← Nat.not_le]
    tauto
  constructor
  · intro hc _ id' recvTs' hr' hsnd r hmem hid
    rw [hr] at hr'
    cases hr'
    have hsome := (pending_isSome_iff h hr).mpr hsnd
    obtain ⟨ts, hts⟩ := Option.isSome_iff_exists.mp hsome
    exact (hsplit ts hts r hmem hid).mp (hc hsome r hmem hid)
  · intro ho hsome r hmem hid
    obtain ⟨ts, hts⟩ := Option.isSome_iff_exists.mp hsome
    exact (hsplit ts hts r hmem hid).mpr (ho rfl id recvTs hr ((pending_isSome_iff h hr).mp hsome) r hmem hid)

theorem classifies_append (h : Ledger cfg s) {l : Lookup} (hl : l ∈ s.lookups) {r : Rpc}
    (hf : r.id ∉ s.rpcs.map Rpc.id) : Classifies cfg (s.rpcs ++ [r]) l ↔ Classifies cfg s.rpcs l := by
  have hknown : l.id ∈ s.rpcs.map Rpc.id := by
    apply h.known
    rw [h.taken]
    exact List.mem_append_left _ (List.mem_map_of_mem hl)
  rw [Classifies, Classifies]
  apply imp_congr_right
  intro _
  rw [List.forall_mem_append, List.forall_mem_singleton]
  apply and_iff_left
  intro hid
  exact absurd (hid ▸ hknown) hf

theorem classified_step (h : Inv cfg s) (hs : step cfg gen s e = some s') :
    Classified cfg s' ↔ Classified cfg s ∧ InOrder cfg s e := by
  have hm := move_of_step hs
  by_cases he : e = .lookup
  · subst he
    cases hm with
    | lookup id recvTs hr =>
      rw [Classified, lookups_lookup, List.forall_mem_append, List.forall_mem_singleton]
      exact and_congr_right (fun _ => classifies_lookup_iff h hr)
  · have hother : InOrder cfg s e := fun hl => absurd hl he
    rw [and_iff_left hother, Classified, Classified, lookups_eq hm he]
    cases hm with
    | send id hdr hsnd hid hf =>
      refine forall_congr' ?_
      intro l
      apply imp_congr_right
      intro hl
      exact classifies_append h.ledger hl hf
    | lookup id recvTs hr => exact absurd rfl he
    | _ => exact Iff.rfl

/-- Samples are taken of exactly the measured requests in a run if and only if
the first `warmupRequests` responses to arrive answer warm-up requests and the
later ones measured requests. -/
theorem classified_iff_inOrder (cfg : WorkloadConfig) (gen : Nat → Turn) (clock : UInt64) (es : List Event)
    (s : State) (hr : Transition.run (step cfg gen) (start clock) es = some s) :
    Classified cfg s ↔ Transition.Along (step cfg gen) (InOrder cfg) (start clock) es :=
  Transition.iff_along (I := Inv cfg) (P := Classified cfg) (fun _ _ _ h hs => inv_step h hs)
    (fun _ _ _ h hs => classified_step h hs) (inv_start cfg clock) (by simp [Classified, start]) hr

instance (cfg : WorkloadConfig) (s : State) : Decidable (Classified cfg s) :=
  inferInstanceAs (Decidable (∀ l ∈ s.lookups, l.sendTs.isSome → ∀ r ∈ s.rpcs, r.id = l.id →
    (l.recorded = true ↔ cfg.warmupRequests.toUInt64 ≤ r.header.id)))

def submitted : List Event :=
  [.stamp, .send (some 7), .insert, .account, .stamp, .send (some 9), .insert, .account]

def answered (id : UInt64) : List Event := [.test, .recv (some id), .stampRecv, .lookup]

theorem sent_order_inOrder : ∃ s, Transition.run (step ⟨1, 1⟩ burst) (start 5)
    (submitted ++ answered 7 ++ [.tick 8] ++ answered 9) = some s ∧ s.samples = [3] ∧
    Transition.Along (step ⟨1, 1⟩ burst) (InOrder ⟨1, 1⟩) (start 5)
      (submitted ++ answered 7 ++ [.tick 8] ++ answered 9) := by
  have hrun : (Transition.run (step ⟨1, 1⟩ burst) (start 5)
      (submitted ++ answered 7 ++ [.tick 8] ++ answered 9)).map (fun s =>
      (s.samples, decide (Classified ⟨1, 1⟩ s))) = some ([3], true) := by decide +kernel
  obtain ⟨s, hs, heq⟩ := Option.map_eq_some_iff.mp hrun
  obtain ⟨hsamples, hc⟩ := Prod.mk.inj heq
  exact ⟨s, hs, hsamples, (classified_iff_inOrder ⟨1, 1⟩ burst 5 _ s hs).mp (of_decide_eq_true hc)⟩

/-- The measured request is answered first: it is dropped as if it were the
warm-up, and the warm-up request enters the statistics. -/
theorem overtaking_misclassified : ∃ s, Transition.run (step ⟨1, 1⟩ burst) (start 5)
    (submitted ++ answered 9 ++ [.tick 8] ++ answered 7) = some s ∧ s.samples = [3] ∧
    s.lookups = [⟨9, 5, some 5, false⟩, ⟨7, 8, some 5, true⟩] ∧ ¬ Classified ⟨1, 1⟩ s := by
  have hrun : (Transition.run (step ⟨1, 1⟩ burst) (start 5)
      (submitted ++ answered 9 ++ [.tick 8] ++ answered 7)).map (fun s =>
      (s.samples, s.lookups, decide (Classified ⟨1, 1⟩ s))) =
      some ([3], [⟨9, 5, some 5, false⟩, ⟨7, 8, some 5, true⟩], false) := by decide +kernel
  obtain ⟨s, hs, heq⟩ := Option.map_eq_some_iff.mp hrun
  simp only [Prod.mk.injEq] at heq
  exact ⟨s, hs, heq.1, heq.2.1, of_decide_eq_false heq.2.2⟩

end DcBench.HomaWarmup

import DcBench.HomaSamples

namespace DcBench.HomaMatching

open DcBench.Lib DcBench.Message DcBench.Workload DcBench.HomaOpenLoop DcBench.HomaLedger DcBench.HomaSamples

variable {cfg : WorkloadConfig} {gen : Nat → Turn} {s s' : State} {e : Event}

/-- A response finds its entry exactly when the sender is not still between the
send of the same RPC and its insertion. -/
theorem pending_isSome_iff (h : Inv cfg s) {id recvTs : UInt64} (hr : s.receiver = .stamped id recvTs) :
    (s.pending id).isSome ↔ ∀ hdr, s.sender ≠ .sent id hdr := by
  have htaken : s.taken = s.lookups.map Lookup.id ++ [id] := by simpa [inHand, hr] using h.ledger.taken
  have hknown : id ∈ s.inserted ++ unpublished s.sender := by
    rw [← h.ledger.published]
    apply h.ledger.known
    simp [htaken]
  have hunmatched : id ∉ matched s := by
    intro hm
    have honce := h.ledger.once
    rw [htaken] at honce
    exact List.disjoint_singleton.mp (List.disjoint_of_nodup_append honce)
      ((List.filter_sublist.map Lookup.id).subset hm)
  constructor
  · intro hsome hdr hs
    obtain ⟨ts, hts⟩ := Option.isSome_iff_exists.mp hsome
    have hfresh := h.ledger.fresh
    rw [h.ledger.published, hs] at hfresh
    exact List.disjoint_singleton.mp (List.disjoint_of_nodup_append hfresh) ((h.mapped.pending id ts).mp hts).1
  · intro hne
    obtain hi | hi := List.mem_append.mp hknown
    · obtain ⟨r, hmem, hid⟩ := List.mem_map.mp (inserted_known h.ledger hi)
      rw [(h.mapped.pending id _).mpr ⟨hi, hunmatched, r, hmem, hid, rfl⟩]
      rfl
    · cases hs : s.sender with
      | sent id' hdr =>
        obtain rfl : id = id' := by simpa [unpublished, hs] using hi
        exact absurd hs (hne hdr)
      | next | stamped hdr | account hdr | stopped => simp [unpublished, hs] at hi

theorem lt_receivedCount_iff (h : Inv cfg s) {id recvTs : UInt64} (hr : s.receiver = .stamped id recvTs)
    (n : UInt32) : n < s.receivedCount + 1 ↔ n ≤ s.receivedCount := by
  have hlt := length_lookups_lt h.ledger id recvTs hr
  have hcount : s.receivedCount.toNat = s.lookups.length := by
    rw [h.mapped.count, UInt32.toNat_ofNat_of_lt' (Nat.lt_of_succ_lt hlt)]
  have hsucc : (s.receivedCount + 1).toNat = s.lookups.length + 1 := by
    rw [UInt32.toNat_add, hcount, UInt32.toNat_one, Nat.mod_eq_of_lt hlt]
  rw [UInt32.lt_iff_toNat_lt, UInt32.le_iff_toNat_le, hsucc, hcount]
  omega

theorem lookups_lookup (id recvTs : UInt64) : (s.lookup cfg id recvTs).lookups = s.lookups ++
    [⟨id, recvTs, s.pending id, decide (0 < (s.pending id).getD 0 ∧ cfg.warmupRequests < s.receivedCount + 1)⟩] :=
  rfl

theorem lookups_eq (hm : Move cfg gen s e s') (he : e ≠ .lookup) : s'.lookups = s.lookups := by
  cases hm with
  | lookup id recvTs hr => exact absurd rfl he
  | _ => rfl

/-- Every response taken has found its send timestamp; without warm-up each has
given one sample and no entry of an answered RPC is left. -/
structure NothingLost (cfg : WorkloadConfig) (s : State) : Prop where
  found : ∀ l ∈ s.lookups, l.sendTs.isSome
  sampled : cfg.warmupRequests = 0 →
    s.samples = s.lookups.map (fun l => l.recvTs - l.sendTs.getD 0) ∧ ∀ l ∈ s.lookups, s.pending l.id = none

/-- When a response is looked up, the sender is not between the send of its RPC
and the insertion, and the RPC's timestamp is not zero. -/
def Published (cfg : WorkloadConfig) (s : State) (e : Event) : Prop :=
  e = .lookup → ∀ id recvTs, s.receiver = .stamped id recvTs →
    (∀ hdr, s.sender ≠ .sent id hdr) ∧ (cfg.warmupRequests = 0 → s.pending id ≠ some 0)

def Good (cfg : WorkloadConfig) (l : Lookup) : Prop :=
  l.sendTs.isSome ∧ (cfg.warmupRequests = 0 → l.recorded = true)

theorem nothingLost_iff_good (h : Inv cfg s) : NothingLost cfg s ↔ ∀ l ∈ s.lookups, Good cfg l := by
  constructor
  · intro hn l hl
    refine ⟨hn.found l hl, ?_⟩
    intro hw
    have heq := (hn.sampled hw).1
    rw [h.mapped.samples] at heq
    have hlen := congrArg List.length heq
    rw [List.length_map, List.length_map] at hlen
    have hall := List.filter_eq_self.mp (List.filter_sublist.eq_of_length hlen)
    exact hall l hl
  · intro hg
    refine ⟨fun l hl => (hg l hl).1, ?_⟩
    intro hw
    have hfilter : recorded s = s.lookups := List.filter_eq_self.mpr (fun l hl => (hg l hl).2 hw)
    refine ⟨by rw [h.mapped.samples, hfilter], ?_⟩
    intro l hl
    cases hp : s.pending l.id with
    | none => rfl
    | some ts =>
      apply absurd _ ((h.mapped.pending l.id ts).mp hp).2.1
      exact List.mem_map_of_mem (List.mem_filter.mpr ⟨hl, (hg l hl).1⟩)

theorem good_lookup (h : Inv cfg s) {id recvTs : UInt64} (hr : s.receiver = .stamped id recvTs) :
    (∀ l ∈ (s.lookup cfg id recvTs).lookups, Good cfg l) ↔
      (∀ l ∈ s.lookups, Good cfg l) ∧ Published cfg s .lookup := by
  have hpub : Published cfg s .lookup ↔
      (s.pending id).isSome ∧ (cfg.warmupRequests = 0 → s.pending id ≠ some 0) := by
    rw [pending_isSome_iff h hr]
    constructor
    · intro hp
      exact hp rfl id recvTs hr
    · intro hp _ id' recvTs' hr'
      rw [hr] at hr'
      cases hr'
      exact hp
  have hrec : (0 < (s.pending id).getD 0 ∧ cfg.warmupRequests < s.receivedCount + 1) ↔
      0 < (s.pending id).getD 0 ∧ cfg.warmupRequests ≤ s.receivedCount := by
    rw [lt_receivedCount_iff h hr]
  rw [hpub, lookups_lookup, List.forall_mem_append, List.forall_mem_singleton]
  apply and_congr_right
  intro _
  simp only [Good, decide_eq_true_eq, hrec]
  cases hp : s.pending id with
  | none => simp
  | some ts =>
    simp only [Option.isSome_some, true_and, Option.getD_some, ne_eq, Option.some.injEq]
    apply imp_congr_right
    intro hw
    rw [hw, UInt64.pos_iff_ne_zero]
    simp

/-- Nothing is lost in a run exactly when each response is looked up after its
RPC has been published. -/
theorem nothingLost_iff_published (cfg : WorkloadConfig) (gen : Nat → Turn) (clock : UInt64) (es : List Event)
    (s : State) (hr : Transition.run (step cfg gen) (start clock) es = some s) :
    NothingLost cfg s ↔ Transition.Along (step cfg gen) (Published cfg) (start clock) es := by
  rw [nothingLost_iff_good (inv_run hr)]
  refine Transition.iff_along (I := Inv cfg) (P := fun s => ∀ l ∈ s.lookups, Good cfg l)
    (fun _ _ _ h hs => inv_step h hs) ?_ (inv_start cfg clock) (by simp [start]) hr
  intro s e s' h hs
  have hm := move_of_step hs
  by_cases he : e = .lookup
  · subst he
    cases hm with
    | lookup id recvTs hr => exact good_lookup h hr
  · rw [lookups_eq hm he]
    exact (and_iff_left (fun hl => absurd hl he)).symm

def inTime : List Event :=
  [.stamp, .send (some 7), .test, .insert, .tick 9, .recv (some 7), .stampRecv, .lookup, .account]

theorem inTime_published : ∃ s, Transition.run (step ⟨0, 1⟩ burst) (start 5) inTime = some s ∧
    s.samples = [4] ∧ Transition.Along (step ⟨0, 1⟩ burst) (Published ⟨0, 1⟩) (start 5) inTime := by
  have hrun : (Transition.run (step ⟨0, 1⟩ burst) (start 5) inTime).map (fun s =>
      (s.samples, s.lookups, s.pending 7)) = some ([4], [⟨7, 9, some 5, true⟩], none) := by decide +kernel
  obtain ⟨s, hs, heq⟩ := Option.map_eq_some_iff.mp hrun
  simp only [Prod.mk.injEq] at heq
  obtain ⟨hsamples, hlookups, hpending⟩ := heq
  refine ⟨s, hs, hsamples, (nothingLost_iff_published ⟨0, 1⟩ burst 5 inTime s hs).mp ⟨?_, ?_⟩⟩
  · simp [hlookups]
  · intro _
    simp [hlookups, hpending, hsamples]

/-- The response is taken and looked up before the sender has put the id into
`pending`. -/
def tooEarly : List Event :=
  [.stamp, .send (some 7), .test, .tick 9, .recv (some 7), .stampRecv, .lookup, .insert, .account]

theorem tooEarly_lost : ∃ s, Transition.run (step ⟨0, 1⟩ burst) (start 5) tooEarly = some s ∧
    s.samples = [] ∧ s.pending 7 = some 5 ∧ ¬ NothingLost ⟨0, 1⟩ s := by
  have hrun : (Transition.run (step ⟨0, 1⟩ burst) (start 5) tooEarly).map (fun s =>
      (s.samples, s.pending 7, s.lookups)) = some ([], some 5, [⟨7, 9, none, false⟩]) := by decide +kernel
  obtain ⟨s, hs, heq⟩ := Option.map_eq_some_iff.mp hrun
  simp only [Prod.mk.injEq] at heq
  obtain ⟨hsamples, hpending, hlookups⟩ := heq
  refine ⟨s, hs, hsamples, hpending, ?_⟩
  intro hn
  have hfound := hn.found ⟨7, 9, none, false⟩ (by simp [hlookups])
  cases hfound

end DcBench.HomaMatching

import DcBench.HomaLedger

namespace DcBench.HomaSamples

open DcBench.Lib DcBench.Message DcBench.Workload DcBench.HomaOpenLoop DcBench.HomaLedger

/-- The RPC `id` was submitted with the timestamp `ts` in its header. -/
def SentAt (s : State) (id ts : UInt64) : Prop := ∃ r ∈ s.rpcs, r.id = id ∧ r.header.sendTimestampNs = ts

def matched (s : State) : List UInt64 :=
  (s.lookups.filter (fun l => l.sendTs.isSome)).map Lookup.id

def recorded (s : State) : List Lookup := s.lookups.filter Lookup.recorded

/-- Timestamps never lie ahead of the clock, and those of a response never
before those of its request. -/
structure Clocked (s : State) : Prop where
  rpcs : ∀ r ∈ s.rpcs, r.header.sendTimestampNs ≤ s.clock
  sender : ∀ hdr, s.sender = .stamped hdr → hdr.sendTimestampNs ≤ s.clock
  receiver : ∀ id recvTs, s.receiver = .stamped id recvTs → ∀ r ∈ s.rpcs, r.id = id →
    r.header.sendTimestampNs ≤ recvTs

/-- The map `pending`, its past searches and the samples. -/
structure Mapped (s : State) : Prop where
  current : ∀ id hdr, s.sender = .sent id hdr → ⟨id, hdr⟩ ∈ s.rpcs
  pending : ∀ id ts, s.pending id = some ts ↔ id ∈ s.inserted ∧ id ∉ matched s ∧ SentAt s id ts
  found : ∀ l ∈ s.lookups, ∀ ts, l.sendTs = some ts → l.id ∈ s.inserted ∧ SentAt s l.id ts ∧ ts ≤ l.recvTs
  recorded : ∀ l ∈ s.lookups, l.recorded = true → l.sendTs.isSome
  samples : s.samples = (HomaSamples.recorded s).map (fun l => l.recvTs - l.sendTs.getD 0)
  count : s.receivedCount = UInt32.ofNat s.lookups.length

variable {cfg : WorkloadConfig} {gen : Nat → Turn} {s s' : State} {e : Event}

theorem clocked_move (hl : Ledger cfg s) (h : Clocked s) (hm : Move cfg gen s e s') : Clocked s' := by
  cases hm with
  | tick t ht =>
    exact ⟨fun r hr => UInt64.le_trans (h.rpcs r hr) ht, fun hdr hs => UInt64.le_trans (h.sender hdr hs) ht,
      h.receiver⟩
  | stamp nextTime hs hi =>
    refine ⟨h.rpcs, ?_, h.receiver⟩
    rintro hdr ⟨⟩
    exact UInt64.le_refl _
  | sendFails hdr hs | insert id hdr hs | account hdr hs | stop hs hi =>
    exact ⟨h.rpcs, by simp, h.receiver⟩
  | send id hdr hs hid hf =>
    refine ⟨?_, by simp, ?_⟩
    · intro r hr
      obtain hr | hr := List.mem_append.mp hr
      · exact h.rpcs r hr
      · obtain rfl := List.mem_singleton.mp hr
        exact h.sender hdr hs
    · intro id' recvTs hrecv r hr hid'
      obtain hr | hr := List.mem_append.mp hr
      · exact h.receiver id' recvTs hrecv r hr hid'
      · -- the new id is fresh, so the response in hand is not its answer
        obtain rfl := List.mem_singleton.mp hr
        apply absurd _ hf
        apply hl.known
        have hrecv' : s.receiver = .stamped id' recvTs := hrecv
        rw [hl.taken, hrecv', ← hid']
        simp [inHand]
  | test r hr hr' =>
    refine ⟨h.rpcs, h.sender, ?_⟩
    rintro id recvTs hrecv
    obtain rfl | rfl := hr' <;> cases hrecv
  | recvFails hr | recv id hr hid ht => exact ⟨h.rpcs, h.sender, by simp⟩
  | stampRecv id hr =>
    refine ⟨h.rpcs, h.sender, ?_⟩
    rintro id' recvTs ⟨⟩ r hr -
    exact h.rpcs r hr
  | lookup id recvTs hr => exact ⟨h.rpcs, h.sender, by simp [State.lookup]⟩

theorem sentAt_send {id : UInt64} {hdr : MessageHeader} {t : Sender} (id' ts : UInt64) :
    SentAt { s with sender := t, rpcs := s.rpcs ++ [⟨id, hdr⟩] } id' ts ↔
      SentAt s id' ts ∨ id = id' ∧ hdr.sendTimestampNs = ts := by
  simp only [SentAt, List.mem_append, List.mem_singleton]
  constructor
  · rintro ⟨r, hr | rfl, hid, hts⟩
    · exact .inl ⟨r, hr, hid, hts⟩
    · exact .inr ⟨hid, hts⟩
  · rintro (⟨r, hr, hid, hts⟩ | ⟨hid, hts⟩)
    · exact ⟨r, .inl hr, hid, hts⟩
    · exact ⟨_, .inr rfl, hid, hts⟩

theorem inserted_known (hl : Ledger cfg s) {id : UInt64} (h : id ∈ s.inserted) : id ∈ s.rpcs.map Rpc.id := by
  rw [hl.published]
  exact List.mem_append_left _ h

theorem Mapped.send {id : UInt64} {hdr : MessageHeader} (hl : Ledger cfg s) (h : Mapped s)
    (hf : id ∉ s.rpcs.map Rpc.id) :
    Mapped { s with sender := .sent id hdr, rpcs := s.rpcs ++ [⟨id, hdr⟩] } where
  current := by
    rintro id' hdr' ⟨⟩
    simp
  pending := by
    intro id' ts
    rw [sentAt_send]
    apply (h.pending id' ts).trans
    constructor
    · rintro ⟨hi, hm, hs⟩
      exact ⟨hi, hm, .inl hs⟩
    · rintro ⟨hi, hm, hs | ⟨rfl, -⟩⟩
      · exact ⟨hi, hm, hs⟩
      · exact absurd (inserted_known hl hi) hf
  found := by
    intro l hmem ts hts
    obtain ⟨hi, hs, hle⟩ := h.found l hmem ts hts
    exact ⟨hi, (sentAt_send _ _).mpr (.inl hs), hle⟩
  recorded := h.recorded
  samples := h.samples
  count := h.count

theorem Mapped.insert {id : UInt64} {hdr : MessageHeader} (hl : Ledger cfg s) (h : Mapped s)
    (hs : s.sender = .sent id hdr) :
    Mapped { s with
      sender := .account hdr
      pending := Function.update s.pending id (some hdr.sendTimestampNs)
      inserted := s.inserted ++ [id] } := by
  have hnew : id ∉ s.inserted := by
    have hfresh := hl.fresh
    rw [hl.published, hs] at hfresh
    exact List.disjoint_singleton.mp (List.disjoint_of_nodup_append hfresh)
  have hunmatched : id ∉ matched s := by
    intro hm
    obtain ⟨l, hmem, rfl⟩ := List.mem_map.mp hm
    obtain ⟨hmem, hsome⟩ := List.mem_filter.mp hmem
    obtain ⟨ts, hts⟩ := Option.isSome_iff_exists.mp hsome
    exact hnew (h.found l hmem ts hts).1
  refine ⟨by simp, ?_, ?_, h.recorded, h.samples, h.count⟩
  · intro id' ts
    change Function.update s.pending id (some hdr.sendTimestampNs) id' = some ts ↔
      id' ∈ s.inserted ++ [id] ∧ id' ∉ matched s ∧ SentAt s id' ts
    by_cases hid : id' = id
    · subst hid
      rw [Function.update_self, Option.some.injEq]
      constructor
      · rintro rfl
        exact ⟨by simp, hunmatched, _, h.current id' hdr hs, rfl, rfl⟩
      · rintro ⟨-, -, r, hr, hid, rfl⟩
        -- ids are unique, so the RPC is the one just inserted
        have heq : r = ⟨id', hdr⟩ :=
          List.inj_on_of_nodup_map hl.fresh hr (h.current id' hdr hs) hid
        rw [heq]
    · rw [Function.update_of_ne hid, h.pending id' ts]
      simp only [List.mem_append, List.mem_singleton, hid, or_false]
  · intro l hmem ts hts
    obtain ⟨hi, hrest⟩ := h.found l hmem ts hts
    exact ⟨List.mem_append_left _ hi, hrest⟩

theorem matched_lookup (id recvTs id' : UInt64) :
    id' ∈ matched (s.lookup cfg id recvTs) ↔ id' ∈ matched s ∨ id' = id ∧ (s.pending id).isSome := by
  simp only [matched, State.lookup, List.filter_append, List.map_append, List.mem_append]
  apply or_congr_right
  cases hp : s.pending id with
  | none => simp
  | some ts => simp

theorem Mapped.lookup {id recvTs : UInt64} (hc : Clocked s) (h : Mapped s)
    (hr : s.receiver = .stamped id recvTs) : Mapped (s.lookup cfg id recvTs) where
  current := h.current
  pending := by
    intro id' ts
    rw [matched_lookup]
    change Function.update s.pending id none id' = some ts ↔ id' ∈ s.inserted ∧ _ ∧ SentAt s id' ts
    by_cases hid : id' = id
    · subst hid
      rw [Function.update_self]
      constructor
      · intro hno
        cases hno
      · rintro ⟨hi, hm, hs⟩
        have hsome : s.pending id' = some ts := (h.pending id' ts).mpr ⟨hi, fun hmem => hm (.inl hmem), hs⟩
        exact absurd (.inr ⟨rfl, by simp [hsome]⟩) hm
    · rw [Function.update_of_ne hid, h.pending id' ts]
      simp only [hid, false_and, or_false]
  found := by
    intro l hmem ts hts
    obtain hmem | hmem := List.mem_append.mp hmem
    · exact h.found l hmem ts hts
    · obtain rfl := List.mem_singleton.mp hmem
      obtain ⟨hi, -, r, hmem, hid, rfl⟩ := (h.pending id ts).mp hts
      exact ⟨hi, ⟨r, hmem, hid, rfl⟩, hc.receiver id recvTs hr r hmem hid⟩
  recorded := by
    intro l hmem hrec
    obtain hmem | hmem := List.mem_append.mp hmem
    · exact h.recorded l hmem hrec
    · obtain rfl := List.mem_singleton.mp hmem
      cases hp : s.pending id with
      | none => simp [hp] at hrec
      | some ts => rfl
  samples := by
    simp only [HomaSamples.recorded, State.lookup, List.filter_append, List.map_append]
    rw [h.samples]
    by_cases hrec : 0 < (s.pending id).getD 0 ∧ cfg.warmupRequests < s.receivedCount + 1
    · simp [hrec, HomaSamples.recorded]
    · simp [hrec, HomaSamples.recorded]
  count := by
    simp only [State.lookup, h.count, List.length_append, List.length_singleton, UInt32.ofNat_add]
    rfl

theorem mapped_move (hl : Ledger cfg s) (hc : Clocked s) (h : Mapped s) (hm : Move cfg gen s e s') : Mapped s' := by
  cases hm with
  | tick t ht | test r hr hr' | recvFails hr | recv id hr hid ht | stampRecv id hr =>
    exact ⟨h.current, h.pending, h.found, h.recorded, h.samples, h.count⟩
  | stamp nextTime hs hi | sendFails hdr hs | account hdr hs | stop hs hi =>
    exact ⟨by simp, h.pending, h.found, h.recorded, h.samples, h.count⟩
  | send id hdr hs hid hf => exact h.send hl hf
  | insert id hdr hs => exact h.insert hl hs
  | lookup id recvTs hr => exact h.lookup hc hr

structure Inv (cfg : WorkloadConfig) (s : State) : Prop where
  ledger : Ledger cfg s
  clocked : Clocked s
  mapped : Mapped s

theorem inv_step (h : Inv cfg s) (hs : step cfg gen s e = some s') : Inv cfg s' := by
  have hm := move_of_step hs
  exact ⟨ledger_move h.ledger hm, clocked_move h.ledger h.clocked hm, mapped_move h.ledger h.clocked h.mapped hm⟩

theorem inv_start (cfg : WorkloadConfig) (clock : UInt64) : Inv cfg (start clock) where
  ledger := ledger_start cfg clock
  clocked := ⟨by simp [start], by simp [start], by simp [start]⟩
  mapped := ⟨by simp [start], by simp [start], by simp [start], by simp [start], rfl, rfl⟩

theorem inv_run {clock : UInt64} {es : List Event} (hr : Transition.run (step cfg gen) (start clock) es = some s) :
    Inv cfg s :=
  Transition.invariant (fun _ _ _ h hs => inv_step h hs) (inv_start cfg clock) hr

/-- Every sample is the time between the stamps of one RPC and of its response,
no RPC has two, and `pending` holds exactly the RPCs that are inserted and not
yet matched. -/
structure Sound (s : State) : Prop where
  ids : (s.rpcs.map Rpc.id).Nodup
  samples : s.samples = (recorded s).map (fun l => l.recvTs - l.sendTs.getD 0)
  source : ∀ l ∈ recorded s, ∃ r ∈ s.rpcs, r.id = l.id ∧ l.sendTs = some r.header.sendTimestampNs ∧
    r.header.sendTimestampNs ≤ l.recvTs
  once : ((recorded s).map Lookup.id).Nodup
  pending : ∀ id ts, s.pending id = some ts ↔ id ∈ s.inserted ∧ id ∉ matched s ∧
    ∃ r ∈ s.rpcs, r.id = id ∧ r.header.sendTimestampNs = ts

theorem lookups_nodup (h : Ledger cfg s) : (s.lookups.map Lookup.id).Nodup := by
  have honce := h.once
  rw [h.taken] at honce
  exact honce.of_append_left

theorem sound_of_inv (h : Inv cfg s) : Sound s where
  ids := h.ledger.fresh
  samples := h.mapped.samples
  source := by
    intro l hl
    obtain ⟨hmem, hrec⟩ := List.mem_filter.mp hl
    obtain ⟨ts, hts⟩ := Option.isSome_iff_exists.mp (h.mapped.recorded l hmem hrec)
    obtain ⟨-, ⟨r, hr, hid, rfl⟩, hle⟩ := h.mapped.found l hmem ts hts
    exact ⟨r, hr, hid, hts, hle⟩
  once := (lookups_nodup h.ledger).sublist (List.filter_sublist.map _)
  pending := h.mapped.pending

/-- The samples of the Homa open loop are sound in every reachable state. -/
theorem samples_sound (cfg : WorkloadConfig) (gen : Nat → Turn) (clock : UInt64) (es : List Event) (s : State)
    (hr : Transition.run (step cfg gen) (start clock) es = some s) : Sound s :=
  sound_of_inv (inv_run hr)

def burst : Nat → Turn := fun _ => ⟨0, 0, fun lo _ => lo⟩

/-- Two RPCs, answered in the opposite order; the second send fails. -/
def crossing : List Event :=
  [.stamp, .send (some 7), .insert, .account, .stamp, .send none, .account, .tick 8, .stamp, .send (some 9),
    .insert, .test, .tick 20, .recv (some 9), .stampRecv, .lookup, .account, .test, .recv none, .test,
    .recv (some 7), .tick 30, .stampRecv, .lookup]

theorem crossing_sound : ∃ s, Transition.run (step ⟨0, 3⟩ burst) (start 5) crossing = some s ∧
    s.samples = [12, 25] ∧ Sound s := by
  have hrun : (Transition.run (step ⟨0, 3⟩ burst) (start 5) crossing).map State.samples = some [12, 25] := by
    decide +kernel
  obtain ⟨s, hs, hsamples⟩ := Option.map_eq_some_iff.mp hrun
  exact ⟨s, hs, hsamples, samples_sound ⟨0, 3⟩ burst 5 crossing s hs⟩

end DcBench.HomaSamples

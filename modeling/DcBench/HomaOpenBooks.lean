import DcBench.HomaSamples
import DcBench.Accounts
import DcBench.Lib.Partition

namespace DcBench.HomaOpenBooks

open DcBench.Lib DcBench.Message DcBench.Workload DcBench.HomaOpenLoop DcBench.HomaLedger DcBench.HomaSamples
open DcBench.Accounts

def current : Sender → Option MessageHeader
  | .stamped hdr | .sent _ hdr | .account hdr => some hdr
  | _ => none

def bytes (gen : Nat → Turn) (n : Nat) : Nat := ((List.range n).map (fun k => headerSize + (gen k).size.toNat)).sum

theorem bytes_succ (gen : Nat → Turn) (n : Nat) :
    bytes gen (n + 1) = bytes gen n + (headerSize + (gen n).size.toNat) := by
  rw [bytes, List.range_succ, List.map_append, List.sum_append, List.map_singleton, List.sum_singleton, bytes]

def turnOf (r : Rpc) : Nat := r.header.id.toNat

/-- The sender takes one request a turn, and each RPC is the request of its own
turn. -/
structure Booked (cfg : WorkloadConfig) (gen : Nat → Turn) (s : State) : Prop where
  current : ∀ hdr, current s.sender = some hdr → hdr.id = s.i.toUInt64 ∧ hdr.payloadSize = (gen s.i.toNat).size
  turns : (s.rpcs.map turnOf).Pairwise (· < ·)
  past : ∀ r ∈ s.rpcs, turnOf r < s.i.toNat + attempts s.sender
  stopped : s.sender = .stopped → s.i = cfg.total
  totalBytes : s.totalBytes = UInt64.ofNat (bytes gen s.i.toNat)

variable {cfg : WorkloadConfig} {gen : Nat → Turn} {s s' : State} {e : Event}

theorem booked_move (hl : Ledger cfg s) (h : Booked cfg gen s) (hm : Move cfg gen s e s') : Booked cfg gen s' := by
  cases hm with
  | tick t ht | test r hr hr' | recvFails hr | recv id hr hid ht | stampRecv id hr | lookup id recvTs hr =>
    exact ⟨h.current, h.turns, h.past, h.stopped, h.totalBytes⟩
  | stamp nextTime hs hi =>
    refine ⟨?_, h.turns, by simpa [attempts, hs] using h.past, ?_, h.totalBytes⟩
    · rintro _ ⟨⟩
      exact ⟨rfl, rfl⟩
    · rintro ⟨⟩
  | sendFails hdr hs =>
    have hpast : ∀ r ∈ s.rpcs, turnOf r < s.i.toNat := by simpa [attempts, hs] using h.past
    refine ⟨?_, h.turns, fun r hr => Nat.lt_succ_of_lt (hpast r hr), ?_, h.totalBytes⟩
    · rintro _ ⟨⟩
      exact h.current hdr (by rw [hs]; rfl)
    · rintro ⟨⟩
  | send id hdr hs hid hf =>
    have hpast : ∀ r ∈ s.rpcs, turnOf r < s.i.toNat := by simpa [attempts, hs] using h.past
    obtain ⟨hid, hsize⟩ := h.current hdr (by rw [hs]; rfl)
    have hturn : turnOf ⟨id, hdr⟩ = s.i.toNat := by rw [turnOf, hid, UInt32.toNat_toUInt64]
    refine ⟨?_, ?_, ?_, ?_, h.totalBytes⟩
    · rintro _ ⟨⟩
      exact ⟨hid, hsize⟩
    · rw [List.map_append, List.map_singleton, List.pairwise_append]
      refine ⟨h.turns, List.pairwise_singleton _ _, ?_⟩
      intro a ha b hb
      obtain ⟨r, hr, rfl⟩ := List.mem_map.mp ha
      rw [List.mem_singleton.mp hb, hturn]
      exact hpast r hr
    · intro r hr
      obtain hr | hr := List.mem_append.mp hr
      · exact Nat.lt_succ_of_lt (hpast r hr)
      · rw [List.mem_singleton.mp hr, hturn]
        exact Nat.lt_succ_self _
    · rintro ⟨⟩
  | insert id hdr hs =>
    refine ⟨?_, h.turns, by simpa [attempts, hs] using h.past, ?_, h.totalBytes⟩
    · rintro _ ⟨⟩
      exact h.current hdr (by rw [hs]; rfl)
    · rintro ⟨⟩
  | account hdr hs =>
    obtain ⟨-, hsize⟩ := h.current hdr (by rw [hs]; rfl)
    have hsucc := toNat_succ_of_lt (hl.inTurn (by simp [hs]) (by simp [hs]))
    refine ⟨?_, h.turns, ?_, ?_, ?_⟩
    · rintro _ ⟨⟩
    · have hpast := h.past
      simp only [attempts, hs] at hpast
      simpa only [attempts, hsucc] using hpast
    · rintro ⟨⟩
    · have hadd : (22 : UInt64) + hdr.payloadSize.toUInt64 = UInt64.ofNat (headerSize + (gen s.i.toNat).size.toNat) := by
        rw [hsize, UInt64.ofNat_add, UInt64.ofNat_uInt32ToNat]
        rfl
      change s.totalBytes + (22 + hdr.payloadSize.toUInt64) = UInt64.ofNat (bytes gen (s.i + 1).toNat)
      rw [hsucc, bytes_succ, UInt64.ofNat_add, h.totalBytes, hadd]
  | stop hs hi =>
    refine ⟨?_, h.turns, by simpa [attempts, hs] using h.past, ?_, h.totalBytes⟩
    · rintro _ ⟨⟩
    · intro _
      exact UInt32.le_antisymm hl.turn (UInt32.not_lt.mp hi)

theorem booked_run {clock : UInt64} {es : List Event} (hr : Transition.run (step cfg gen) (start clock) es = some s) :
    Booked cfg gen s := by
  have hboth : Ledger cfg s ∧ Booked cfg gen s := by
    refine Transition.invariant (P := fun s => Ledger cfg s ∧ Booked cfg gen s) ?_ ?_ hr
    · rintro s e t ⟨hl, hb⟩ hs
      have hm := move_of_step hs
      exact ⟨ledger_move hl hm, booked_move hl hb hm⟩
    · exact ⟨ledger_start cfg clock, nofun, .nil, nofun, nofun, rfl⟩
  exact hboth.2

def Finished (s : State) : Prop := s.sender = .stopped ∧ s.receiver = .exited

instance (s : State) : Decidable (Finished s) := inferInstanceAs (Decidable (s.sender = .stopped ∧ s.receiver = .exited))

def result (s : State) : BenchmarkResult := ⟨s.samples, s.totalBytes⟩

/-- The turn of the request that a response answers. -/
def answered (s : State) (l : Lookup) : Option Nat := (s.rpcs.find? (fun r => r.id = l.id)).map turnOf

def sampleOf (s : State) (k : Nat) : Option UInt64 :=
  ((recorded s).find? (fun l => answered s l = some k)).map (fun l => l.recvTs - l.sendTs.getD 0)

def entries (cfg : WorkloadConfig) (gen : Nat → Turn) (s : State) : Multiset Entry :=
  (List.range cfg.total.toNat).map (fun k => (⟨(gen k).size, true, sampleOf s k⟩ : Entry))

theorem answered_of_recorded (h : HomaSamples.Inv cfg s) {l : Lookup} (hl : l ∈ recorded s) :
    ∃ r ∈ s.rpcs, r.id = l.id ∧ answered s l = some (turnOf r) := by
  obtain ⟨r, hr, hid, -⟩ := (sound_of_inv h).source l hl
  refine ⟨r, hr, hid, ?_⟩
  rw [answered, (Partition.find_eq_some_iff_of_nodup h.ledger.fresh l.id r).mpr ⟨hr, hid⟩]
  rfl

theorem answered_nodup (h : HomaSamples.Inv cfg s) (hb : Booked cfg gen s) :
    ((recorded s).map (answered s)).Nodup := by
  have honce := (sound_of_inv h).once
  have hturns : (s.rpcs.map turnOf).Nodup := hb.turns.imp Nat.ne_of_lt
  apply List.Nodup.map_on _ honce.of_map
  intro l hl l' hl' heq
  obtain ⟨r, hr, hid, hans⟩ := answered_of_recorded h hl
  obtain ⟨r', hr', hid', hans'⟩ := answered_of_recorded h hl'
  rw [hans, hans', Option.some.injEq] at heq
  have hrr := List.inj_on_of_nodup_map hturns hr hr' heq
  apply List.inj_on_of_nodup_map honce hl hl'
  rw [← hid, ← hid', hrr]

theorem samples_perm (h : HomaSamples.Inv cfg s) (hb : Booked cfg gen s) (hfin : Finished s) :
    ((List.range cfg.total.toNat).filterMap (sampleOf s)).Perm s.samples := by
  rw [h.mapped.samples]
  have hperm := Partition.filterMap_find_perm (n := cfg.total.toNat) (answered_nodup h hb) (by
    intro l hl
    obtain ⟨r, hr, -, hans⟩ := answered_of_recorded h hl
    have hpast := hb.past r hr
    rw [hb.stopped hfin.1, hfin.1] at hpast
    exact ⟨turnOf r, hpast, hans⟩)
  have hmap := hperm.map (fun l => l.recvTs - l.sendTs.getD 0)
  rw [List.map_filterMap] at hmap
  exact hmap

theorem books (h : HomaSamples.Inv cfg s) (hb : Booked cfg gen s) (hfin : Finished s) :
    Books (result s) (entries cfg gen s) where
  sound := by
    intro e he _
    obtain ⟨k, -, rfl⟩ := List.mem_map.mp he
    rfl
  samples := by
    rw [entries, Multiset.filterMap_coe, List.filterMap_map]
    exact (Multiset.coe_eq_coe.mpr (samples_perm h hb hfin)).symm
  totalBytes := by
    rw [result, hb.totalBytes, hb.stopped hfin.1, entries, frames_added_coe, List.map_map]
    · rfl
    · intro e he
      obtain ⟨k, -, rfl⟩ := List.mem_map.mp he
      rfl

end DcBench.HomaOpenBooks

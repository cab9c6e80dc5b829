import DcBench.HomaOpenLoop
import Mathlib.Data.List.Nodup
import Mathlib.Data.List.Perm.Subperm

namespace DcBench.HomaLedger

open DcBench.Lib DcBench.Message DcBench.Workload DcBench.HomaOpenLoop

/-- The RPC that the sender has submitted and not yet put into `pending`. -/
def unpublished : Sender → List UInt64
  | .sent id _ => [id]
  | _ => []

def inHand : Receiver → List UInt64
  | .received id | .stamped id _ => [id]
  | _ => []

def attempts : Sender → Nat
  | .sent _ _ | .account _ => 1
  | _ => 0

/-- The ids in the order of the sends and of the receipts: every RPC but the
last is in `pending` or was, every response but the last has been looked up. -/
structure Ledger (cfg : WorkloadConfig) (s : State) : Prop where
  fresh : (s.rpcs.map Rpc.id).Nodup
  published : s.rpcs.map Rpc.id = s.inserted ++ unpublished s.sender
  taken : s.taken = s.lookups.map Lookup.id ++ inHand s.receiver
  once : s.taken.Nodup
  known : s.taken ⊆ s.rpcs.map Rpc.id
  turn : s.i ≤ cfg.total
  inTurn : s.sender ≠ .next → s.sender ≠ .stopped → s.i < cfg.total
  sends : s.rpcs.length ≤ s.i.toNat + attempts s.sender

variable {cfg : WorkloadConfig} {gen : Nat → Turn} {s s' : State} {e : Event}

theorem ledger_move (h : Ledger cfg s) (hm : Move cfg gen s e s') : Ledger cfg s' := by
  cases hm with
  | tick t ht => exact ⟨h.fresh, h.published, h.taken, h.once, h.known, h.turn, h.inTurn, h.sends⟩
  | stamp nextTime hs hi =>
    exact { h with
      published := by simpa [unpublished, hs] using h.published
      inTurn := fun _ _ => hi
      sends := by simpa [attempts, hs] using h.sends }
  | sendFails hdr hs =>
    have hsends : s.rpcs.length ≤ s.i.toNat := by simpa [attempts, hs] using h.sends
    exact { h with
      published := by simpa [unpublished, hs] using h.published
      inTurn := fun _ _ => h.inTurn (by simp [hs]) (by simp [hs])
      sends := hsends.trans (Nat.le_succ _) }
  | send id hdr hs hid hf =>
    have hpub : s.rpcs.map Rpc.id = s.inserted := by simpa [unpublished, hs] using h.published
    have hsends : s.rpcs.length ≤ s.i.toNat := by simpa [attempts, hs] using h.sends
    exact { h with
      fresh := by
        rw [List.map_append]
        apply List.Nodup.append h.fresh (List.nodup_singleton _)
        exact List.disjoint_singleton.mpr hf
      published := by simp [unpublished, hpub]
      known := by
        rw [List.map_append]
        exact List.subset_append_of_subset_left _ h.known
      inTurn := fun _ _ => h.inTurn (by simp [hs]) (by simp [hs])
      sends := by
        rw [List.length_append, List.length_singleton]
        exact Nat.succ_le_succ hsends }
  | insert id hdr hs =>
    have hpub : s.rpcs.map Rpc.id = s.inserted ++ [id] := by simpa [unpublished, hs] using h.published
    exact { h with
      published := by simp [unpublished, hpub]
      inTurn := fun _ _ => h.inTurn (by simp [hs]) (by simp [hs])
      sends := by simpa [attempts, hs] using h.sends }
  | account hdr hs =>
    have hi : s.i < cfg.total := h.inTurn (by simp [hs]) (by simp [hs])
    have hsucc := toNat_succ_of_lt hi
    exact { h with
      published := by simpa [unpublished, hs] using h.published
      turn := UInt32.le_iff_toNat_le.mpr (by
        rw [hsucc]
        exact UInt32.lt_iff_toNat_lt.mp hi)
      inTurn := fun hne => absurd rfl hne
      sends := by
        have hsends := h.sends
        simp only [attempts, hs] at hsends ⊢
        rw [hsucc]
        exact hsends }
  | stop hs hi =>
    exact { h with
      published := by simpa [unpublished, hs] using h.published
      inTurn := fun _ hne => absurd rfl hne
      sends := by simpa [attempts, hs] using h.sends }
  | test r hr hr' =>
    refine { h with taken := ?_ }
    obtain rfl | rfl := hr' <;> simpa [inHand, hr] using h.taken
  | recvFails hr => exact { h with taken := by simpa [inHand, hr] using h.taken }
  | recv id hr hid ht =>
    have htaken : s.taken = s.lookups.map Lookup.id := by simpa [inHand, hr] using h.taken
    exact { h with
      taken := by simp [inHand, htaken]
      once := by
        apply List.Nodup.append h.once (List.nodup_singleton _)
        exact List.disjoint_singleton.mpr ht
      known := List.append_subset.mpr ⟨h.known, by simpa using hid⟩ }
  | stampRecv id hr => exact { h with taken := by simpa [inHand, hr] using h.taken }
  | lookup id recvTs hr =>
    have htaken : s.taken = s.lookups.map Lookup.id ++ [id] := by simpa [inHand, hr] using h.taken
    exact { h with taken := by simp [State.lookup, inHand, htaken] }

theorem ledger_start (cfg : WorkloadConfig) (clock : UInt64) : Ledger cfg (start clock) where
  fresh := List.nodup_nil
  published := rfl
  taken := rfl
  once := List.nodup_nil
  known := List.nil_subset _
  turn := UInt32.le_iff_toNat_le.mpr (Nat.zero_le _)
  inTurn := fun hne => absurd rfl hne
  sends := Nat.le_refl _

/-- There are fewer than `2 ^ 32` responses, so `received_count` never wraps. -/
theorem length_lookups_lt (h : Ledger cfg s) (id recvTs : UInt64) (hr : s.receiver = .stamped id recvTs) :
    s.lookups.length + 1 < 2 ^ 32 := by
  have htaken := congrArg List.length h.taken
  have hle := (List.subperm_of_subset h.once h.known).length_le
  have hsends := h.sends
  have hturn := UInt32.le_iff_toNat_le.mp h.turn
  have hmax := cfg.total.toNat_lt
  have hatt : s.i.toNat + attempts s.sender ≤ cfg.total.toNat := by
    cases hs : s.sender with
    | next | stamped hdr | stopped => simpa [attempts] using hturn
    | sent id hdr | account hdr => exact UInt32.lt_iff_toNat_lt.mp (h.inTurn (by simp [hs]) (by simp [hs]))
  simp only [hr, inHand, List.length_append, List.length_map, List.length_singleton] at htaken
  rw [List.length_map] at hle
  omega

end DcBench.HomaLedger

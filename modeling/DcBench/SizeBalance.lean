import DcBench.SchedulerSelection
import Mathlib.Data.Int.CardIntervalMod

namespace DcBench.SizeBalance

open DcBench.PriorityScheduler DcBench.SchedulerSelection

/-- Feed the message sizes to the scheduler one after the other. Each message is
returned with the connection it was assigned to. -/
def selectAll (draw : UInt32 → UInt32 → UInt32) : Scheduler → List UInt32 → Option (List (UInt32 × UInt32))
  | _, [] => some []
  | s, size :: sizes => (s.select size draw).bind (fun r => (selectAll draw r.2 sizes).map ((size, r.1) :: ·))

def load (large : Bool) (assigned : List (UInt32 × UInt32)) (conn : Nat) : Nat :=
  assigned.countP (fun m => decide (4096 < m.1) = large ∧ m.2.toNat = conn)

def largePoolSize (poolSize : Nat) : Nat := max 1 (poolSize / 4)

def smallPoolSize (poolSize : Nat) : Nat := poolSize - largePoolSize poolSize

/-- No two connections of a sub-pool differ by more than one message of its
class. -/
structure Balanced (poolSize : Nat) (assigned : List (UInt32 × UInt32)) : Prop where
  small : ∀ a < smallPoolSize poolSize, ∀ b < smallPoolSize poolSize,
    load false assigned a ≤ load false assigned b + 1
  large : ∀ a, smallPoolSize poolSize ≤ a → a < poolSize → ∀ b, smallPoolSize poolSize ≤ b → b < poolSize →
    load true assigned a ≤ load true assigned b + 1

/-- The positions in the whole sequence at which messages of a class arrive. -/
def arrivals (large : Bool) (sizes : List UInt32) : List Nat :=
  (sizes.zipIdx.filter (fun m => decide (4096 < m.1) = large)).map Prod.snd

/-- The positions fall on the residues modulo `m` equally often, up to one. -/
def Spread (m : Nat) (positions : List Nat) : Prop :=
  ∀ r < m, ∀ r' < m, positions.countP (· % m = r) ≤ positions.countP (· % m = r') + 1

instance (m : Nat) (positions : List Nat) : Decidable (Spread m positions) :=
  inferInstanceAs (Decidable (∀ r < m, ∀ r' < m, _))

def place (poolSize : Nat) (size : UInt32) (k : Nat) : Nat :=
  if 4096 < size then smallPoolSize poolSize + k % largePoolSize poolSize else k % smallPoolSize poolSize

theorem largePoolSize_bounds {P : Nat} (hp : 2 ≤ P) :
    0 < largePoolSize P ∧ 0 < smallPoolSize P ∧ smallPoolSize P + largePoolSize P = P := by
  rw [smallPoolSize, largePoolSize]
  omega

theorem place_lt {P : Nat} (hp : 2 ≤ P) (size : UInt32) (k : Nat) : place P size k < P := by
  obtain ⟨hl, hs, hsum⟩ := largePoolSize_bounds hp
  have hlarge := Nat.mod_lt k hl
  have hsmall := Nat.mod_lt k hs
  rw [place]
  split <;> omega

theorem select_place (draw : UInt32 → UInt32 → UInt32) {s : Scheduler} (hpol : s.policy = .sizeAware)
    (hp : 2 ≤ s.poolSize.toNat) (size : UInt32) : ∃ idx, s.select size draw = some (idx, { s with rrCounter := s.rrCounter + 1 }) ∧
      idx.toNat = place s.poolSize.toNat size s.rrCounter.toNat := by
  have hl : s.largePool.toNat = largePoolSize s.poolSize.toNat := toNat_largePool s
  have hs : s.smallPool.toNat = smallPoolSize s.poolSize.toNat := toNat_smallPool s (by omega)
  have hlt := place_lt hp size s.rrCounter.toNat
  have hmax := s.poolSize.toNat_lt
  refine ⟨_, (select_sizeAware hpol).trans (sizeAware_eq hp size), ?_⟩
  rw [place] at hlt ⊢
  by_cases hsize : 4096 < size
  · rw [if_pos hsize] at hlt
    rw [if_pos hsize, if_pos hsize, UInt32.toNat_add, UInt32.toNat_mod, hl, hs]
    exact Nat.mod_eq_of_lt (by omega)
  · rw [if_neg hsize, if_neg hsize, UInt32.toNat_mod, hs]

/-- A scheduler whose choices are a function of the counter: message number `i`
of the sequence meets the counter `i` steps later. -/
theorem selectAll_of_select {draw : UInt32 → UInt32 → UInt32} {slot : UInt32 → Nat → Nat} {s : Scheduler}
    (hsel : ∀ c size, ∃ idx, { s with rrCounter := c }.select size draw = some (idx, { s with rrCounter := c + 1 }) ∧
      idx.toNat = slot size c.toNat)
    {sizes : List UInt32} (c : UInt32) (hlen : c.toNat + sizes.length < 2 ^ 32) :
    ∃ assigned, selectAll draw { s with rrCounter := c } sizes = some assigned ∧
      assigned.map (fun m => (m.1, m.2.toNat)) = (sizes.zipIdx c.toNat).map (fun m => (m.1, slot m.1 m.2)) := by
  induction sizes generalizing c with
  | nil => exact ⟨[], rfl, rfl⟩
  | cons size sizes ih =>
    rw [List.length_cons] at hlen
    have hnext : (c + 1).toNat = c.toNat + 1 := by
      rw [UInt32.toNat_add, UInt32.toNat_one, Nat.mod_eq_of_lt (by omega)]
    obtain ⟨idx, hidx, hslot⟩ := hsel c size
    obtain ⟨assigned, hall, hmap⟩ := ih (c + 1) (by omega)
    rw [hnext] at hmap
    refine ⟨(size, idx) :: assigned, ?_, ?_⟩
    · rw [selectAll, hidx, Option.bind_some, hall, Option.map_some]
    · rw [List.map_cons, hmap, hslot, List.zipIdx_cons, List.map_cons]

theorem selectAll_place (draw : UInt32 → UInt32 → UInt32) {poolSize : UInt32} (hp : 2 ≤ poolSize.toNat)
    {sizes : List UInt32} (hlen : sizes.length < 2 ^ 32) :
    ∃ assigned, selectAll draw (fresh .sizeAware poolSize) sizes = some assigned ∧
      assigned.map (fun m => (m.1, m.2.toNat)) = sizes.zipIdx.map (fun m => (m.1, place poolSize.toNat m.1 m.2)) := by
  have hzero : (0 : UInt32).toNat + sizes.length < 2 ^ 32 := by
    rw [UInt32.toNat_zero]
    omega
  refine selectAll_of_select (s := fresh .sizeAware poolSize) (fun c size => ?_) 0 hzero
  exact select_place draw (s := { fresh .sizeAware poolSize with rrCounter := c }) rfl hp size

variable {P : Nat} {sizes : List UInt32} {assigned : List (UInt32 × UInt32)}

theorem load_eq (hmap : assigned.map (fun m => (m.1, m.2.toNat)) = sizes.zipIdx.map (fun m => (m.1, place P m.1 m.2)))
    (large : Bool) (conn : Nat) :
    load large assigned conn =
      sizes.zipIdx.countP (fun m => decide (4096 < m.1) = large ∧ place P m.1 m.2 = conn) := by
  have hcount := congrArg (List.countP (fun m : UInt32 × Nat => decide (decide (4096 < m.1) = large ∧ m.2 = conn))) hmap
  rw [List.countP_map, List.countP_map] at hcount
  exact hcount

theorem countP_arrivals (large : Bool) (sizes : List UInt32) (m r : Nat) :
    (arrivals large sizes).countP (· % m = r) =
      sizes.zipIdx.countP (fun x => decide (4096 < x.1) = large ∧ x.2 % m = r) := by
  rw [arrivals, List.countP_map, List.countP_filter]
  apply List.countP_congr
  intro x _
  simp [and_comm]

theorem load_small (hmap : assigned.map (fun m => (m.1, m.2.toNat)) = sizes.zipIdx.map (fun m => (m.1, place P m.1 m.2)))
    (conn : Nat) : load false assigned conn = (arrivals false sizes).countP (· % smallPoolSize P = conn) := by
  rw [load_eq hmap, countP_arrivals]
  apply List.countP_congr
  intro x _
  by_cases hsize : 4096 < x.1 <;> simp [place, hsize]

theorem load_large (hmap : assigned.map (fun m => (m.1, m.2.toNat)) = sizes.zipIdx.map (fun m => (m.1, place P m.1 m.2)))
    (r : Nat) : load true assigned (smallPoolSize P + r) = (arrivals true sizes).countP (· % largePoolSize P = r) := by
  rw [load_eq hmap, countP_arrivals]
  apply List.countP_congr
  intro x _
  by_cases hsize : 4096 < x.1 <;> simp [place, hsize]

/-- The one counter serves both classes, so a class is balanced exactly when its
arrivals, counted together with those of the other class, are spread over the
residues modulo its sub-pool. -/
theorem balanced_iff_spread {poolSize : UInt32} (hp : 2 ≤ poolSize.toNat) (draw : UInt32 → UInt32 → UInt32)
    (sizes : List UInt32) (hlen : sizes.length < 2 ^ 32) :
    ∃ assigned, selectAll draw (fresh .sizeAware poolSize) sizes = some assigned ∧
      (Balanced poolSize.toNat assigned ↔
        Spread (smallPoolSize poolSize.toNat) (arrivals false sizes) ∧
        Spread (largePoolSize poolSize.toNat) (arrivals true sizes)) := by
  obtain ⟨assigned, hall, hmap⟩ := selectAll_place draw hp hlen
  obtain ⟨hl, hs, hsum⟩ := largePoolSize_bounds hp
  refine ⟨assigned, hall, ?_⟩
  constructor
  · intro h
    refine ⟨fun r hr r' hr' => ?_, fun r hr r' hr' => ?_⟩
    · rw [← load_small hmap, ← load_small hmap]
      exact h.small r hr r' hr'
    · rw [← load_large hmap, ← load_large hmap]
      exact h.large _ (by omega) (by omega) _ (by omega) (by omega)
  · rintro ⟨hsmall, hlarge⟩
    refine ⟨fun a ha b hb => ?_, fun a ha ha' b hb hb' => ?_⟩
    · rw [load_small hmap, load_small hmap]
      exact hsmall a ha b hb
    · obtain ⟨r, rfl⟩ := Nat.exists_eq_add_of_le ha
      obtain ⟨r', rfl⟩ := Nat.exists_eq_add_of_le hb
      rw [load_large hmap, load_large hmap]
      exact hlarge r (by omega) r' (by omega)

theorem countP_range_mod {m r : Nat} (n : Nat) (hr : r < m) :
    (List.range n).countP (· % m = r) = n / m + if r < n % m then 1 else 0 := by
  have hmod := Nat.count_modEq_card n (Nat.zero_lt_of_lt hr) r
  rw [Nat.mod_eq_of_lt hr] at hmod
  rw [← hmod, Nat.count]
  apply List.countP_congr
  intro k _
  simp [Nat.ModEq, Nat.mod_eq_of_lt hr]

theorem spread_range (m n : Nat) : Spread m (List.range n) := by
  intro r hr r' hr'
  rw [countP_range_mod n hr, countP_range_mod n hr']
  split <;> omega

theorem spread_of_one_class {large : Bool} {sizes : List UInt32} (h : ∀ size ∈ sizes, decide (4096 < size) = large)
    (m m' : Nat) : Spread m (arrivals large sizes) ∧ Spread m' (arrivals (!large) sizes) := by
  have hmem (x : UInt32 × Nat) (hx : x ∈ sizes.zipIdx) : decide (4096 < x.1) = large :=
    h x.1 (List.fst_mem_of_mem_zipIdx hx)
  constructor
  · have hall : sizes.zipIdx.filter (fun x => decide (4096 < x.1) = large) = sizes.zipIdx := by
      apply List.filter_eq_self.mpr
      intro x hx
      simpa using hmem x hx
    rw [arrivals, hall, List.zipIdx_map_snd, ← List.range_eq_range']
    exact spread_range m _
  · have hnone : sizes.zipIdx.filter (fun x => decide (4096 < x.1) = !large) = [] := by
      apply List.filter_eq_nil_iff.mpr
      intro x hx
      simp [hmem x hx]
    rw [arrivals, hnone]
    intro r _ r' _
    exact Nat.zero_le _

theorem balanced_small_messages : ∃ assigned,
    selectAll (fun a _ => a) (fresh .sizeAware 8) [64, 128, 64, 256, 64, 64, 64, 4096] = some assigned ∧
      Balanced 8 assigned := by
  have hpool : 2 ≤ (8 : UInt32).toNat := by decide
  have hsmall : ∀ size ∈ ([64, 128, 64, 256, 64, 64, 64, 4096] : List UInt32), decide (4096 < size) = false := by simp
  obtain ⟨assigned, hall, hiff⟩ := balanced_iff_spread hpool (fun a _ => a) [64, 128, 64, 256, 64, 64, 64, 4096] (by decide)
  exact ⟨assigned, hall, hiff.mpr (spread_of_one_class hsmall _ _)⟩

/-- A large message between two small ones: both small ones go to connection `0`
and none to connection `1`. -/
theorem alternating_not_balanced : ∃ assigned,
    selectAll (fun a _ => a) (fresh .sizeAware 3) [64, 8192, 64, 8192] = some assigned ∧
      load false assigned 0 = 2 ∧ load false assigned 1 = 0 ∧ ¬ Balanced 3 assigned := by
  refine ⟨[(64, 0), (8192, 2), (64, 0), (8192, 2)], by decide, by decide, by decide, ?_⟩
  intro h
  exact absurd (h.small 0 (by decide) 1 (by decide)) (by decide)

end DcBench.SizeBalance

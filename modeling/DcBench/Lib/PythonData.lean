import DcBench.Lib.Partition
import Mathlib.Data.List.Dedup
import Mathlib.Data.List.Forall2
import Mathlib.Data.List.Perm.Basic

namespace DcBench.Lib.PythonData

open DcBench.Lib

variable {α β κ ν : Type}

-- a loop that collects values and may raise
theorem mapM_eq_some_iff {f : α → Option β} {xs : List α} {us : List β} :
    xs.mapM f = some us ↔ List.Forall₂ (fun x u => f x = some u) xs us := by
  induction xs generalizing us with
  | nil => simp [eq_comm]
  | cons x xs ih =>
    rw [List.mapM_cons, Option.bind_eq_bind, Option.bind_eq_some_iff]
    constructor
    · rintro ⟨u, hu, hrest⟩
      obtain ⟨vs, hvs, hcons⟩ := Option.bind_eq_some_iff.mp hrest
      cases hcons
      exact .cons hu (ih.mp hvs)
    · intro h
      cases h with
      | cons hu hrest => exact ⟨_, hu, Option.bind_eq_some_iff.mpr ⟨_, ih.mpr hrest, rfl⟩⟩

theorem exists_of_mapM {f : α → Option β} {xs : List α} {us : List β} (h : xs.mapM f = some us) {x : α}
    (hx : x ∈ xs) : ∃ u ∈ us, f x = some u := by
  have hall := mapM_eq_some_iff.mp h
  clear h
  induction hall with
  | nil => cases hx
  | cons hu _ ih =>
    obtain rfl | hx := List.mem_cons.mp hx
    · exact ⟨_, List.mem_cons_self, hu⟩
    · obtain ⟨u, hmem, heq⟩ := ih hx
      exact ⟨u, List.mem_cons_of_mem _ hmem, heq⟩

theorem mapM_eq_map {f : α → Option β} {g : α → β} {xs : List α} (h : ∀ x ∈ xs, f x = some (g x)) :
    xs.mapM f = some (xs.map g) := by
  rw [mapM_eq_some_iff, List.forall₂_map_right_iff, List.forall₂_same]
  exact h

theorem mapM_eq_ok_iff {ε : Type} {f : α → Except ε β} {xs : List α} {us : List β} :
    xs.mapM f = .ok us ↔ List.Forall₂ (fun x u => f x = .ok u) xs us := by
  induction xs generalizing us with
  | nil =>
    rw [List.mapM_nil, List.forall₂_nil_left_iff]
    exact ⟨fun h => (Except.ok.inj h).symm, fun h => h ▸ rfl⟩
  | cons x xs ih =>
    rw [List.mapM_cons]
    constructor
    · intro h
      cases hx : f x with
      | error e =>
        rw [hx] at h
        cases h
      | ok u =>
        rw [hx] at h
        cases hxs : xs.mapM f with
        | error e =>
          rw [hxs] at h
          cases h
        | ok vs =>
          rw [hxs] at h
          cases h
          exact .cons hx (ih.mp hxs)
    · intro h
      cases h with
      | cons hx hrest =>
        rw [hx, ih.mpr hrest]
        rfl

theorem exists_mapM_ok_iff {ε : Type} {f : α → Except ε β} {xs : List α} :
    (∃ us, xs.mapM f = .ok us) ↔ ∀ x ∈ xs, ∃ u, f x = .ok u := by
  simp only [mapM_eq_ok_iff]
  induction xs with
  | nil => exact ⟨fun _ x hx => (nomatch hx), fun _ => ⟨[], .nil⟩⟩
  | cons x xs ih =>
    rw [List.forall_mem_cons, ← ih]
    constructor
    · rintro ⟨us, hus⟩
      cases hus with
      | cons hu hrest => exact ⟨⟨_, hu⟩, ⟨_, hrest⟩⟩
    · rintro ⟨⟨u, hu⟩, ⟨us, hus⟩⟩
      exact ⟨u :: us, .cons hu hus⟩

theorem mapM_ok_eq_map {ε : Type} {f : α → Except ε β} {g : α → β} {xs : List α} (h : ∀ x ∈ xs, f x = .ok (g x)) :
    xs.mapM f = .ok (xs.map g) := by
  rw [mapM_eq_ok_iff, List.forall₂_map_right_iff, List.forall₂_same]
  exact h

theorem exists_bind_ok_iff {ε : Type} {x : Except ε α} {f : α → Except ε β} :
    (∃ b, x >>= f = .ok b) ↔ ∃ a, x = .ok a ∧ ∃ b, f a = .ok b := by
  constructor
  · rintro ⟨b, hb⟩
    cases x with
    | error e => cases hb
    | ok a => exact ⟨a, rfl, b, hb⟩
  · rintro ⟨a, rfl, hb⟩
    exact hb

theorem mapM_perm {f : α → Option β} {xs ys : List α} (h : ys.Perm xs) {us : List β}
    (hus : xs.mapM f = some us) : ∃ vs, ys.mapM f = some vs ∧ vs.Perm us := by
  obtain ⟨vs, hvs, hperm⟩ := List.perm_comp_forall₂ h (mapM_eq_some_iff.mp hus)
  exact ⟨vs, mapM_eq_some_iff.mpr hvs, hperm⟩

/-- `xs[i]`: a negative index counts from the end, any other outside raises. -/
def index (xs : List α) (i : Int) : Option α :=
  if 0 ≤ i then xs[i.toNat]? else if -(xs.length : Int) ≤ i then xs[(xs.length + i).toNat]? else none

section

variable [DecidableEq κ]

/-- A dict is the list of its assignments, of which the last one to a key counts. -/
def get (d : List (κ × ν)) (k : κ) : Option ν := (d.reverse.find? (fun p => p.1 = k)).map Prod.snd

/-- The keys in the order of their first assignments. -/
def keys (d : List (κ × ν)) : List κ := (d.map Prod.fst).reverse.dedup.reverse

def values (d : List (κ × ν)) : List ν := (keys d).filterMap (get d)

def items (d : List (κ × ν)) : List (κ × ν) := (keys d).filterMap (fun k => (get d k).map (fun v => (k, v)))

theorem mem_keys {d : List (κ × ν)} {k : κ} : k ∈ keys d ↔ k ∈ d.map Prod.fst := by
  rw [keys, List.mem_reverse, List.mem_dedup, List.mem_reverse]

theorem get_eq_ite {d : List (κ × ν)} {f : κ → Option ν} (h : ∀ p ∈ d, f p.1 = some p.2) (k : κ) :
    get d k = if k ∈ d.map Prod.fst then f k else none := by
  rw [get]
  split_ifs with hk
  · obtain ⟨q, hq, hqk⟩ := List.mem_map.mp hk
    have hsome : (d.reverse.find? (fun p => p.1 = k)).isSome :=
      List.find?_isSome.mpr ⟨q, List.mem_reverse.mpr hq, decide_eq_true hqk⟩
    obtain ⟨p, hp⟩ := Option.isSome_iff_exists.mp hsome
    have hpk : p.1 = k := by simpa using List.find?_some hp
    rw [hp, Option.map_some, ← h p (List.mem_reverse.mp (List.mem_of_find?_eq_some hp)), hpk]
  · have hnone : d.reverse.find? (fun p => p.1 = k) = none := by
      rw [List.find?_eq_none]
      intro p hp hpk
      exact hk (List.mem_map.mpr ⟨p, List.mem_reverse.mp hp, of_decide_eq_true hpk⟩)
    rw [hnone, Option.map_none]

theorem mem_of_get {d : List (κ × ν)} {k : κ} {v : ν} (h : get d k = some v) : (k, v) ∈ d := by
  obtain ⟨p, hp, rfl⟩ := Option.map_eq_some_iff.mp h
  have hk : p.1 = k := by simpa using List.find?_some hp
  rw [← hk]
  exact List.mem_reverse.mp (List.mem_of_find?_eq_some hp)

theorem get_eq_none_iff {d : List (κ × ν)} {k : κ} : get d k = none ↔ k ∉ d.map Prod.fst := by
  rw [get, Option.map_eq_none_iff, List.find?_eq_none, List.mem_map]
  constructor
  · rintro h ⟨p, hp, rfl⟩
    exact h p (List.mem_reverse.mpr hp) (decide_eq_true rfl)
  · intro h p hp hk
    exact h ⟨p, List.mem_reverse.mp hp, of_decide_eq_true hk⟩

theorem get_append {d e : List (κ × ν)} {k : κ} : get (d ++ e) k = (get e k).or (get d k) := by
  rw [get, List.reverse_append, List.find?_append, Option.map_or]
  rfl

theorem get_map {μ : Type} {d : List (κ × ν)} {f : ν → μ} {k : κ} :
    get (d.map (fun p => (p.1, f p.2))) k = (get d k).map f := by
  rw [get, ← List.map_reverse, List.find?_map, Option.map_map, get, Option.map_map]
  rfl

theorem mem_items {d : List (κ × ν)} {k : κ} {v : ν} : (k, v) ∈ items d ↔ get d k = some v := by
  rw [items, List.mem_filterMap]
  constructor
  · rintro ⟨k', -, hget⟩
    obtain ⟨v', hv', heq⟩ := Option.map_eq_some_iff.mp hget
    cases heq
    exact hv'
  · intro h
    refine ⟨k, mem_keys.mpr (List.mem_map_of_mem (mem_of_get h)), ?_⟩
    rw [h, Option.map_some]

theorem get_of_mem {d : List (κ × ν)} (hnodup : (d.map Prod.fst).Nodup) {p : κ × ν} (hp : p ∈ d) :
    get d p.1 = some p.2 := by
  have hkeys : (d.reverse.map Prod.fst).Nodup := by rwa [List.map_reverse, List.nodup_reverse]
  rw [get, (Partition.find_eq_some_iff_of_nodup hkeys p.1 p).mpr ⟨List.mem_reverse.mpr hp, rfl⟩, Option.map_some]

theorem keys_of_nodup {d : List (κ × ν)} (hnodup : (d.map Prod.fst).Nodup) : keys d = d.map Prod.fst := by
  rw [keys, (List.nodup_reverse.mpr hnodup).dedup, List.reverse_reverse]

theorem length_keys_eq_iff {d : List (κ × ν)} : (keys d).length = d.length ↔ (d.map Prod.fst).Nodup := by
  constructor
  · intro h
    have hlen : (d.map Prod.fst).reverse.dedup.length = (d.map Prod.fst).reverse.length := by
      rw [List.length_reverse, List.length_map, ← h, keys, List.length_reverse]
    rw [← List.nodup_reverse, ← (List.dedup_sublist _).eq_of_length hlen]
    exact List.nodup_dedup _
  · intro h
    rw [keys_of_nodup h, List.length_map]

theorem values_of_nodup {d : List (κ × ν)} (hnodup : (d.map Prod.fst).Nodup) : values d = d.map Prod.snd := by
  rw [values, keys_of_nodup hnodup, List.filterMap_map, ← List.filterMap_eq_map]
  apply List.filterMap_congr
  intro p hp
  exact get_of_mem hnodup hp

end

end DcBench.Lib.PythonData

import Mathlib.Data.List.Nodup
import Mathlib.Data.List.Forall2

namespace DcBench.Lib.Product

variable {α β κ : Type}

/-- One element from each list, the last list going fastest. -/
def product : List (List β) → List (List β)
  | [] => [[]]
  | vs :: lists => vs.flatMap (fun v => (product lists).map (fun c => v :: c))

theorem mem_product_cons {v : β} {c vs : List β} {lists : List (List β)} :
    v :: c ∈ product (vs :: lists) ↔ v ∈ vs ∧ c ∈ product lists := by
  simp [product]

theorem exists_of_mem_product {combo vs : List β} {lists : List (List β)} (h : combo ∈ product (vs :: lists)) :
    ∃ v c, combo = v :: c ∧ v ∈ vs ∧ c ∈ product lists := by
  simp only [product, List.mem_flatMap, List.mem_map] at h
  obtain ⟨v, hv, c, hc, rfl⟩ := h
  exact ⟨v, c, rfl, hv, hc⟩

theorem nodup_product {lists : List (List β)} (h : ∀ vs ∈ lists, vs.Nodup) : (product lists).Nodup := by
  induction lists with
  | nil => simp [product]
  | cons vs lists ih =>
    rw [List.forall_mem_cons] at h
    rw [product, List.nodup_flatMap]
    refine ⟨fun v _ => (ih h.2).map (List.cons_injective), ?_⟩
    refine h.1.imp ?_
    intro v w hne c hc hc'
    obtain ⟨d, -, rfl⟩ := List.mem_map.mp hc
    obtain ⟨e, -, he⟩ := List.mem_map.mp hc'
    exact hne (List.cons.inj he).1.symm

theorem product_eq_nil_iff {lists : List (List β)} : product lists = [] ↔ [] ∈ lists := by
  induction lists with
  | nil => simp [product]
  | cons vs lists ih =>
    rw [product, List.flatMap_eq_nil_iff, List.mem_cons, ← ih]
    constructor
    · intro h
      cases vs with
      | nil => exact .inl rfl
      | cons v vs => exact .inr (List.map_eq_nil_iff.mp (h v List.mem_cons_self))
    · rintro (hnil | hnil) v hv
      · rw [← hnil] at hv
        cases hv
      · rw [hnil, List.map_nil]

/-- The parts of a combination, each written for its own key, one after the other. -/
def render (f : κ → β → List α) : List κ → List β → List α
  | k :: ks, v :: vs => f k v ++ render f ks vs
  | _, _ => []

theorem render_eq_flatMap (f : κ → β → List α) (ks : List κ) (vs : List β) :
    render f ks vs = (ks.zip vs).flatMap (fun p => f p.1 p.2) := by
  induction ks generalizing vs with
  | nil => rfl
  | cons k ks ih =>
    cases vs with
    | nil => rfl
    | cons v vs => rw [render, ih, List.zip_cons_cons, List.flatMap_cons]

/-- No two values of a key can both be read from one text, whatever is chosen for
the keys after it. -/
def Readable (f : κ → β → List α) : List (κ × List β) → Prop
  | [] => True
  | (k, vs) :: rest =>
    (∀ v ∈ vs, ∀ w ∈ vs, ∀ s, f k w = f k v ++ s →
      (∃ c ∈ product (rest.map Prod.snd), ∃ d ∈ product (rest.map Prod.snd),
        render f (rest.map Prod.fst) c = s ++ render f (rest.map Prod.fst) d) → v = w) ∧
    Readable f rest

/-- Texts tell combinations apart exactly when every key can be read. The first
key on which two combinations differ decides. -/
theorem injOn_render_iff {f : κ → β → List α} {lists : List (κ × List β)}
    (hne : product (lists.map Prod.snd) ≠ []) :
    (∀ c ∈ product (lists.map Prod.snd), ∀ d ∈ product (lists.map Prod.snd),
      render f (lists.map Prod.fst) c = render f (lists.map Prod.fst) d → c = d) ↔ Readable f lists := by
  induction lists with
  | nil => simp [product, Readable]
  | cons entry rest ih =>
    obtain ⟨k, vs⟩ := entry
    obtain ⟨combo, hcombo⟩ := List.exists_mem_of_ne_nil _ hne
    obtain ⟨u, tail, rfl, hu, htail⟩ := exists_of_mem_product hcombo
    rw [Readable, ← ih (List.ne_nil_of_mem htail)]
    constructor
    · intro h
      constructor
      · rintro v hv w hw s hs ⟨c, hc, d, hd, hcd⟩
        have heq := h (v :: c) (mem_product_cons.mpr ⟨hv, hc⟩) (w :: d) (mem_product_cons.mpr ⟨hw, hd⟩) (by
          simp only [List.map_cons, render, hs, hcd, List.append_assoc])
        exact (List.cons.inj heq).1
      · intro c hc d hd hcd
        have heq := h (u :: c) (mem_product_cons.mpr ⟨hu, hc⟩) (u :: d) (mem_product_cons.mpr ⟨hu, hd⟩) (by
          simp only [List.map_cons, render, hcd])
        exact (List.cons.inj heq).2
    · rintro ⟨hkey, hrest⟩ combo hcombo combo' hcombo' heq
      obtain ⟨v, c, rfl, hv, hc⟩ := exists_of_mem_product hcombo
      obtain ⟨w, d, rfl, hw, hd⟩ := exists_of_mem_product hcombo'
      simp only [List.map_cons, render] at heq
      have hvw : v = w := by
        obtain ⟨s, hs, hcd⟩ | ⟨s, hs, hcd⟩ := List.append_eq_append_iff.mp heq
        · exact hkey v hv w hw s hs ⟨c, hc, d, hd, hcd⟩
        · exact (hkey w hw v hv s hs ⟨d, hd, c, hc, hcd⟩).symm
      subst hvw
      rw [hrest c hc d hd (List.append_cancel_left heq)]

end DcBench.Lib.Product

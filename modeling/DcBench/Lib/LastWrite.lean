import Mathlib.Data.List.Induction
import Mathlib.Logic.Function.Basic

namespace DcBench.Lib.LastWrite

variable {κ β ε : Type} [DecidableEq κ]

def put (f : κ → Option β) : Option (κ × β) → κ → Option β
  | none => f
  | some w => Function.update f w.1 (some w.2)

/-- The store after a list of events, of which `write` says what each one
writes. The oldest event comes first. -/
def replay (write : ε → Option (κ × β)) (f : κ → Option β) (es : List ε) : κ → Option β :=
  es.foldl (fun f e => put f (write e)) f

def Untouched (write : ε → Option (κ × β)) (k : κ) (es : List ε) : Prop :=
  ∀ e ∈ es, ∀ v, write e ≠ some (k, v)

/-- The last write to the key puts the value there. -/
def LastWrites (write : ε → Option (κ × β)) (k : κ) (v : β) (es : List ε) : Prop :=
  ∃ before e later, es = before ++ e :: later ∧ write e = some (k, v) ∧ Untouched write k later

variable {write : ε → Option (κ × β)} {f : κ → Option β} {k : κ} {v : β}

theorem replay_concat (es : List ε) (e : ε) :
    replay write f (es ++ [e]) = put (replay write f es) (write e) := by
  rw [replay, List.foldl_append, replay]
  rfl

theorem replay_append (es later : List ε) :
    replay write f (es ++ later) = replay write (replay write f es) later := by
  rw [replay, List.foldl_append, replay, replay]

theorem put_of_ne {w : Option (κ × β)} (h : ∀ v, w ≠ some (k, v)) : put f w k = f k := by
  cases w with
  | none => rfl
  | some w =>
    rw [put]
    apply Function.update_of_ne
    intro hk
    apply h w.2
    rw [hk]

theorem replay_of_untouched {es : List ε} (h : Untouched write k es) : replay write f es k = f k := by
  induction es using List.reverseRecOn with
  | nil => rfl
  | append_singleton es e ih =>
    rw [replay_concat, put_of_ne (h e (by simp))]
    apply ih
    intro e' he'
    exact h e' (List.mem_append_left _ he')

omit [DecidableEq κ] in
theorem Untouched.concat {es : List ε} {e : ε} (h : Untouched write k es)
    (he : ∀ v, write e ≠ some (k, v)) : Untouched write k (es ++ [e]) := by
  rw [Untouched, List.forall_mem_append, List.forall_mem_singleton]
  exact ⟨h, he⟩

omit [DecidableEq κ] in
theorem untouched_or_last (write : ε → Option (κ × β)) (k : κ) (es : List ε) :
    Untouched write k es ∨ ∃ v, LastWrites write k v es := by
  induction es using List.reverseRecOn with
  | nil => exact .inl (by simp [Untouched])
  | append_singleton es e ih =>
    by_cases he : ∃ v, write e = some (k, v)
    · obtain ⟨v, hv⟩ := he
      exact .inr ⟨v, es, e, [], rfl, hv, by simp [Untouched]⟩
    · have hne : ∀ v, write e ≠ some (k, v) := fun v hv => he ⟨v, hv⟩
      obtain hu | ⟨v, before, e', later, rfl, hw, hl⟩ := ih
      · exact .inl (hu.concat hne)
      · exact .inr ⟨v, before, e', later ++ [e], by simp, hw, hl.concat hne⟩

theorem replay_of_last {es : List ε} (h : LastWrites write k v es) : replay write f es k = some v := by
  obtain ⟨before, e, later, rfl, hw, hl⟩ := h
  rw [← List.singleton_append, ← List.append_assoc, replay_append, replay_of_untouched hl, replay_concat, hw, put]
  exact Function.update_self ..

/-- The last write wins; without a write the key keeps its first value. -/
theorem replay_eq_some_iff {es : List ε} :
    replay write f es k = some v ↔ LastWrites write k v es ∨ (f k = some v ∧ Untouched write k es) := by
  constructor
  · intro h
    obtain hu | ⟨v', hl⟩ := untouched_or_last write k es
    · rw [replay_of_untouched hu] at h
      exact .inr ⟨h, hu⟩
    · rw [replay_of_last hl] at h
      obtain rfl := Option.some.inj h
      exact .inl hl
  · rintro (hl | ⟨hf, hu⟩)
    · exact replay_of_last hl
    · rw [replay_of_untouched hu, hf]

end DcBench.Lib.LastWrite

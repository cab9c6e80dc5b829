import Mathlib.Data.Finset.Insert
import Mathlib.Data.Finset.Erase

namespace DcBench.Lib.Handles

variable {α : Type}

/-- A history of handles that are given out and taken back. A handle may be given
out again after it was taken back. -/
inductive Op (α : Type)
  | opened (a : α)
  | closed (a : α)
deriving DecidableEq

def Op.handle : Op α → α
  | .opened a => a
  | .closed a => a

def cycles (a : α) (k : Nat) : List (Op α) := (List.replicate k [.opened a, .closed a]).flatten

theorem cycles_succ (a : α) (k : Nat) : cycles a (k + 1) = cycles a k ++ [.opened a, .closed a] := by
  rw [cycles, List.replicate_succ', List.flatten_append, List.flatten_singleton]
  rfl

theorem length_cycles (a : α) (k : Nat) : (cycles a k).length = k * 2 := by
  simp [cycles]

variable [DecidableEq α]

def live (ops : List (Op α)) : Finset α :=
  ops.foldl (fun s op => match op with
    | .opened a => insert a s
    | .closed a => s.erase a) ∅

@[simp] theorem mem_live_opened {ops : List (Op α)} {a b : α} :
    b ∈ live (ops ++ [.opened a]) ↔ b = a ∨ b ∈ live ops := by
  simp [live]

@[simp] theorem mem_live_closed {ops : List (Op α)} {a b : α} :
    b ∈ live (ops ++ [.closed a]) ↔ b ≠ a ∧ b ∈ live ops := by
  simp [live]

/-- Opening and closing alternate on every handle: none is closed twice, or
before it was opened. -/
def Alternates (ops : List (Op α)) : Prop :=
  ∀ a, ∃ k, ops.filter (fun op => op.handle = a) = cycles a k ++ if a ∈ live ops then [.opened a] else []

/-- Each time a handle was opened it has been closed once. -/
def ClosedOnce (ops : List (Op α)) : Prop := ∀ a, ∃ k, ops.filter (fun op => op.handle = a) = cycles a k

theorem alternates_nil : Alternates ([] : List (Op α)) := by
  intro a
  exact ⟨0, rfl⟩

theorem alternates_opened {ops : List (Op α)} {a : α} (h : Alternates ops) (hf : a ∉ live ops) :
    Alternates (ops ++ [.opened a]) := by
  intro b
  obtain ⟨k, hk⟩ := h b
  refine ⟨k, ?_⟩
  rw [List.filter_append, hk]
  by_cases hb : b = a
  · subst hb
    simp [Op.handle, hf]
  · simp [Op.handle, hb, Ne.symm hb]

theorem alternates_closed {ops : List (Op α)} {a : α} (h : Alternates ops) (hl : a ∈ live ops) :
    Alternates (ops ++ [.closed a]) := by
  intro b
  obtain ⟨k, hk⟩ := h b
  by_cases hb : b = a
  · subst hb
    refine ⟨k + 1, ?_⟩
    rw [List.filter_append, hk, cycles_succ]
    simp [Op.handle, hl]
  · refine ⟨k, ?_⟩
    rw [List.filter_append, hk]
    simp [Op.handle, hb, Ne.symm hb]

theorem closedOnce_iff {ops : List (Op α)} (h : Alternates ops) : ClosedOnce ops ↔ ∀ a, a ∉ live ops := by
  refine forall_congr' (fun a => ?_)
  obtain ⟨k, hk⟩ := h a
  rw [hk]
  constructor
  · rintro ⟨k', hk'⟩ hl
    have hlen := congrArg List.length hk'
    rw [if_pos hl, List.length_append, length_cycles, length_cycles, List.length_singleton] at hlen
    omega
  · intro hl
    exact ⟨k, by rw [if_neg hl, List.append_nil]⟩

theorem alternates_closeAll {ops : List (Op α)} {as : List α} (h : Alternates ops) (hn : as.Nodup)
    (hl : ∀ a ∈ as, a ∈ live ops) :
    Alternates (ops ++ as.map .closed) ∧ ∀ b, b ∈ live (ops ++ as.map .closed) ↔ b ∈ live ops ∧ b ∉ as := by
  induction as generalizing ops with
  | nil => simpa using h
  | cons a as ih =>
    obtain ⟨ha, hn⟩ := List.nodup_cons.mp hn
    have hclosed := alternates_closed h (hl a List.mem_cons_self)
    have hrest : ∀ b ∈ as, b ∈ live (ops ++ [.closed a]) := by
      intro b hb
      rw [mem_live_closed]
      exact ⟨ne_of_mem_of_not_mem hb ha, hl b (List.mem_cons_of_mem a hb)⟩
    obtain ⟨halt, hlive⟩ := ih hclosed hn hrest
    rw [List.append_assoc, List.singleton_append] at halt hlive
    refine ⟨halt, ?_⟩
    intro b
    rw [List.map_cons, hlive b, mem_live_closed, List.mem_cons]
    tauto

end DcBench.Lib.Handles

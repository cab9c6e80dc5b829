import DcBench.Lib.Handles
import DcBench.Lib.Transition
import Mathlib.Data.List.FinRange
import Mathlib.Data.List.OfFn
import Mathlib.Tactic.Push

namespace DcBench.ConnectionPool

open DcBench.Lib DcBench.Lib.Handles

structure PoolConfig where
  host : String
  port : UInt16
  poolSize : UInt32

/-- The answers of the system to one call of `create_and_connect`: the result of
`::socket`, whether `::getaddrinfo` found an address, and whether `::connect`
succeeded. -/
structure Attempt where
  socket : Int
  resolved : Bool
  connected : Bool

/-- The `fd` of each slot of `conns_`, -1 when it is not connected, and as history
the descriptors that the pool has opened and closed. -/
structure Pool (cfg : PoolConfig) where
  conns : Fin cfg.poolSize.toNat → Int
  ops : List (Op Int)
  alive : Bool

variable {cfg : PoolConfig}

/-- The descriptor, or the text of the exception; a socket that is not handed to
the caller is closed. -/
def createAndConnect (cfg : PoolConfig) (a : Attempt) : Except String Int × List (Op Int) :=
  if a.socket < 0 then (.error "socket() failed", [])
  else if a.resolved = false then
    (.error ("Invalid address: " ++ cfg.host), [.opened a.socket, .closed a.socket])
  else if a.connected = false then
    (.error ("connect() failed to " ++ cfg.host ++ ":" ++ toString cfg.port),
      [.opened a.socket, .closed a.socket])
  else (.ok a.socket, [.opened a.socket])

/-- The loop of `connect_all` over the slots still to be filled. The system never
gives out a descriptor that is open. -/
def connectSlots (attempts : Fin cfg.poolSize.toNat → Attempt) (p : Pool cfg) :
    List (Fin cfg.poolSize.toNat) → Option (Except String Unit × Pool cfg)
  | [] => some (.ok (), p)
  | i :: slots =>
    if (attempts i).socket ∈ live p.ops then none
    else
      match createAndConnect cfg (attempts i) with
      | (.error msg, ops) => some (.error msg, { p with ops := p.ops ++ ops })
      | (.ok fd, ops) =>
        connectSlots attempts { p with conns := Function.update p.conns i fd, ops := p.ops ++ ops } slots

def connectAll (attempts : Fin cfg.poolSize.toNat → Attempt) (p : Pool cfg) :
    Option (Except String Unit × Pool cfg) :=
  connectSlots attempts p (List.finRange cfg.poolSize.toNat)

def held (p : Pool cfg) : List Int := (List.ofFn p.conns).filter (fun fd => 0 ≤ fd)

def closeAll (p : Pool cfg) : Pool cfg :=
  { p with
    conns i := if 0 ≤ p.conns i then -1 else p.conns i
    ops := p.ops ++ (held p).map .closed }

inductive Event (cfg : PoolConfig)
  | connectAll (attempts : Fin cfg.poolSize.toNat → Attempt)
  | closeAll
  | destroy

/-- One call on the pool. An exception of `connect_all` is left to the caller. -/
def step (p : Pool cfg) (e : Event cfg) : Option (Pool cfg) :=
  if p.alive then
    match e with
    | .connectAll attempts => (connectAll attempts p).map Prod.snd
    | .closeAll => some (closeAll p)
    | .destroy => some { closeAll p with alive := false }
  else none

def fresh (cfg : PoolConfig) : Pool cfg := ⟨fun _ => -1, [], true⟩

/-- The descriptors that are open are those in the slots, each in one slot. -/
structure Tracked (p : Pool cfg) : Prop where
  exact : ∀ fd, fd ∈ live p.ops ↔ 0 ≤ fd ∧ ∃ i, p.conns i = fd
  distinct : ∀ i j, 0 ≤ p.conns i → p.conns i = p.conns j → i = j

def Attempt.succeeds (a : Attempt) : Bool := 0 ≤ a.socket && a.resolved && a.connected

/-- The slots that a call of `connect_all` fills: those before the first failure. -/
def filled (attempts : Fin cfg.poolSize.toNat → Attempt) : List (Fin cfg.poolSize.toNat) :=
  (List.finRange cfg.poolSize.toNat).takeWhile (fun i => (attempts i).succeeds)

/-- The call does not overwrite a descriptor. -/
def Vacant (p : Pool cfg) : Event cfg → Prop
  | .connectAll attempts => ∀ i ∈ filled attempts, p.conns i < 0
  | .closeAll | .destroy => True

/-- What holds of every pool, leaking or not. -/
structure Inv (p : Pool cfg) : Prop where
  alternates : Alternates p.ops
  nonneg : ∀ fd ∈ live p.ops, 0 ≤ fd
  open_of_conn : ∀ i, 0 ≤ p.conns i → p.conns i ∈ live p.ops
  distinct : ∀ i j, 0 ≤ p.conns i → p.conns i = p.conns j → i = j

def NoLeak (p : Pool cfg) : Prop := ∀ fd ∈ live p.ops, ∃ i, p.conns i = fd

theorem tracked_iff {p : Pool cfg} (h : Inv p) : Tracked p ↔ NoLeak p := by
  constructor
  · intro ht fd hfd
    exact ((ht.exact fd).mp hfd).2
  · intro hn
    refine ⟨fun fd => ⟨fun hfd => ⟨h.nonneg fd hfd, hn fd hfd⟩, ?_⟩, h.distinct⟩
    rintro ⟨hpos, i, rfl⟩
    exact h.open_of_conn i hpos

theorem createAndConnect_cases (cfg : PoolConfig) (a : Attempt) :
    (a.succeeds = true ∧ 0 ≤ a.socket ∧ createAndConnect cfg a = (.ok a.socket, [.opened a.socket])) ∨
    (a.succeeds = false ∧ ∃ msg ops, createAndConnect cfg a = (.error msg, ops) ∧
      (ops = [] ∨ 0 ≤ a.socket ∧ ops = [.opened a.socket, .closed a.socket])) := by
  unfold createAndConnect Attempt.succeeds
  by_cases hs : a.socket < 0
  · rw [if_pos hs, decide_eq_false (by omega)]
    exact .inr ⟨rfl, _, _, rfl, .inl rfl⟩
  · rw [if_neg hs, decide_eq_true (by omega)]
    cases hr : a.resolved with
    | false => exact .inr ⟨rfl, _, _, rfl, .inr ⟨by omega, rfl⟩⟩
    | true =>
      cases hc : a.connected with
      | false => exact .inr ⟨rfl, _, _, rfl, .inr ⟨by omega, rfl⟩⟩
      | true => exact .inl ⟨rfl, by omega, rfl⟩

theorem inv_failed {p : Pool cfg} (h : Inv p) {fd : Int} {ops : List (Op Int)} (hf : fd ∉ live p.ops)
    (ho : ops = [] ∨ 0 ≤ fd ∧ ops = [.opened fd, .closed fd]) :
    Inv { p with ops := p.ops ++ ops } ∧ (NoLeak { p with ops := p.ops ++ ops } ↔ NoLeak p) := by
  obtain rfl | ⟨-, rfl⟩ := ho
  · rw [List.append_nil]
    exact ⟨h, Iff.rfl⟩
  · have halt : Alternates (p.ops ++ [.opened fd, .closed fd]) := by
      have hclosed := alternates_closed (alternates_opened h.alternates hf) (mem_live_opened.mpr (.inl rfl))
      rwa [List.append_assoc] at hclosed
    have hlive (b : Int) : b ∈ live (p.ops ++ [.opened fd, .closed fd]) ↔ b ∈ live p.ops := by
      have hb : b ∈ live (p.ops ++ [.opened fd] ++ [.closed fd]) ↔ b ≠ fd ∧ b ∈ live (p.ops ++ [.opened fd]) :=
        mem_live_closed
      rw [List.append_assoc, mem_live_opened] at hb
      refine hb.trans ⟨?_, fun hl => ⟨ne_of_mem_of_not_mem hl hf, .inr hl⟩⟩
      rintro ⟨hne, rfl | hl⟩
      · exact absurd rfl hne
      · exact hl
    constructor
    · refine ⟨halt, ?_, ?_, h.distinct⟩
      · intro b hb
        exact h.nonneg b ((hlive b).mp hb)
      · intro i hi
        exact (hlive _).mpr (h.open_of_conn i hi)
    · simp only [NoLeak, hlive]

theorem inv_fill {p : Pool cfg} (h : Inv p) {fd : Int} (hpos : 0 ≤ fd) (hf : fd ∉ live p.ops)
    (i : Fin cfg.poolSize.toNat) :
    Inv { p with conns := Function.update p.conns i fd, ops := p.ops ++ [.opened fd] } := by
  have hfresh (j : Fin cfg.poolSize.toNat) : p.conns j ≠ fd := by
    intro hj
    exact hf (hj ▸ h.open_of_conn j (hj ▸ hpos))
  constructor
  · exact alternates_opened h.alternates hf
  · intro b hb
    obtain rfl | hb := mem_live_opened.mp hb
    · exact hpos
    · exact h.nonneg b hb
  · intro j hj
    by_cases hji : j = i
    · subst hji
      simp
    · simp only [Function.update_of_ne hji] at hj ⊢
      exact mem_live_opened.mpr (.inr (h.open_of_conn j hj))
  · intro j k hj hjk
    by_cases hji : j = i <;> by_cases hki : k = i
    · exact hji.trans hki.symm
    · subst hji
      simp only [Function.update_self, Function.update_of_ne hki] at hjk
      exact absurd hjk.symm (hfresh k)
    · subst hki
      simp only [Function.update_self, Function.update_of_ne hji] at hjk
      exact absurd hjk (hfresh j)
    · simp only [Function.update_of_ne hji, Function.update_of_ne hki] at hj hjk
      exact h.distinct j k hj hjk

theorem noLeak_fill {p : Pool cfg} (h : Inv p) {fd : Int} (hf : fd ∉ live p.ops) (i : Fin cfg.poolSize.toNat) :
    NoLeak { p with conns := Function.update p.conns i fd, ops := p.ops ++ [.opened fd] } ↔
      NoLeak p ∧ p.conns i < 0 := by
  constructor
  · intro hn
    have hkept (b : Int) (hb : b ∈ live p.ops) : ∃ j, j ≠ i ∧ p.conns j = b := by
      obtain ⟨j, hj⟩ := hn b (mem_live_opened.mpr (.inr hb))
      change Function.update p.conns i fd j = b at hj
      have hji : j ≠ i := by
        rintro rfl
        rw [Function.update_self] at hj
        exact hf (hj ▸ hb)
      exact ⟨j, hji, by rwa [Function.update_of_ne hji] at hj⟩
    constructor
    · intro b hb
      obtain ⟨j, -, hj⟩ := hkept b hb
      exact ⟨j, hj⟩
    · by_contra hge
      have hge : 0 ≤ p.conns i := by omega
      obtain ⟨j, hji, hj⟩ := hkept _ (h.open_of_conn i hge)
      exact hji (h.distinct i j hge hj.symm).symm
  · rintro ⟨hn, hneg⟩ b hb
    obtain rfl | hopen := mem_live_opened.mp hb
    · exact ⟨i, Function.update_self ..⟩
    · obtain ⟨j, hj⟩ := hn b hopen
      have hge := h.nonneg b hopen
      have hji : j ≠ i := by
        rintro rfl
        omega
      exact ⟨j, (Function.update_of_ne hji ..).trans hj⟩

/-- The loop of `connect_all`: it leaks exactly when it fills a slot that held a
descriptor. -/
theorem connectSlots_spec {attempts : Fin cfg.poolSize.toNat → Attempt} {slots : List (Fin cfg.poolSize.toNat)}
    (hnd : slots.Nodup) {p p' : Pool cfg} (h : Inv p) {r : Except String Unit}
    (hr : connectSlots attempts p slots = some (r, p')) :
    p'.alive = p.alive ∧ Inv p' ∧
      (NoLeak p' ↔ NoLeak p ∧ ∀ i ∈ slots.takeWhile (fun i => (attempts i).succeeds), p.conns i < 0) := by
  induction slots generalizing p with
  | nil =>
    cases hr
    exact ⟨rfl, h, by simp⟩
  | cons i slots ih =>
    obtain ⟨hi, hnd⟩ := List.nodup_cons.mp hnd
    simp only [connectSlots, Option.ite_none_left_eq_some] at hr
    obtain ⟨hf, hr⟩ := hr
    obtain ⟨hok, hpos, hc⟩ | ⟨hbad, msg, ops, hc, ho⟩ := createAndConnect_cases cfg (attempts i)
    · rw [hc] at hr
      obtain ⟨halive, hinv, hleak⟩ := ih hnd (inv_fill h hpos hf i) hr
      refine ⟨halive, hinv, hleak.trans ?_⟩
      rw [noLeak_fill h hf i, List.takeWhile_cons, if_pos hok, List.forall_mem_cons, and_assoc]
      -- the slots still to come are not the one just filled
      refine and_congr_right (fun _ => and_congr_right (fun _ => ?_))
      refine forall₂_congr (fun j hj => ?_)
      have hji : j ≠ i := ne_of_mem_of_not_mem ((List.takeWhile_prefix _).subset hj) hi
      change Function.update p.conns i _ j < 0 ↔ _
      rw [Function.update_of_ne hji]
    · rw [hc] at hr
      cases hr
      obtain ⟨hinv, hleak⟩ := inv_failed h hf ho
      refine ⟨rfl, hinv, hleak.trans ?_⟩
      rw [List.takeWhile_cons, if_neg (by simp [hbad])]
      simp

theorem mem_held {p : Pool cfg} {fd : Int} : fd ∈ held p ↔ 0 ≤ fd ∧ ∃ i, p.conns i = fd := by
  rw [held, List.mem_filter, List.mem_ofFn, decide_eq_true_eq, and_comm]

theorem nodup_held {p : Pool cfg} (h : Inv p) : (held p).Nodup := by
  rw [held, List.Nodup, List.pairwise_filter, List.pairwise_ofFn]
  intro i j hij hi hj heq
  exact hij.ne (h.distinct i j (of_decide_eq_true hi) heq)

theorem closeAll_spec {p : Pool cfg} (h : Inv p) :
    Inv (closeAll p) ∧ (∀ i, (closeAll p).conns i < 0) ∧ (NoLeak (closeAll p) ↔ NoLeak p) := by
  have hneg (i : Fin cfg.poolSize.toNat) : (closeAll p).conns i < 0 := by
    change (if 0 ≤ p.conns i then -1 else p.conns i) < 0
    split <;> omega
  have hheld : ∀ fd ∈ held p, fd ∈ live p.ops := by
    intro fd hfd
    obtain ⟨hpos, i, rfl⟩ := mem_held.mp hfd
    exact h.open_of_conn i hpos
  obtain ⟨halt, hlive⟩ := alternates_closeAll h.alternates (nodup_held h) hheld
  refine ⟨⟨halt, ?_, ?_, ?_⟩, hneg, ?_⟩
  · intro fd hfd
    exact h.nonneg fd ((hlive fd).mp hfd).1
  · intro i hi
    exact absurd (hneg i) (not_lt.mpr hi)
  · intro i j hi
    exact absurd (hneg i) (not_lt.mpr hi)
  · constructor
    · intro hn fd hfd
      by_contra hno
      obtain ⟨i, hi⟩ := hn fd ((hlive fd).mpr ⟨hfd, fun hmem => hno (mem_held.mp hmem).2⟩)
      have := hneg i
      have := h.nonneg fd hfd
      omega
    · intro hn fd hfd
      obtain ⟨hopen, hnot⟩ := (hlive fd).mp hfd
      exact absurd (mem_held.mpr ⟨h.nonneg fd hopen, hn fd hopen⟩) hnot

/-- One call keeps the books, and opens a leak exactly when it overwrites a descriptor. -/
theorem step_spec {p p' : Pool cfg} {e : Event cfg} (h : Inv p) (hs : step p e = some p') :
    Inv p' ∧ (p'.alive = false → ∀ i, p'.conns i < 0) ∧ (NoLeak p' ↔ NoLeak p ∧ Vacant p e) := by
  simp only [step, Option.ite_none_right_eq_some] at hs
  obtain ⟨halive, hs⟩ := hs
  cases e with
  | connectAll attempts =>
    obtain ⟨⟨r, q⟩, hr, rfl⟩ := Option.map_eq_some_iff.mp hs
    obtain ⟨hq, hinv, hleak⟩ := connectSlots_spec (List.nodup_finRange _) h hr
    refine ⟨hinv, ?_, hleak⟩
    intro hdead
    rw [hq, halive] at hdead
    cases hdead
  | closeAll =>
    cases hs
    obtain ⟨hinv, hneg, hleak⟩ := closeAll_spec h
    refine ⟨hinv, fun _ => hneg, ?_⟩
    rw [Vacant, and_true]
    exact hleak
  | destroy =>
    cases hs
    obtain ⟨hinv, hneg, hleak⟩ := closeAll_spec h
    refine ⟨⟨hinv.alternates, hinv.nonneg, hinv.open_of_conn, hinv.distinct⟩, fun _ => hneg, ?_⟩
    rw [Vacant, and_true]
    exact hleak

theorem inv_fresh (cfg : PoolConfig) : Inv (fresh cfg) := by
  refine ⟨alternates_nil, by simp [fresh, live], ?_, ?_⟩
  · intro i hi
    exact absurd hi (by simp [fresh])
  · intro i j hi
    exact absurd hi (by simp [fresh])

theorem closedOnce_iff_noLeak {p : Pool cfg} (h : Inv p) (hneg : ∀ i, p.conns i < 0) :
    ClosedOnce p.ops ↔ NoLeak p := by
  rw [closedOnce_iff h.alternates]
  constructor
  · intro hn fd hfd
    exact absurd hfd (hn fd)
  · intro hn fd hfd
    obtain ⟨i, rfl⟩ := hn fd hfd
    exact absurd (hneg i) (not_lt.mpr (h.nonneg _ hfd))

/-- No descriptor is lost or closed twice, in the run so far and after the
destructor, exactly when no call of `connect_all` overwrote a descriptor. -/
theorem tracked_iff_vacant {p : Pool cfg} {es : List (Event cfg)}
    (hr : Transition.run step (fresh cfg) es = some p) :
    (Tracked p ↔ Transition.Along step Vacant (fresh cfg) es) ∧
      (p.alive = false → (ClosedOnce p.ops ↔ Transition.Along step Vacant (fresh cfg) es)) := by
  have hstep (q : Pool cfg) (e : Event cfg) (q' : Pool cfg) (h : Inv q ∧ (q.alive = false → ∀ i, q.conns i < 0))
      (hs : step q e = some q') : Inv q' ∧ (q'.alive = false → ∀ i, q'.conns i < 0) := by
    obtain ⟨hinv, hgone, -⟩ := step_spec h.1 hs
    exact ⟨hinv, hgone⟩
  have hstart : Inv (fresh cfg) ∧ ((fresh cfg).alive = false → ∀ i, (fresh cfg).conns i < 0) :=
    ⟨inv_fresh cfg, nofun⟩
  obtain ⟨hinv, hgone⟩ := Transition.invariant hstep hstart hr
  have hleak : NoLeak p ↔ Transition.Along step Vacant (fresh cfg) es := by
    refine Transition.iff_along hstep ?_ hstart (by simp [NoLeak, fresh, live]) hr
    intro q e q' h hs
    exact (step_spec h.1 hs).2.2
  constructor
  · rw [tracked_iff hinv, hleak]
  · intro hdead
    rw [closedOnce_iff_noLeak hinv (hgone hdead), hleak]

def single : PoolConfig := ⟨"127.0.0.1", 9000, 1⟩

def reconnect : List (Event single) :=
  [.connectAll (fun _ => ⟨3, true, true⟩), .closeAll, .connectAll (fun _ => ⟨3, true, false⟩), .destroy]

theorem vacant_reconnect : Transition.Along step Vacant (fresh single) reconnect := by
  refine ⟨fun i _ => by decide +revert, ?_⟩
  intro p hp
  cases hp
  refine ⟨trivial, ?_⟩
  intro p hp
  cases hp
  refine ⟨fun i _ => by decide +revert, ?_⟩
  intro p hp
  cases hp
  exact ⟨trivial, fun _ _ => trivial⟩

theorem tracked_iff_vacant_reconnect : ∃ p : Pool single,
    Transition.run step (fresh single) reconnect = some p ∧ Tracked p ∧ ClosedOnce p.ops := by
  obtain ⟨p, hr, hdead⟩ : ∃ p : Pool single, Transition.run step (fresh single) reconnect = some p ∧
      p.alive = false := ⟨_, rfl, rfl⟩
  obtain ⟨htracked, hclosed⟩ := tracked_iff_vacant hr
  exact ⟨p, hr, htracked.mpr vacant_reconnect, (hclosed hdead).mpr vacant_reconnect⟩

theorem second_connectAll_leaks : ∃ p : Pool single,
    Transition.run step (fresh single)
      [.connectAll (fun _ => ⟨3, true, true⟩), .connectAll (fun _ => ⟨4, true, true⟩), .destroy] = some p ∧
    ¬ Tracked p ∧ ¬ ClosedOnce p.ops := by
  refine ⟨_, rfl, ?_, ?_⟩
  · intro h
    obtain ⟨-, i, hi⟩ := (h.exact 3).mp (by decide)
    revert hi
    revert i
    decide
  · intro h
    obtain ⟨k, hk⟩ := h 3
    have hlen : 1 = k * 2 := (congrArg List.length hk).trans (length_cycles 3 k)
    omega

end DcBench.ConnectionPool

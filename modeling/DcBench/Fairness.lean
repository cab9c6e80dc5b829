import DcBench.Analyze
import DcBench.FaninExperiment
import DcBench.Lib.Dispersion
import Mathlib.Analysis.Real.Sqrt

namespace DcBench.Fairness

open DcBench.Lib DcBench.Analyze DcBench.FaninReport

variable {K : Type} [Field K] [LinearOrder K]

def clientThroughputRps (samplesNs : List K) (poolSize : Int) : K :=
  if samplesNs.length = 0 then 0 else poolSize * 10 ^ 9 / mean samplesNs

/-- `nan` without values, or when all are zero. -/
def jainIndex (values : List K) : Option K :=
  if values.length = 0 ∨ Dispersion.squares values = 0 then none
  else some (values.sum ^ 2 / (values.length * Dispersion.squares values))

structure ClientStats (K : Type) where
  count : Nat
  meanUs : K
  throughputRps : K

/-- The statistics of one experiment. A missing number is `nan`. -/
structure FairnessData (K : Type) where
  perClient : List (String × ClientStats K)
  nSenders : Nat
  jainIndex : Option K
  cv : Option K
  minMaxRatio : Option K
  meanThroughputRps : K

def perClient (loaded : List (String × List K)) (poolSize : Int) : List (String × ClientStats K) :=
  (loaded.filter (fun client => client.2 ≠ [])).map (fun client =>
    (client.1, ⟨client.2.length, mean client.2 / 1000, clientThroughputRps client.2 poolSize⟩))

/-- `analyze_fairness` after the files are read, with `np.std` as a parameter. -/
def aggregate (std : List K → K) (loaded : List (String × List K)) (poolSize : Int) : Option (FairnessData K) :=
  let clients := perClient loaded poolSize
  if clients = [] then none
  else
    let tputs := (PythonData.values clients).map ClientStats.throughputRps
    some
      { perClient := clients
        nSenders := (PythonData.keys clients).length
        jainIndex := jainIndex tputs
        cv := if 0 < mean tputs then some (std tputs / mean tputs) else none
        minMaxRatio := minMaxRatio tputs
        meanThroughputRps := mean tputs }

/-- The inner `none` is the answer `None` for a directory without samples. -/
def analyzeFairness (std : List K → K) (dir : ResultDir) (poolSize : Int) : Option (Option (FairnessData K)) := do
  let loaded ← dir.latencyFiles.mapM (fun file =>
    (load LatencyCsv.Fairness.loadLatencyCsv file.2).map (fun samples => (file.1, samples)))
  some (aggregate std loaded poolSize)

variable {std : List K → K} {clients : List (String × List K)} {pool : Nat}

/-- A family of clients, each with a name of its own and with samples, all of them
positive. -/
structure Family (clients : List (String × List K)) : Prop where
  nodup : (clients.map Prod.fst).Nodup
  nonempty : clients ≠ []
  samples : ∀ client ∈ clients, client.2 ≠ [] ∧ ∀ x ∈ client.2, 0 < x

/-- `np.std`: the square root of the mean of the squared deviations. -/
def IsStd (std : List K → K) : Prop := ∀ xs, xs ≠ [] → 0 ≤ std xs ∧ std xs ^ 2 = Dispersion.variance xs

def shares (clients : List (String × List K)) (pool : Nat) : List K :=
  clients.map (fun client => throughput pool client.2)

theorem shares_ne_nil (h : Family clients) : shares clients pool ≠ [] := by
  rw [shares, Ne, List.map_eq_nil_iff]
  exact h.nonempty

omit [LinearOrder K] in
theorem shares_eq_scale (clients : List (String × List K)) (pool : Nat) :
    shares clients pool = (clients.map (fun client => (mean client.2)⁻¹)).map (fun x : K => pool * 10 ^ 9 * x) := by
  rw [shares, List.map_map]
  refine List.map_congr_left ?_
  intro client _
  exact div_eq_mul_inv _ _

theorem values_perClient (h : Family clients) (pool : Nat) :
    (PythonData.values (perClient clients pool)).map ClientStats.throughputRps = shares clients pool := by
  have hkeep : clients.filter (fun client => client.2 ≠ []) = clients := by
    rw [List.filter_eq_self]
    intro client hclient
    exact decide_eq_true (h.samples client hclient).1
  have hnames : ((perClient clients pool).map Prod.fst).Nodup := by
    rw [perClient, hkeep, List.map_map]
    exact h.nodup
  rw [PythonData.values_of_nodup hnames, perClient, hkeep, shares, List.map_map, List.map_map]
  refine List.map_congr_left ?_
  intro client hclient
  have hlen : client.2.length ≠ 0 := by simpa using (h.samples client hclient).1
  change clientThroughputRps client.2 pool = throughput pool client.2
  rw [clientThroughputRps, if_neg hlen, Int.cast_natCast, throughput]

theorem Family.perm (h : Family clients) {others : List (String × List K)} (hp : others.Perm clients) :
    Family others where
  nodup := (hp.map Prod.fst).nodup_iff.mpr h.nodup
  nonempty := by
    rintro rfl
    exact h.nonempty hp.nil_eq.symm
  samples := fun client hclient => h.samples client (hp.mem_iff.mp hclient)

variable [IsStrictOrderedRing K]

theorem shares_pos (h : Family clients) (hpool : 0 < pool) : ∀ x ∈ shares clients pool, 0 < x := by
  intro x hx
  obtain ⟨client, hclient, rfl⟩ := List.mem_map.mp hx
  obtain ⟨hne, hpos⟩ := h.samples client hclient
  exact FaninExperiment.throughput_pos hpool hne hpos

theorem index_shares (clients : List (String × List K)) (hpool : 0 < pool) :
    Dispersion.index (shares clients pool) = Dispersion.index (clients.map (fun client => (mean client.2)⁻¹)) := by
  have hscale : (pool : K) * 10 ^ 9 ≠ 0 := by positivity
  rw [shares_eq_scale, Dispersion.index_scale hscale]

theorem jainIndex_shares (h : Family clients) (hpool : 0 < pool) :
    jainIndex (shares clients pool) = some (Dispersion.index (shares clients pool)) := by
  have hpos := Dispersion.length_mul_squares_pos (shares_ne_nil h) (shares_pos h hpool)
  rw [jainIndex, if_neg]
  · rfl
  · rintro (hlen | hsq)
    · rw [hlen, Nat.cast_zero, zero_mul] at hpos
      exact lt_irrefl 0 hpos
    · rw [hsq, mul_zero] at hpos
      exact lt_irrefl 0 hpos

theorem aggregate_shares (std : List K → K) (h : Family clients) (hpool : 0 < pool) :
    ∃ data, aggregate std clients pool = some data ∧
      data.jainIndex = some (Dispersion.index (shares clients pool)) ∧
      data.cv = some (std (shares clients pool) / Dispersion.mean (shares clients pool)) ∧
      data.minMaxRatio = minMaxRatio (shares clients pool) := by
  have hne : shares clients pool ≠ [] := shares_ne_nil h
  have hmean : 0 < mean (shares clients pool) := FaninExperiment.mean_pos hne (shares_pos h hpool)
  have hvalues := values_perClient h pool
  have hclients : perClient clients pool ≠ [] := by
    intro hnil
    rw [hnil] at hvalues
    exact hne hvalues.symm
  refine ⟨_, if_neg hclients, ?_, ?_, ?_⟩
  · exact (congrArg jainIndex hvalues).trans (jainIndex_shares h hpool)
  · simp only [hvalues, if_pos hmean]
    rfl
  · exact congrArg minMaxRatio hvalues

theorem fairnessStats_shares (std : List K → K) (h : Family clients) (hpool : 0 < pool) :
    fairnessStats std clients pool =
      { jain := some (Dispersion.index (shares clients pool))
        cv := some (std (shares clients pool) / Dispersion.mean (shares clients pool))
        minMax := minMaxRatio (shares clients pool) } := by
  have hne : shares clients pool ≠ [] := shares_ne_nil h
  have hpos := shares_pos h hpool
  have hmean : 0 < mean (shares clients pool) := FaninExperiment.mean_pos hne hpos
  have htputs : (PythonData.values clients).filterMap (fun samples =>
      if mean samples ≤ 0 then none else some (throughput pool samples)) = shares clients pool := by
    rw [PythonData.values_of_nodup h.nodup, List.filterMap_map, shares,
      ← List.filterMap_eq_map (f := fun client : String × List K => throughput pool client.2)]
    refine List.filterMap_congr ?_
    intro client hclient
    obtain ⟨hsome, hlat⟩ := h.samples client hclient
    exact if_neg (FaninExperiment.mean_pos hsome hlat).not_ge
  have hdenom := FaninExperiment.denom_pos hne hpos
  have hsquares : ((shares clients pool).map (fun x => x * x)).sum = Dispersion.squares (shares clients pool) := by
    simp only [Dispersion.squares, sq]
  simp only [fairnessStats, if_neg h.nonempty, htputs, if_neg hne, if_pos hdenom, if_pos hmean]
  rw [hsquares]
  rfl

/-- The laws that tie the reported numbers to each other and to the mean
latencies of the clients. -/
structure Sound (clients : List (String × List K)) (jain cv minMax : K) : Prop where
  lower : 1 / (clients.length : K) ≤ jain
  upper : jain ≤ 1
  equal : jain = 1 ↔ ∀ c ∈ clients, ∀ d ∈ clients, mean c.2 = mean d.2
  variation : jain = 1 / (1 + cv ^ 2)
  spread : 4 * minMax / (1 + minMax) ^ 2 ≤ jain

theorem index_eq_one_iff_means (h : Family clients) (hpool : 0 < pool) :
    Dispersion.index (shares clients pool) = 1 ↔ ∀ c ∈ clients, ∀ d ∈ clients, mean c.2 = mean d.2 := by
  rw [index_shares clients hpool, Dispersion.index_eq_one_iff]
  · simp only [List.forall_mem_map, inv_inj]
  · rw [Ne, List.map_eq_nil_iff]
    exact h.nonempty
  · intro x hx
    obtain ⟨client, hclient, rfl⟩ := List.mem_map.mp hx
    obtain ⟨hne, hpos⟩ := h.samples client hclient
    exact inv_pos.mpr (FaninExperiment.mean_pos hne hpos)

theorem sound_shares (hstd : IsStd std) (h : Family clients) (hpool : 0 < pool) :
    ∃ minMax, minMaxRatio (shares clients pool) = some minMax ∧
      Sound clients (Dispersion.index (shares clients pool))
        (std (shares clients pool) / Dispersion.mean (shares clients pool)) minMax := by
  have hne : shares clients pool ≠ [] := shares_ne_nil h
  have hpos := shares_pos h hpool
  obtain ⟨low, high, hratio, hlow, hhigh, hbounds⟩ := FaninExperiment.exists_minMaxRatio hne hpos
  refine ⟨low / high, hratio, ?_, ?_, ?_, ?_, ?_⟩
  · have hlen : (shares clients pool).length = clients.length := List.length_map _
    rw [← hlen]
    exact Dispersion.one_div_length_le_index hne hpos
  · exact Dispersion.index_le_one hne hpos
  · exact index_eq_one_iff_means h hpool
  · rw [div_pow, (hstd _ hne).2]
    exact Dispersion.index_eq_variance hne hpos
  · exact Dispersion.ratio_le_index hne hlow hhigh hbounds

/-- The fairness numbers of both scripts are sound and agree with each other, and
neither the size of the pools nor the order of the clients changes Jain's index. -/
theorem fairness_sound (hstd : IsStd std) (h : Family clients) (hpool : 0 < pool) :
    ∃ data jain cv minMax, aggregate std clients pool = some data ∧
      data.jainIndex = some jain ∧ data.cv = some cv ∧ data.minMaxRatio = some minMax ∧
      fairnessStats std clients pool = ⟨some jain, some cv, some minMax⟩ ∧
      Sound clients jain cv minMax ∧
      ∀ (others : List (String × List K)) (pool' : Nat), others.Perm clients → 0 < pool' →
        (∃ data', aggregate std others pool' = some data' ∧ data'.jainIndex = some jain) ∧
        (fairnessStats std others pool').jain = some jain := by
  obtain ⟨data, hdata, hjain, hcv, hratio⟩ := aggregate_shares std h hpool
  have hstats := fairnessStats_shares std h hpool
  obtain ⟨minMax, hminMax, hsound⟩ := sound_shares hstd h hpool
  rw [hminMax] at hratio hstats
  refine ⟨data, _, _, minMax, hdata, hjain, hcv, hratio, hstats, hsound, ?_⟩
  intro others pool' hperm hpool'
  obtain ⟨data', hdata', hjain', -, -⟩ := aggregate_shares std (h.perm hperm) hpool'
  have hstats' := fairnessStats_shares std (h.perm hperm) hpool'
  have hindex : Dispersion.index (shares others pool') = Dispersion.index (shares clients pool) := by
    rw [index_shares others hpool', index_shares clients hpool]
    exact Dispersion.index_perm (hperm.map _)
  rw [hindex] at hjain' hstats'
  exact ⟨⟨data', hdata', hjain'⟩, congrArg FairnessStats.jain hstats'⟩

noncomputable def stdReal (xs : List ℝ) : ℝ := Real.sqrt (Dispersion.variance xs)

theorem isStd_stdReal : IsStd stdReal := by
  intro xs _
  exact ⟨Real.sqrt_nonneg _, Real.sq_sqrt (Dispersion.variance_nonneg xs)⟩

def twoClients : List (String × List ℝ) := [("client_0", [1000]), ("client_1", [1000, 3000])]

theorem family_twoClients : Family twoClients := by
  refine ⟨by simp [twoClients], by simp [twoClients], ?_⟩
  intro client hclient
  simp only [twoClients, List.mem_cons, List.not_mem_nil, or_false] at hclient
  obtain rfl | rfl := hclient <;> refine ⟨by simp, ?_⟩ <;> norm_num

theorem fairness_sound_twoClients :
    ∃ data jain cv minMax, aggregate stdReal twoClients 32 = some data ∧
      data.jainIndex = some jain ∧ data.cv = some cv ∧ data.minMaxRatio = some minMax ∧
      fairnessStats stdReal twoClients 32 = ⟨some jain, some cv, some minMax⟩ ∧
      Sound twoClients jain cv minMax := by
  obtain ⟨data, jain, cv, minMax, hdata, hjain, hcv, hratio, hstats, hsound, -⟩ :=
    fairness_sound isStd_stdReal family_twoClients (Nat.succ_pos 31)
  exact ⟨data, jain, cv, minMax, hdata, hjain, hcv, hratio, hstats, hsound⟩

end DcBench.Fairness

import DcBench.Analyze
import DcBench.Lib.PythonData
import Mathlib.Data.String.Basic

namespace DcBench.PlotAgreement

open DcBench.Lib DcBench.LatencyHistogram DcBench.LatencyCsv DcBench.Analyze

/-- As in `analyze.py`, but the files of the directory itself come sorted. -/
def Plot.sources (dir : ResultDir) : List (String × List Char) :=
  if dir.latencyFiles = [] then dir.csvFiles.mergeSort (fun a b => a.1 ≤ b.1) else dir.latencyFiles

def Plot.loadExperiment (double : ℚ → ℚ) (dir : ResultDir) : Option (List ℚ) := do
  let allSamples ← (Plot.sources dir).mapM (fun file => Plot.loadLatencyCsv double file.2)
  some allSamples.flatten

/-- The bars of `plot_bar_percentiles`, none without data. -/
def Plot.barPercentiles (data : List ℚ) : Option (List ℚ) :=
  if data = [] then none
  else [50, 95, 99, 999 / 10].mapM (fun p => Percentile.percentile data p)

/-- The two scripts find no samples, or percentiles at most `ε` microseconds apart. -/
def Agree (dir : ResultDir) (ε p : ℚ) : Prop :=
  ∃ ns us, merged dir = some ns ∧ Plot.loadExperiment Binary64.nearest dir = some us ∧
    (ns = [] ∧ us = [] ∨ ∃ a b, Percentile.percentile (samplesUs ns) p = some a ∧
      Percentile.percentile us p = some b ∧ |a - b| ≤ ε)

/-- Where there are samples, the bars of the figure are at most `ε` away from
the percentiles of the table. -/
def BarsAgree (std : List ℚ → ℚ) (dir : ResultDir) (ε : ℚ) : Prop :=
  ∃ us, Plot.loadExperiment Binary64.nearest dir = some us ∧
    (us ≠ [] → ∃ analysis stats bars, analyzeExperiment std dir = some (some analysis) ∧
      analysis.aggregate = some stats ∧ Plot.barPercentiles us = some bars ∧
      List.Forall₂ (fun x y => |x - y| ≤ ε) [stats.p50Us, stats.p95Us, stats.p99Us, stats.p999Us] bars)

/-- Table and figures of one directory. -/
structure Close (std : List ℚ → ℚ) (dir : ResultDir) (ε : ℚ) : Prop where
  percentiles : ∀ p, 0 ≤ p → p ≤ 100 → Agree dir ε p
  bars : BarsAgree std dir ε

def Dumped (text : List Char) (samples : List UInt64) : Prop :=
  ∃ ops, added ops = samples ∧ text = (dumpCsv (run ops)).2

/-- Every file is one of `dump_csv`, with samples that meet the condition. -/
def Dumps (P : UInt64 → Prop) (dir : ResultDir) : Prop :=
  ∀ text ∈ dir.texts, ∃ samples, Dumped text samples ∧ ∀ x ∈ samples, P x

theorem sources_perm (dir : ResultDir) : (Plot.sources dir).Perm (sources dir) := by
  rw [Plot.sources, sources]
  split_ifs
  · exact List.mergeSort_perm _ _
  · exact .refl _

section

-- how far the two columns of one row may be apart
variable {P : UInt64 → Prop} {ε : ℚ}

/-- The value of `plot.py` beside that of `analyze.py` for one sample. -/
def RowClose (ε : ℚ) (x : UInt64) : Prop :=
  |Binary64.nearest (Binary64.nearest x.toNat / 1000) - usValue Binary64.nearest x| ≤ ε

theorem columns_close (hrow : ∀ x, P x → RowClose ε x) {text : List Char} {samples : List UInt64}
    (h : Dumped text samples) (hP : ∀ x ∈ samples, P x) :
    ∃ ns us, Analyze.loadLatencyCsv text = some ns ∧ Plot.loadLatencyCsv Binary64.nearest text = some us ∧
      List.Forall₂ (fun x y => |x - y| ≤ ε) (samplesUs ns) us := by
  obtain ⟨ops, rfl, rfl⟩ := h
  refine ⟨(OrderStatistic.sort (added ops)).map (fun x => (x.toNat : Int)),
    (OrderStatistic.sort (added ops)).map (usValue Binary64.nearest), ?_, ?_, ?_⟩
  · rw [dumpCsv_run, Analyze.loadLatencyCsv, latenciesNs_csvText]
  · rw [dumpCsv_run, plot_csvText]
  · rw [samplesUs, List.map_map, List.forall₂_map_left_iff, List.forall₂_map_right_iff, List.forall₂_same]
    intro x hx
    rw [Function.comp_apply, Int.cast_natCast]
    exact hrow x (hP x ((OrderStatistic.sort_perm (added ops)).mem_iff.mp hx))

theorem files_close (hrow : ∀ x, P x → RowClose ε x) {files : List (String × List Char)}
    (h : ∀ file ∈ files, ∃ samples, Dumped file.2 samples ∧ ∀ x ∈ samples, P x) :
    ∃ ns us, files.mapM (fun file => Analyze.loadLatencyCsv file.2) = some ns ∧
      files.mapM (fun file => Plot.loadLatencyCsv Binary64.nearest file.2) = some us ∧
      List.Forall₂ (fun x y => |x - y| ≤ ε) (samplesUs ns.flatten) us.flatten := by
  induction files with
  | nil => exact ⟨[], [], rfl, rfl, .nil⟩
  | cons file files ih =>
    obtain ⟨samples, hdump, hP⟩ := h file (List.mem_cons_self ..)
    obtain ⟨ns, us, hns, hus, hclose⟩ := columns_close hrow hdump hP
    obtain ⟨nss, uss, hnss, huss, hrest⟩ := ih (fun f hf => h f (List.mem_cons_of_mem file hf))
    refine ⟨ns :: nss, us :: uss, ?_, ?_, ?_⟩
    · rw [List.mapM_cons, hns, hnss]
      rfl
    · rw [List.mapM_cons, hus, huss]
      rfl
    · rw [samplesUs, List.flatten_cons, List.flatten_cons, List.map_append]
      exact List.rel_append hclose hrest

theorem merged_close (hrow : ∀ x, P x → RowClose ε x) {dir : ResultDir} (hdump : Dumps P dir) :
    ∃ ns us, merged dir = some ns ∧ Plot.loadExperiment Binary64.nearest dir = some us ∧ (ns = [] ↔ us = []) ∧
      (ns ≠ [] → ∀ p ≤ 100, ∃ a b, Percentile.percentile (samplesUs ns) p = some a ∧
        Percentile.percentile us p = some b ∧ |a - b| ≤ ε) := by
  obtain ⟨nss, uss, hns, hus, hclose⟩ :=
    files_close hrow (fun file hf => hdump file.2 (mem_texts_of_mem_sources hf))
  obtain ⟨vss, hvs, hperm⟩ := PythonData.mapM_perm (sources_perm dir) hus
  refine ⟨nss.flatten, vss.flatten, ?_, ?_, ?_, ?_⟩
  · rw [merged, hns]
    rfl
  · rw [Plot.loadExperiment, hvs]
    rfl
  · have hlen := hclose.length_eq
    rw [samplesUs, List.length_map] at hlen
    rw [← List.length_eq_zero_iff, ← List.length_eq_zero_iff, hlen, hperm.flatten.length_eq]
  · intro hne p hp
    have hne' : samplesUs nss.flatten ≠ [] := by rwa [samplesUs, Ne, List.map_eq_nil_iff]
    obtain ⟨a, b, ha, hb, hab⟩ := Percentile.abs_percentile_sub_le hclose hne' hp
    exact ⟨a, b, ha, (Percentile.percentile_congr hperm.flatten p).trans hb, hab⟩

theorem analyzeExperiment_eq (std : List ℚ → ℚ) {dir : ResultDir} {ns : List Int} (hdump : Dumps P dir)
    (hns : merged dir = some ns) (hne : ns ≠ []) :
    ∃ analysis, analyzeExperiment std dir = some (some analysis) ∧ analysis.aggregate = computeStats std ns := by
  have hsources : sources dir ≠ [] := by
    intro hnil
    rw [merged, hnil] at hns
    cases hns
    exact hne rfl
  have hclient : ∀ file ∈ sources dir, (Analyze.loadLatencyCsv file.2).map (fun samples =>
      (file.1, computeStats std samples)) =
        some (file.1, computeStats std ((Analyze.loadLatencyCsv file.2).getD [])) := by
    intro file hf
    obtain ⟨samples, ⟨ops, -, htext⟩, -⟩ := hdump file.2 (mem_texts_of_mem_sources hf)
    rw [htext, dumpCsv_run, Analyze.loadLatencyCsv, latenciesNs_csvText]
    rfl
  refine ⟨⟨computeStats std ns, (sources dir).map (fun file =>
    (file.1, computeStats std ((Analyze.loadLatencyCsv file.2).getD [])))⟩, ?_, rfl⟩
  rw [analyzeExperiment, PythonData.mapM_eq_map hclient, hns]
  exact if_neg hsources

theorem close_of_rowClose (std : List ℚ → ℚ) (hrow : ∀ x, P x → RowClose ε x) {dir : ResultDir}
    (hdump : Dumps P dir) : Close std dir ε := by
  obtain ⟨ns, us, hns, hus, hempty, hclose⟩ := merged_close hrow hdump
  refine ⟨?_, us, hus, ?_⟩
  · intro p _ hp
    refine ⟨ns, us, hns, hus, ?_⟩
    by_cases hne : ns = []
    · exact .inl ⟨hne, hempty.mp hne⟩
    · exact .inr (hclose hne p hp)
  · intro hne
    have hne' : ns ≠ [] := fun h => hne (hempty.mp h)
    obtain ⟨a₁, b₁, ha₁, hb₁, h₁⟩ := hclose hne' 50 (by norm_num)
    obtain ⟨a₂, b₂, ha₂, hb₂, h₂⟩ := hclose hne' 95 (by norm_num)
    obtain ⟨a₃, b₃, ha₃, hb₃, h₃⟩ := hclose hne' 99 (by norm_num)
    obtain ⟨a₄, b₄, ha₄, hb₄, h₄⟩ := hclose hne' (999 / 10) (by norm_num)
    obtain ⟨stats, hstats, hfields⟩ := computeStats_eq_some std hne' ha₁ ha₂ ha₃ ha₄
    obtain ⟨analysis, hanalysis, haggregate⟩ := analyzeExperiment_eq std hdump hns hne'
    refine ⟨analysis, stats, [b₁, b₂, b₃, b₄], hanalysis, haggregate.trans hstats, ?_, ?_⟩
    · rw [Plot.barPercentiles, if_neg hne]
      simp only [List.mapM_cons, List.mapM_nil, hb₁, hb₂, hb₃, hb₄]
      rfl
    · rw [hfields]
      exact .cons h₁ (.cons h₂ (.cons h₃ (.cons h₄ .nil)))

end

/-- The text lies at most half a hundredth from the double quotient, and the
reader's double no further from the text. -/
theorem rowClose_of_text {x : UInt64} {ε : ℚ}
    (h : |Binary64.round (usHundredths x / 100) - (usHundredths x / 100 : ℚ)| ≤ ε) : RowClose (1 / 200 + ε) x := by
  have hquot : (0 : ℚ) ≤ Binary64.round x.toNat / 1000 :=
    div_nonneg (Binary64.round_nonneg (Nat.cast_nonneg _)) (by norm_num)
  have hprint := Binary64.abs_halfEven_sub_le (100 * Binary64.round (Binary64.round x.toNat / 1000))
  rw [← cast_usHundredths, abs_le] at hprint
  rw [abs_le] at h
  rw [RowClose, usValue, Binary64.nearest_of_nonneg (Nat.cast_nonneg _), Binary64.nearest_of_nonneg hquot,
    Binary64.nearest_of_nonneg (by positivity), abs_le]
  constructor <;> linarith

/-- The double quotient is itself one of the doubles the reader can choose. -/
theorem rowClose_hundredth (x : UInt64) : RowClose (1 / 100) x := by
  have hquot : (0 : ℚ) ≤ Binary64.round x.toNat / 1000 :=
    div_nonneg (Binary64.round_nonneg (Nat.cast_nonneg _)) (by norm_num)
  have hprint := Binary64.abs_halfEven_sub_le (100 * Binary64.round (Binary64.round x.toNat / 1000))
  rw [← cast_usHundredths, abs_le] at hprint
  have htext : |Binary64.round (Binary64.round x.toNat / 1000) - (usHundredths x / 100 : ℚ)| ≤ 1 / 200 := by
    rw [abs_le]
    constructor <;> linarith
  have hread := Binary64.abs_round_sub_le_abs_round_sub (x := (usHundredths x / 100 : ℚ)) (by positivity) hquot
  have hclose := rowClose_of_text (hread.trans htext)
  rwa [show (1 / 200 + 1 / 200 : ℚ) = 1 / 100 by norm_num] at hclose

theorem usHundredths_le {x : UInt64} {k : Nat} (hx : x.toNat < 1000 * 2 ^ k) :
    (usHundredths x / 100 : ℚ) ≤ 2 ^ (k : Int) := by
  have hone : ∀ n : Nat, n ≤ 2 ^ 53 → 0 < n → Binary64.round (n * 2 ^ (k : Int)) = n * 2 ^ (k : Int) := by
    intro n hn hpos
    rw [Binary64.round_mul_zpow (by exact_mod_cast hpos), Binary64.round_natCast hn]
  have hx' : (x.toNat : ℚ) ≤ (1000 : Nat) * 2 ^ (k : Int) := by
    rw [zpow_natCast]
    exact_mod_cast hx.le
  have hns := Binary64.round_mono (Nat.cast_nonneg _) hx'
  rw [hone 1000 (by norm_num) (by norm_num)] at hns
  have hquot : Binary64.round x.toNat / 1000 ≤ (1 : Nat) * 2 ^ (k : Int) := by
    rw [div_le_iff₀ (by norm_num)]
    push_cast at hns ⊢
    linarith
  have hus := Binary64.round_mono (div_nonneg (Binary64.round_nonneg (Nat.cast_nonneg _)) (by norm_num)) hquot
  rw [hone 1 (by norm_num) (by norm_num), Nat.cast_one, one_mul] at hus
  -- rounding to hundredths keeps the bound, since it is an integer
  have hprint : Binary64.halfEven (100 * Binary64.round (Binary64.round x.toNat / 1000)) ≤ 100 * 2 ^ k := by
    rw [← Binary64.halfEven_intCast (100 * 2 ^ k)]
    apply Binary64.halfEven_mono
    push_cast
    rw [← zpow_natCast]
    linarith
  have hcast := cast_usHundredths x
  rw [div_le_iff₀ (by norm_num), hcast, zpow_natCast]
  exact_mod_cast hprint.trans_eq (mul_comm _ _)

theorem rowClose_of_lt {x : UInt64} {k : Nat} (hx : x.toNat < 1000 * 2 ^ k) :
    RowClose (1 / 200 + 2 ^ ((k : Int) - 54)) x := by
  apply rowClose_of_text
  obtain hlt | heq := (usHundredths_le hx).lt_or_eq
  · have herror := Binary64.abs_round_sub_le_of_lt (x := (usHundredths x / 100 : ℚ)) (e := (k : Int) - 1)
      (by positivity) (by rwa [sub_add_cancel])
    rwa [sub_sub] at herror
  · rw [heq, ← one_mul ((2 : ℚ) ^ (k : Int)), Binary64.round_mul_zpow one_pos, ← Nat.cast_one,
      Binary64.round_natCast (by norm_num), sub_self, abs_zero]
    positivity

/-- The figures show the percentiles of the tables up to the two decimals of the
csv file and the double that is read from them: half a hundredth and the half
last place of `2 ^ k` for samples below `2 ^ k` microseconds, and never more
than a hundredth. -/
theorem plot_agrees_with_analyze (std : List ℚ → ℚ) (dir : ResultDir) :
    (Dumps (fun _ => True) dir → Close std dir (1 / 100)) ∧
    ∀ k : Nat, Dumps (fun x => x.toNat < 1000 * 2 ^ k) dir → Close std dir (1 / 200 + 2 ^ ((k : Int) - 54)) :=
  ⟨close_of_rowClose std (fun x _ => rowClose_hundredth x), fun _ => close_of_rowClose std (fun _ => rowClose_of_lt)⟩

/-- A directory with two clients and a subdirectory of another kind. -/
def twoClients (xs ys : List UInt64) : ResultDir :=
  ⟨[("client_0", some (dumpCsv (run [.addSamples xs])).2), ("client_1", some (dumpCsv (run [.addSamples ys])).2),
    ("plots", none)], []⟩

theorem added_addSamples (xs : List UInt64) : added [.addSamples xs] = xs :=
  (added_concat [] (.addSamples xs)).trans (if_neg (by simp))

theorem dumps_twoClients {P : UInt64 → Prop} {xs ys : List UInt64} (hx : ∀ x ∈ xs, P x) (hy : ∀ y ∈ ys, P y) :
    Dumps P (twoClients xs ys) := by
  intro text htext
  have htexts : (twoClients xs ys).texts =
      [(dumpCsv (run [.addSamples xs])).2, (dumpCsv (run [.addSamples ys])).2] := rfl
  rw [htexts, List.mem_cons, List.mem_singleton] at htext
  obtain rfl | rfl := htext
  · exact ⟨added [.addSamples xs], ⟨_, rfl, rfl⟩, (added_addSamples xs).symm ▸ hx⟩
  · exact ⟨added [.addSamples ys], ⟨_, rfl, rfl⟩, (added_addSamples ys).symm ▸ hy⟩

theorem merged_twoClients (xs ys : List UInt64) :
    merged (twoClients xs ys) =
      some ((OrderStatistic.sort (added [.addSamples xs])).map (fun x => (x.toNat : Int)) ++
        (OrderStatistic.sort (added [.addSamples ys])).map (fun x => (x.toNat : Int))) := by
  have hload : ∀ zs, Analyze.loadLatencyCsv (dumpCsv (run [.addSamples zs])).2 =
      some ((OrderStatistic.sort (added [.addSamples zs])).map (fun x => (x.toNat : Int))) := by
    intro zs
    rw [dumpCsv_run, Analyze.loadLatencyCsv, latenciesNs_csvText]
  have hsources : sources (twoClients xs ys) = [("client_0", (dumpCsv (run [.addSamples xs])).2),
    ("client_1", (dumpCsv (run [.addSamples ys])).2)] := rfl
  simp [merged, hsources, hload]

theorem loadExperiment_twoClients (xs ys : List UInt64) :
    Plot.loadExperiment Binary64.nearest (twoClients xs ys) =
      some ((OrderStatistic.sort (added [.addSamples xs])).map (usValue Binary64.nearest) ++
        (OrderStatistic.sort (added [.addSamples ys])).map (usValue Binary64.nearest)) := by
  have hload : ∀ zs, Plot.loadLatencyCsv Binary64.nearest (dumpCsv (run [.addSamples zs])).2 =
      some ((OrderStatistic.sort (added [.addSamples zs])).map (usValue Binary64.nearest)) := by
    intro zs
    rw [dumpCsv_run, plot_csvText]
  have hsources : Plot.sources (twoClients xs ys) = [("client_0", (dumpCsv (run [.addSamples xs])).2),
    ("client_1", (dumpCsv (run [.addSamples ys])).2)] := rfl
  simp [Plot.loadExperiment, hsources, hload]

theorem plot_agrees_with_analyze_twoClients :
    merged (twoClients [1995, 7, 2000] [12345, 1995]) = some [7, 1995, 2000, 1995, 12345] ∧
      Close (fun _ => 0) (twoClients [1995, 7, 2000] [12345, 1995]) (1 / 200 + 2 ^ (-50 : Int)) := by
  constructor
  · rw [merged_twoClients]
    decide
  · apply (plot_agrees_with_analyze (fun _ => 0) _).2 4
    exact dumps_twoClients (by simp) (by simp)

/-- The double quotient of this sample is exact and ends in `.125`. The file has
`.12`, and the double next to that is 61/512, further down. -/
theorem half_hundredth_exceeded :
    ¬ ∀ (dir : ResultDir) (p : ℚ), 0 ≤ p ∧ p ≤ 100 → Dumps (fun _ => True) dir → Agree dir (1 / 200) p := by
  intro hall
  obtain ⟨ns, us, hns, hus, hagree⟩ := hall (twoClients [8796093022208125] []) 50 (by norm_num)
    (dumps_twoClients (fun _ _ => trivial) (fun _ _ => trivial))
  rw [merged_twoClients, Option.some.injEq] at hns
  rw [loadExperiment_twoClients, Option.some.injEq] at hus
  subst hns hus
  obtain hempty | ⟨a, b, ha, hb, hab⟩ := hagree
  · exact absurd hempty.1 (by decide)
  · rw [show Percentile.percentile _ (50 : ℚ) = some (8796093022208 + 1 / 8 : ℚ) by decide +kernel] at ha
    rw [show Percentile.percentile _ (50 : ℚ) = some (8796093022208 + 61 / 512 : ℚ) by decide +kernel] at hb
    cases ha
    cases hb
    norm_num at hab

end DcBench.PlotAgreement

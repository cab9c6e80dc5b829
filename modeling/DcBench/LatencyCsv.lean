import DcBench.LatencyHistogram
import DcBench.Lib.Csv

namespace DcBench.LatencyCsv

open DcBench.Lib DcBench.LatencyHistogram

/-- The column `latency_ns` as integers. A row without it or with another text
raises. -/
def latenciesNs (text : List Char) : Option (List Int) :=
  (Csv.column "latency_ns".toList text).bind (fun cells => cells.mapM PythonText.int?)

/-- The loader of `analyze.py` keeps the integers. -/
def Analyze.loadLatencyCsv (text : List Char) : Option (List Int) := latenciesNs text

section

-- how a number becomes a double
variable (double : ℚ → ℚ)

/-- The array with `dtype=np.float64` that the other loaders make of it. -/
def float64Ns (text : List Char) : Option (List ℚ) :=
  (latenciesNs text).map (fun lat => lat.map (fun n : Int => double n))

def Fairness.loadLatencyCsv (text : List Char) : Option (List ℚ) := float64Ns double text

def FaninReport.loadLatencyCsv (text : List Char) : Option (List ℚ) := float64Ns double text

def MakePlots.loadLatencyNs (text : List Char) : Option (List ℚ) := float64Ns double text

def Plot.loadLatencyCsv (text : List Char) : Option (List ℚ) :=
  (Csv.column "latency_us".toList text).bind
    (fun cells => cells.mapM (fun cell => (PythonText.float? cell).map double))

/-- One line of `plot_stress.py`. A `ValueError` skips it. -/
def PlotStress.lineSamples (line : List Char) : List ℚ :=
  let parts := (PythonText.strip line).splitOn ','
  if 3 ≤ parts.length then ((PythonText.float? (parts.getD 2 [])).map double).toList else []

/-- All the files of a run in one sorted array. A file without a header line
raises. -/
def PlotStress.loadSamples (texts : List (List Char)) : Option (List ℚ) := do
  let files ← texts.mapM (fun text =>
    match PythonText.fileLines text with
    | [] => none
    | _ :: ls => some (ls.flatMap (PlotStress.lineSamples double)))
  some (OrderStatistic.sort files.flatten)

end

def header : List (List Char) := ["sample_idx".toList, "latency_ns".toList, "latency_us".toList]

def fields (x : UInt64) (i : Nat) : List (List Char) :=
  [Decimal.natText i, Decimal.natText x.toNat, usText x]

def records (samples : List UInt64) : List (List (List Char)) := samples.zipIdx.map (fun p => fields p.1 p.2)

theorem csvText_eq (samples : List UInt64) : csvText samples = (header :: records samples).flatMap Csv.rowText := by
  have hrow : ∀ i x, csvRow i x = Csv.rowText (fields x i) := by
    intro i x
    simp [csvRow, Csv.rowText, fields, List.intercalate_cons_cons]
  have hheader : csvHeader = Csv.rowText header := rfl
  rw [csvText, List.flatMap_cons, List.flatMap_def, records, List.map_map, List.mapIdx_eq_zipIdx_map, hheader]
  simp only [hrow]
  rfl

theorem plain_of_isNumeral {f : List Char} (hne : f ≠ []) (h : ∀ c ∈ f, PythonText.isNumeral c) : Csv.Plain f := by
  refine ⟨hne, fun c hc => ?_⟩
  have hneq : ∀ d : Char, PythonText.isNumeral d = false → c ≠ d :=
    fun d hd => PythonText.ne_of_isNumeral (h c hc) hd
  simp [Csv.isPlain, Csv.isNewline, hneq '\n' (by decide), hneq '\r' (by decide), hneq '"' (by decide),
    hneq ',' (by decide)]

theorem isNumeral_fields (x : UInt64) (i : Nat) : ∀ f ∈ fields x i, ∀ c ∈ f, PythonText.isNumeral c := by
  intro f hf
  simp only [fields, List.mem_cons, List.not_mem_nil, or_false] at hf
  obtain rfl | rfl | rfl := hf
  · exact PythonText.isNumeral_natText _
  · exact PythonText.isNumeral_natText _
  · exact PythonText.isNumeral_hundredthsText _

theorem plain_fields (x : UInt64) (i : Nat) : ∀ f ∈ fields x i, Csv.Plain f := by
  intro f hf
  apply plain_of_isNumeral _ (isNumeral_fields x i f hf)
  simp only [fields, List.mem_cons, List.not_mem_nil, or_false] at hf
  obtain rfl | rfl | rfl := hf
  · exact Decimal.natText_ne_nil _
  · exact Decimal.natText_ne_nil _
  · simp [usText, Decimal.hundredthsText]

theorem plain_header : ∀ f ∈ header, Csv.Plain f := by
  intro f hf
  simp only [header, List.mem_cons, List.not_mem_nil, or_false] at hf
  obtain rfl | rfl | rfl := hf
  · exact ⟨by decide, List.all_eq_true.mp rfl⟩
  · exact ⟨by decide, List.all_eq_true.mp rfl⟩
  · exact ⟨by decide, List.all_eq_true.mp rfl⟩

theorem plain_table (samples : List UInt64) : ∀ row ∈ header :: records samples, ∀ f ∈ row, Csv.Plain f := by
  intro row hrow
  obtain rfl | hrow := List.mem_cons.mp hrow
  · exact plain_header
  · obtain ⟨p, _, rfl⟩ := List.mem_map.mp hrow
    exact plain_fields p.1 p.2

theorem table_ne_nil (samples : List UInt64) : ∀ row ∈ header :: records samples, row ≠ [] := by
  intro row hrow
  obtain rfl | hrow := List.mem_cons.mp hrow
  · exact List.cons_ne_nil _ _
  · obtain ⟨p, _, rfl⟩ := List.mem_map.mp hrow
    exact List.cons_ne_nil _ _

theorem column_csvText {name : List Char} {v : UInt64 × Nat → List Char}
    (hcell : ∀ p : UInt64 × Nat, Csv.cell header (fields p.1 p.2) name = some (v p)) (samples : List UInt64) :
    Csv.column name (csvText samples) = some (samples.zipIdx.map v) := by
  rw [csvText_eq]
  apply Csv.column_rowText (table_ne_nil samples) (plain_table samples)
  have hcells : (fun row => Csv.cell header row name) ∘ (fun p : UInt64 × Nat => fields p.1 p.2) =
      fun p => some (v p) := by
    funext p
    exact hcell p
  rw [records, List.mapM_map, hcells]
  exact List.mapM_pure

theorem column_sampleIdx (samples : List UInt64) :
    Csv.column "sample_idx".toList (csvText samples) = some ((List.range samples.length).map Decimal.natText) := by
  have hidx : samples.zipIdx.map Prod.snd = List.range samples.length := by
    rw [List.zipIdx_map_snd, List.range_eq_range']
  rw [column_csvText (v := Decimal.natText ∘ Prod.snd) (fun _ => rfl), ← List.map_map, hidx]

theorem column_latencyNs (samples : List UInt64) :
    Csv.column "latency_ns".toList (csvText samples) =
      some ((samples.map UInt64.toNat).map Decimal.natText) := by
  rw [column_csvText (v := (Decimal.natText ∘ UInt64.toNat) ∘ Prod.fst) (fun _ => rfl), ← List.map_map,
    List.zipIdx_map_fst, List.map_map]

theorem column_latencyUs (samples : List UInt64) :
    Csv.column "latency_us".toList (csvText samples) = some (samples.map usText) := by
  rw [column_csvText (v := usText ∘ Prod.fst) (fun _ => rfl), ← List.map_map, List.zipIdx_map_fst]

theorem mapM_int_natText (ns : List Nat) :
    (ns.map Decimal.natText).mapM PythonText.int? = some (ns.map (fun n : Nat => (n : Int))) := by
  have hint : PythonText.int? ∘ Decimal.natText = fun n : Nat => some (n : Int) := by
    funext n
    exact PythonText.int_natText n
  rw [List.mapM_map, hint]
  exact List.mapM_pure

theorem latenciesNs_csvText (samples : List UInt64) :
    latenciesNs (csvText samples) = some (samples.map (fun x => (x.toNat : Int))) := by
  rw [latenciesNs, column_latencyNs, Option.bind_some, mapM_int_natText, List.map_map]
  rfl

/-- A sample in microseconds as the reader gets it. -/
def usValue (double : ℚ → ℚ) (x : UInt64) : ℚ := double (usHundredths x / 100)

theorem plot_csvText (double : ℚ → ℚ) (samples : List UInt64) :
    Plot.loadLatencyCsv double (csvText samples) = some (samples.map (usValue double)) := by
  have hfloat : (fun cell => (PythonText.float? cell).map double) ∘ usText = fun x => some (usValue double x) := by
    funext x
    rw [Function.comp_apply, usText, PythonText.float_hundredthsText]
    rfl
  rw [Plot.loadLatencyCsv, column_latencyUs, Option.bind_some, List.mapM_map, hfloat]
  exact List.mapM_pure

theorem lineSamples_rowText (double : ℚ → ℚ) (x : UInt64) (i : Nat) :
    PlotStress.lineSamples double (Csv.rowText (fields x i)) = [usValue double x] := by
  have hstrip : PythonText.strip (Csv.rowText (fields x i)) = [','].intercalate (fields x i) := by
    apply PythonText.strip_line
    apply Csv.forall_mem_intercalate (P := fun c => PythonText.isSpace c = false) (by decide)
    exact fun f hf c hc => PythonText.isSpace_of_isNumeral (isNumeral_fields x i f hf c hc)
  have hsplit : ([','].intercalate (fields x i)).splitOn ',' = fields x i :=
    List.splitOn_intercalate ',' (fun f hf => (plain_fields x i f hf).not_mem (by decide)) (List.cons_ne_nil _ _)
  rw [PlotStress.lineSamples, hstrip, hsplit]
  simp [fields, usText, PythonText.float_hundredthsText, usValue]

theorem lineSamples_records (double : ℚ → ℚ) (samples : List UInt64) :
    ((records samples).map Csv.rowText).flatMap (PlotStress.lineSamples double) = samples.map (usValue double) := by
  have hline : ∀ p : UInt64 × Nat, PlotStress.lineSamples double (Csv.rowText (fields p.1 p.2)) = [usValue double p.1] :=
    fun p => lineSamples_rowText double p.1 p.2
  have hfst : samples.map (usValue double) = (samples.zipIdx.map Prod.fst).map (usValue double) := by
    rw [List.zipIdx_map_fst]
  rw [records, List.map_map, List.flatMap_map, hfst, List.map_map, List.map_eq_flatMap]
  simp only [Function.comp_apply, hline]

theorem plotStress_csvText (double : ℚ → ℚ) (samples : List UInt64) :
    PlotStress.loadSamples double [csvText samples] =
      some (OrderStatistic.sort (samples.map (usValue double))) := by
  have hlines : PythonText.fileLines (csvText samples) = (header :: records samples).map Csv.rowText := by
    rw [csvText_eq]
    exact Csv.fileLines_rowText (plain_table samples)
  simp only [PlotStress.loadSamples, List.mapM_cons, List.mapM_nil, hlines, List.map_cons,
    lineSamples_records]
  simp

theorem cast_usHundredths (x : UInt64) :
    (usHundredths x : ℚ) = Binary64.halfEven (100 * Binary64.round (Binary64.round x.toNat / 1000)) := by
  have hround : 0 ≤ Binary64.round x.toNat := Binary64.round_nonneg (Nat.cast_nonneg _)
  have hquot : 0 ≤ Binary64.round (Binary64.round x.toNat / 1000) := Binary64.round_nonneg (by positivity)
  have hnonneg := Binary64.halfEven_nonneg (x := 100 * Binary64.round (Binary64.round x.toNat / 1000)) (by positivity)
  rw [usHundredths, ← Int.cast_natCast, Int.toNat_of_nonneg hnonneg]

/-- Below `2 ^ 53` the double quotient is so close to the exact one, which has
three digits after the point, that it is rounded to a nearest number with two. -/
theorem abs_usHundredths_sub_le {x : UInt64} (hx : x.toNat < 2 ^ 53) :
    |(usHundredths x / 100 : ℚ) - x.toNat / 1000| ≤ 1 / 200 := by
  have hexact : Binary64.round x.toNat = x.toNat := Binary64.round_natCast hx.le
  have hquot : |Binary64.round (x.toNat / 1000) - (x.toNat / 1000 : ℚ)| ≤ 1 / 1024 := by
    have hlt : (x.toNat / 1000 : ℚ) < (2 : ℚ) ^ ((43 : Int) + 1) := by
      have hx' : (x.toNat : ℚ) < 2 ^ 53 := by exact_mod_cast hx
      rw [div_lt_iff₀ (by norm_num)]
      exact hx'.trans (by norm_num)
    calc |Binary64.round (x.toNat / 1000) - (x.toNat / 1000 : ℚ)| ≤ (2 : ℚ) ^ ((43 : Int) - 53) :=
          Binary64.abs_round_sub_le_of_lt (by positivity) hlt
      _ = 1 / 1024 := by norm_num
  have hprint := Binary64.abs_halfEven_sub_le (100 * Binary64.round (x.toNat / 1000))
  have hcast := cast_usHundredths x
  rw [hexact] at hcast
  rw [← hcast, abs_le] at hprint
  rw [abs_le] at hquot
  -- the distance in thousandths is an integer below six
  have hint : |(10 * usHundredths x : Int) - x.toNat| ≤ 5 := by
    have hlow : (-6 : ℚ) < 10 * usHundredths x - x.toNat := by linarith
    have hhigh : (10 * usHundredths x - x.toNat : ℚ) < 6 := by linarith
    have hlow' : (-6 : Int) < 10 * usHundredths x - x.toNat := by exact_mod_cast hlow
    have hhigh' : (10 * usHundredths x - x.toNat : Int) < 6 := by exact_mod_cast hhigh
    rw [abs_le]
    omega
  have hrat : |(10 * usHundredths x : ℚ) - x.toNat| ≤ 5 := by exact_mod_cast hint
  rw [abs_le] at hrat ⊢
  constructor <;> linarith

theorem usHundredths_mono {x y : UInt64} (h : x ≤ y) : usHundredths x ≤ usHundredths y := by
  have hxy : (x.toNat : ℚ) ≤ y.toNat := by exact_mod_cast UInt64.le_iff_toNat_le.mp h
  have hround : Binary64.round x.toNat ≤ Binary64.round y.toNat := Binary64.round_mono (Nat.cast_nonneg _) hxy
  have hnonneg : 0 ≤ Binary64.round x.toNat / 1000 :=
    div_nonneg (Binary64.round_nonneg (Nat.cast_nonneg _)) (by norm_num)
  have hquot := Binary64.round_mono hnonneg (div_le_div_of_nonneg_right hround (by norm_num))
  apply Int.toNat_le_toNat
  exact Binary64.halfEven_mono (mul_le_mul_of_nonneg_left hquot (by norm_num))

theorem usValue_mono : Monotone (usValue Binary64.nearest) := by
  intro x y h
  have hx : 0 ≤ (usHundredths x / 100 : ℚ) := by positivity
  have hxy : (usHundredths x / 100 : ℚ) ≤ usHundredths y / 100 :=
    div_le_div_of_nonneg_right (by exact_mod_cast usHundredths_mono h) (by norm_num)
  rw [usValue, usValue, Binary64.nearest_of_nonneg hx, Binary64.nearest_of_nonneg (hx.trans hxy)]
  exact Binary64.round_mono hx hxy

theorem dumpCsv_run (ops : List Op) : (dumpCsv (run ops)).2 = csvText (OrderStatistic.sort (added ops)) := by
  rw [dumpCsv, ensureSorted_eq (holds_run ops)]
  rfl

theorem toNat_mono : Monotone UInt64.toNat := fun _ _ h => UInt64.le_iff_toNat_le.mp h

theorem float64Ns_csvText {samples : List UInt64} (hsmall : ∀ x ∈ samples, x.toNat < 2 ^ 53) :
    float64Ns Binary64.nearest (csvText samples) = some ((samples.map UInt64.toNat).map (fun n : Nat => (n : ℚ))) := by
  rw [float64Ns, latenciesNs_csvText, Option.map_some, List.map_map, List.map_map, Option.some.injEq]
  apply List.map_congr_left
  intro x hx
  have hexact : Binary64.round x.toNat = x.toNat := Binary64.round_natCast (hsmall x hx).le
  rw [Function.comp_apply, Int.cast_natCast, Binary64.nearest_of_nonneg (Nat.cast_nonneg _), hexact]
  rfl

/-- `us` is the double next to `ns / 1000` rounded to two decimals. -/
def TwoDecimals (ns : Nat) (us : ℚ) : Prop :=
  ∃ n : Nat, |(n / 100 : ℚ) - ns / 1000| ≤ 1 / 200 ∧ us = Binary64.nearest (n / 100)

theorem twoDecimals_usValue {samples : List UInt64} (hsmall : ∀ x ∈ samples, x.toNat < 2 ^ 53) :
    List.Forall₂ TwoDecimals (samples.map UInt64.toNat) (samples.map (usValue Binary64.nearest)) := by
  rw [List.forall₂_map_left_iff, List.forall₂_map_right_iff, List.forall₂_same]
  intro x hx
  exact ⟨usHundredths x, abs_usHundredths_sub_le (hsmall x hx), rfl⟩

/-- The file of a histogram with samples below `2 ^ 53` gives every reader the
sorted samples, in the unit of its column. -/
theorem dumpCsv_read_back (ops : List Op) (hsmall : ∀ x ∈ added ops, x.toNat < 2 ^ 53) :
    let text := (dumpCsv (run ops)).2
    let sorted := OrderStatistic.sort ((added ops).map UInt64.toNat)
    Analyze.loadLatencyCsv text = some (sorted.map (fun n : Nat => (n : Int))) ∧
    Fairness.loadLatencyCsv Binary64.nearest text = some (sorted.map (fun n : Nat => (n : ℚ))) ∧
    FaninReport.loadLatencyCsv Binary64.nearest text = some (sorted.map (fun n : Nat => (n : ℚ))) ∧
    MakePlots.loadLatencyNs Binary64.nearest text = some (sorted.map (fun n : Nat => (n : ℚ))) ∧
    (Csv.column "sample_idx".toList text).bind (fun cells => cells.mapM PythonText.int?) =
      some ((List.range (added ops).length).map (fun n : Nat => (n : Int))) ∧
    ∃ us, Plot.loadLatencyCsv Binary64.nearest text = some us ∧
      PlotStress.loadSamples Binary64.nearest [text] = some us ∧ List.Forall₂ TwoDecimals sorted us := by
  intro text sorted
  have htext : text = csvText (OrderStatistic.sort (added ops)) := dumpCsv_run ops
  have hsorted : sorted = (OrderStatistic.sort (added ops)).map UInt64.toNat :=
    OrderStatistic.sort_map toNat_mono (added ops)
  have hsmall' : ∀ x ∈ OrderStatistic.sort (added ops), x.toNat < 2 ^ 53 :=
    fun x hx => hsmall x ((OrderStatistic.sort_perm (added ops)).mem_iff.mp hx)
  have hfloat64 : float64Ns Binary64.nearest text = some (sorted.map (fun n : Nat => (n : ℚ))) := by
    rw [htext, hsorted, float64Ns_csvText hsmall']
  refine ⟨?_, hfloat64, hfloat64, hfloat64, ?_, _, ?_, ?_, hsorted ▸ twoDecimals_usValue hsmall'⟩
  · rw [htext, hsorted, Analyze.loadLatencyCsv, latenciesNs_csvText, List.map_map]
    rfl
  · rw [htext, column_sampleIdx, Option.bind_some, mapM_int_natText, OrderStatistic.length_sort]
  · rw [htext, plot_csvText]
  · -- the column is ascending already
    rw [htext, plotStress_csvText, OrderStatistic.sort_map usValue_mono,
      OrderStatistic.sort_of_pairwise (OrderStatistic.pairwise_sort _)]

theorem dumpCsv_read_back_three :
    (∀ x ∈ added [.record 1995, .addSamples [7, 1000000]], x.toNat < 2 ^ 53) ∧
      Analyze.loadLatencyCsv (dumpCsv (run [.record 1995, .addSamples [7, 1000000]])).2 = some [7, 1995, 1000000] := by
  have hsmall : ∀ x ∈ added [.record 1995, .addSamples [7, 1000000]], x.toNat < 2 ^ 53 := by
    rw [show added [.record 1995, .addSamples [7, 1000000]] = [1995, 7, 1000000] by decide]
    simp
  exact ⟨hsmall, (dumpCsv_read_back _ hsmall).1.trans (by decide)⟩

end DcBench.LatencyCsv

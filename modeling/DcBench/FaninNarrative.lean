import DcBench.FaninReport
import DcBench.Lib.PythonFormat

namespace DcBench.FaninNarrative

open DcBench.Lib DcBench.Lib.PythonFormat DcBench.FaninReport

/-- What a report can raise: arithmetic on `None`, a division by zero, a `nan`
that is converted to an integer, the first element of an empty list. -/
inductive Error
  | typeError
  | zeroDivisionError
  | valueError
  | indexError
deriving DecidableEq

/-- `table.get(key)`, where a cell without data holds `None`. -/
def cell (table : Table ℚ) (key : String × Int) : Option (Row ℚ) := (PythonData.get table key).join

section AverageTrials

def meanCount (rows : List (Row ℚ)) : Option ℚ :=
  let vals := rows.map (fun row => (row.latency.count : ℚ))
  if vals = [] then none else some (mean vals)

/-- `int(x)`, where a missing number is `nan`. -/
def toInt (x : Option ℚ) : Except Error Int :=
  match x with
  | none => .error .valueError
  | some q => .ok (if 0 ≤ q then ⌊q⌋ else ⌈q⌉)

def orZero (x : Option ℚ) : Option ℚ := if x = some 0 then some 0 else x

def tryAverageRow (rows : List (Row ℚ)) : Except Error (Option (AveragedRow ℚ)) :=
  match rows with
  | [] => .ok none
  | first :: _ => do
    let count ← toInt (orZero (meanCount rows))
    .ok (some
      { latency :=
          { count := count.toNat
            meanUs := meanField rows .mean
            p50Us := meanField rows .p50
            p95Us := meanField rows .p95
            p99Us := meanField rows .p99
            p999Us := meanField rows .p999 }
        fairness := ⟨meanField rows .jain, meanField rows .cv, meanField rows .minMax⟩
        nClients := first.nClients
        nTrials := rows.length })

/-- `average_trials` with the conversion that can raise. -/
def tryAverageTrials (allTrials : List (Table ℚ)) :
    Except Error (List ((String × Int) × Option (AveragedRow ℚ))) :=
  let keys := (allTrials.flatMap PythonData.keys).dedup
  keys.mapM (fun key => do
    let row ← tryAverageRow (allTrials.filterMap (fun table => cell table key))
    .ok (key, row))

/-- The averaged table as the two reports read it. -/
def asTable (averaged : List ((String × Int) × Option (AveragedRow ℚ))) : Table ℚ :=
  averaged.map (fun entry => (entry.1, entry.2.map AveragedRow.toRow))

theorem toInt_meanCount {rows : List (Row ℚ)} (hne : rows ≠ []) :
    toInt (orZero (meanCount rows)) = .ok ((rows.map (fun row => row.latency.count)).sum / rows.length : Nat) := by
  have hzero (x : Option ℚ) : orZero x = x := by
    rw [orZero]
    split_ifs with h
    · exact h.symm
    · rfl
  have hmean : meanCount rows =
      some (((rows.map (fun row => row.latency.count)).sum : Nat) / (rows.length : Nat) : ℚ) := by
    rw [meanCount, if_neg (by rwa [List.map_eq_nil_iff]), mean, List.length_map]
    push_cast [List.map_map]
    rfl
  rw [hzero, hmean, toInt]
  exact congrArg Except.ok ((if_pos (by positivity)).trans (Rat.floor_natCast_div_natCast _ _))

/-- The conversion never meets a `nan`: a cell without rows is left early. -/
theorem tryAverageRow_eq (rows : List (Row ℚ)) : tryAverageRow rows = .ok (averageRow rows) := by
  cases rows with
  | nil => rfl
  | cons first rest =>
    rw [tryAverageRow, toInt_meanCount (List.cons_ne_nil _ _)]
    rfl

theorem tryAverageTrials_eq (allTrials : List (Table ℚ)) :
    tryAverageTrials allTrials = .ok (averageTrials allTrials) := by
  apply PythonData.mapM_ok_eq_map
  intro key _
  rw [tryAverageRow_eq]
  rfl

theorem cell_averageTrials (allTrials : List (Table ℚ)) (key : String × Int) :
    cell (asTable (averageTrials allTrials)) key =
      (averageRow (allTrials.filterMap (fun table => cell table key))).map AveragedRow.toRow := by
  have hjoin (x : Option (Option (AveragedRow ℚ))) :
      (x.map (Option.map AveragedRow.toRow)).join = x.join.map AveragedRow.toRow := by
    cases x with
    | none => rfl
    | some x => rfl
  rw [cell, asTable, PythonData.get_map, hjoin]
  exact congrArg _ (join_get_averageTrials allTrials key)

theorem cell_averageTrials_eq_none_iff (allTrials : List (Table ℚ)) (key : String × Int) :
    cell (asTable (averageTrials allTrials)) key = none ↔ ∀ table ∈ allTrials, cell table key = none := by
  rw [cell_averageTrials, Option.map_eq_none_iff, ← List.filterMap_eq_nil_iff]
  cases allTrials.filterMap (fun table => cell table key) with
  | nil => exact ⟨fun _ => rfl, fun _ => rfl⟩
  | cons first rest => exact ⟨fun h => (nomatch h), fun h => (nomatch h)⟩

end AverageTrials

section BuildMarkdown

def columns (texts : List Text) : Text := "| ".toList ++ join " | ".toList texts ++ " |".toList

def fmtLatencyRow (label : String) (fi : Int) (stats : Option (Row ℚ)) : Text :=
  match stats with
  | none => columns [left 13 label.toList, center 6 (intText fi), center 8 "n/a".toList, center 8 "n/a".toList,
      center 8 "n/a".toList, center 10 "n/a".toList, center 9 "n/a".toList]
  | some stats =>
    let lat := stats.latency
    columns [left 13 label.toList, center 6 (intText fi), right 8 (fixedNan 1 lat.p50Us),
      right 8 (fixedNan 1 lat.p95Us), right 8 (fixedNan 1 lat.p99Us), right 10 (fixedNan 1 lat.p999Us),
      right 9 (fixedNan 1 lat.meanUs)]

def fmtFairnessRow (label : String) (fi : Int) (stats : Option (Row ℚ)) : Text :=
  match stats with
  | none => columns [left 13 label.toList, center 6 (intText fi), center 6 "n/a".toList, center 5 "n/a".toList,
      center 7 "n/a".toList]
  | some stats =>
    let f := stats.fairness
    columns [left 13 label.toList, center 6 (intText fi), right 6 (fixedNan 4 f.jain), right 5 (fixedNan 3 f.cv),
      right 7 (fixedNan 3 f.minMax)]

/-- `x / y` where a missing number is `nan`. Only a zero raises. -/
def divNan (x y : Option ℚ) : Except Error (Option ℚ) :=
  if y = some 0 then .error .zeroDivisionError else .ok (x.bind (fun a => y.map (fun b => a / b)))

def gapRow (table : Table ℚ) (fi : Int) : Except Error Text :=
  match cell table ("Homa", fi), cell table ("TCP single", fi), cell table ("TCP DCTCP-32", fi) with
  | some h, some t, some d => do
    let h99 := h.latency.p99Us
    let t99 := t.latency.p99Us
    let d99 := d.latency.p99Us
    let tcpGap ← divNan t99 h99
    let dctcpGap ← divNan d99 h99
    .ok (columns [center 6 (intText fi), right 8 (fixedNan 1 h99), right 8 (fixedNan 1 t99), right 9 (fixedNan 1 d99),
      right 11 (fixedNan 2 tcpGap), right 12 (fixedNan 2 dctcpGap)])
  | _, _, _ => .ok (columns [center 6 (intText fi), "n/a     ".toList, "n/a     ".toList, "n/a      ".toList,
      "n/a        ".toList, "n/a         ".toList])

def eachCell (fmt : String → Int → Option (Row ℚ) → Text) (table : Table ℚ) (fanIns : List Int) : List Text :=
  configs.flatMap (fun config => fanIns.map (fun fi => fmt config.label fi (cell table (config.label, fi))))

def preamble (title : Text) (fanIns : List Int) : List Text :=
  ["# ".toList ++ title ++ "\n".toList,
   "**Workload:** Bimodal (256B small / 1MB large, bimodal_ratio=0.9), closed-loop  ".toList,
   "**Configs:** Homa (concurrency=8), TCP single-stream (pool=1), TCP DCTCP (pool=32, size-aware)  ".toList,
   "**Fan-in levels:** ".toList ++ join ", ".toList (fanIns.map intText) ++ " senders -> 1 receiver\n".toList]

def buildMarkdown (title : Text) (table : Table ℚ) (fanIns : List Int) : Except Error Text := do
  let gaps ← fanIns.mapM (gapRow table)
  .ok (join "\n".toList (preamble title fanIns ++
    ["---\n".toList,
     "## 1. Latency\n".toList,
     "| Config        | Fan-in | P50 (us) | P95 (us) | P99 (us) | P99.9 (us) | Mean (us) |".toList,
     "|---------------|--------|----------|----------|----------|------------|-----------|".toList] ++
    eachCell fmtLatencyRow table fanIns ++
    [[],
     "## 2. Fairness (Jain's Fairness Index)\n".toList,
     "| Config        | Fan-in |  Jain  |  CV   | Min/Max |".toList,
     "|---------------|--------|--------|-------|---------|".toList] ++
    eachCell fmtFairnessRow table fanIns ++
    [[],
     "## 3. Homa vs TCP/DCTCP P99 gap\n".toList,
     "| Fan-in | Homa P99 | TCP1 P99 | DCTCP P99 | TCP1 / Homa | DCTCP / Homa |".toList,
     "|--------|----------|----------|-----------|-------------|--------------|".toList] ++
    gaps ++ [[]]))

theorem gapRow_returns {table : Table ℚ} {fi : Int}
    (h : ∀ row, cell table ("Homa", fi) = some row → row.latency.p99Us ≠ some 0) :
    ∃ line, gapRow table fi = .ok line := by
  rw [gapRow]
  split
  next row _ _ hhoma _ _ =>
    simp only [divNan, if_neg (h row hhoma)]
    exact ⟨_, rfl⟩
  next => exact ⟨_, rfl⟩

/-- The only thing that the tables can raise is the division in the third one. -/
theorem buildMarkdown_returns {table : Table ℚ}
    (h : ∀ fi row, cell table ("Homa", fi) = some row → row.latency.p99Us ≠ some 0) (title : Text)
    (fanIns : List Int) : ∃ text, buildMarkdown title table fanIns = .ok text := by
  obtain ⟨gaps, hgaps⟩ := PythonData.exists_mapM_ok_iff.mpr (fun fi (_ : fi ∈ fanIns) => gapRow_returns (h fi))
  rw [buildMarkdown, hgaps]
  exact ⟨_, rfl⟩

end BuildMarkdown

section BuildNarrative

/-- `lat(cfg, fi, field)` and `fair(cfg, fi, field)`: `None` without data, and in
place of a `nan`. -/
def number (table : Table ℚ) (cfg : String) (fi : Int) (field : Metric) : Option ℚ :=
  (cell table (cfg, fi)).bind (fun row => row.metric field)

def lat (table : Table ℚ) (cfg : String) (fi : Int) (field : Metric) : Option ℚ := number table cfg fi field

def fair (table : Table ℚ) (cfg : String) (fi : Int) (field : Metric) : Option ℚ := number table cfg fi field

/-- A number as a condition: `None` and zero are false. -/
def Truthy (x : Option ℚ) : Prop := ∃ q, x = some q ∧ q ≠ 0

instance (x : Option ℚ) : Decidable (Truthy x) :=
  match x with
  | none => isFalse (by rintro ⟨q, h, -⟩; cases h)
  | some q => decidable_of_iff (q ≠ 0) ⟨fun h => ⟨q, rfl, h⟩, by rintro ⟨q, ⟨⟩, h⟩; exact h⟩

/-- A number that is computed with or formatted. -/
def need (x : Option ℚ) : Except Error ℚ :=
  match x with
  | none => .error .typeError
  | some q => .ok q

def div (x y : Option ℚ) : Except Error ℚ := do
  let a ← need x
  let b ← need y
  if b = 0 then .error .zeroDivisionError else .ok (a / b)

/-- `x / y if y else float("nan")`. -/
def divOrNan (x y : Option ℚ) : Except Error (Option ℚ) :=
  if Truthy y then (div x y).map some else .ok none

def homaStability (fiMin fiMax : Int) (hMin hMax : Option ℚ) : Except Error (List Text) :=
  if Truthy hMin ∧ Truthy hMax then do
    let low ← need hMin
    let high ← need hMax
    let deltaPct ← div (some (100 * (high - low))) hMin
    .ok [List.flatten
      ["**Homa is essentially flat under incast.** P99 moves only ".toList, fixed 0 low, " us (fi=".toList,
       intText fiMin, ") -> ".toList, fixed 0 high, " us (fi=".toList, intText fiMax, "), a ".toList,
       signedFixed 1 deltaPct, "% change. Receiver-driven grant control absorbs the ".toList,
       "additional senders without queuing-pressure growth.\n".toList]]
  else .ok []

def tcpGrowth (fiMin fiMax : Int) (hMin hMax tMin tMax : Option ℚ) : Except Error (List Text) :=
  if Truthy tMin ∧ Truthy tMax then do
    let ratio ← div tMax tMin
    let gapLo ← divOrNan tMin hMin
    let gapHi ← divOrNan tMax hMax
    let low ← need tMin
    let high ← need tMax
    .ok [List.flatten
      ["**TCP single-stream tail scales with fan-in.** P99 grows ".toList, fixed 0 low, " us (fi=".toList,
       intText fiMin, ") -> ".toList, fixed 0 high, " us (fi=".toList, intText fiMax, "), a ".toList, fixed 1 ratio,
       "x increase. The Homa -> TCP single P99 gap widens from ".toList, fixedNan 1 gapLo, "x at fi=".toList,
       intText fiMin, " to ".toList, fixedNan 1 gapHi, "x at fi=".toList, intText fiMax, ".\n".toList]]
  else .ok []

def dctcpExplosion (fiMin fiMax : Int) (hMin hMax dMin dMax : Option ℚ) : Except Error (List Text) :=
  if Truthy dMin ∧ Truthy dMax ∧ Truthy hMin ∧ Truthy hMax then do
    let ratio ← div dMax dMin
    let gapLo ← div dMin hMin
    let gapHi ← div dMax hMax
    let low ← need dMin
    let high ← need dMax
    .ok [List.flatten
      ["**DCTCP degrades catastrophically.** P99 goes ".toList, fixed 1 (low / 1000), " ms (fi=".toList,
       intText fiMin, ") -> ".toList, fixed 1 (high / 1000), " ms (fi=".toList, intText fiMax, "), a ".toList,
       fixed 1 ratio, "x increase. The DCTCP -> Homa P99 gap widens from ".toList, fixed 0 gapLo, "x at fi=".toList,
       intText fiMin, " to ".toList, fixed 0 gapHi, "x at fi=".toList, intText fiMax, ". ".toList,
       "DCTCP with a 32-connection pool generates excessive concurrent flows; ".toList,
       "under coordinated incast, ECN-marking feedback fails to throttle the ".toList,
       "collective sending rate in time, producing a latency storm rather than ".toList,
       "a controlled response.\n".toList]]
  else .ok []

def fairDesc (table : Table ℚ) (fanIns : List Int) (cfg : String) : Text :=
  join "; ".toList (fanIns.filterMap (fun fi => do
    let j ← fair table cfg fi .jain
    let mm ← fair table cfg fi .minMax
    some (List.flatten ["fi=".toList, intText fi, ": J=".toList, fixed 3 j, ", Min/Max=".toList, fixed 3 mm])))

/-- A paragraph about the fairness of a configuration that has data. -/
def fairParagraph (head desc tail : Text) : List Text := if desc = [] then [] else [head ++ desc ++ tail]

def fairnessCommentary (table : Table ℚ) (fanIns : List Int) : List Text :=
  fairParagraph "**Homa fairness across trials.** ".toList (fairDesc table fanIns "Homa")
    (". Homa Min/Max stays between ~0.4-0.6 across fan-ins; ".toList ++
     "a handful of straggler senders converge more slowly under ".toList ++
     "grant flow than in the single-TCP case, though Jain's index ".toList ++ "remains > 0.95.\n".toList) ++
  fairParagraph "**TCP single fairness.** ".toList (fairDesc table fanIns "TCP single")
    (". Single-stream TCP preserves the highest Min/Max ratio ".toList ++
     "precisely because each sender has exactly one flow competing ".toList ++
     "on equal footing; aggregate throughput is low but bandwidth ".toList ++ "division is almost ideal.\n".toList) ++
  fairParagraph "**DCTCP-32 fairness.** ".toList (fairDesc table fanIns "TCP DCTCP-32")
    (". Pooled DCTCP trades fairness for throughput as fan-in grows: ".toList ++
     "earlier-arriving flows secure higher per-flow rates before ".toList ++
     "ECN throttles the rest, so Min/Max drops noticeably with ".toList ++ "incast pressure.\n".toList)

/-- The guard tests the two numbers at the largest fan-in, the paragraph divides
those at the smallest one too. -/
def implicationForH2 (fiMin fiMax : Int) (hMin hMax dMin dMax : Option ℚ) : Except Error (List Text) :=
  if Truthy hMax ∧ Truthy dMax then do
    let gapHi ← div dMax hMax
    let gapLo ← div dMin hMin
    .ok [List.flatten
      ["Both the latency and fairness results support H2: **DCTCP cannot ".toList,
       "substitute for Homa's receiver-driven grant control, and the gap ".toList,
       "widens with fan-in pressure.** At fi=".toList, intText fiMax, ", DCTCP-32 P99 is ".toList, fixed 0 gapHi,
       "x Homa P99 (vs ~".toList, fixed 0 gapLo, "x at fi=".toList, intText fiMin, "). ".toList,
       "TCP single-stream is a better choice than DCTCP pooling for incast ".toList,
       "scenarios -- it loses on aggregate throughput but retains lower tail ".toList,
       "latency and better fairness.\n".toList]]
  else .ok []

def caveat : Text :=
  "Each Homa client still yields ~90,080 of 100,000 requests (~90.1%), ".toList ++
  "matching the 90% small-message fraction of the bimodal workload. This ".toList ++
  "is the same pattern flagged in the original `fanin_analysis.md`: ".toList ++
  "large-message Homa latency is not captured in `latency.csv`. The Homa ".toList ++
  "latency columns above therefore reflect **256 B messages only**, ".toList ++
  "whereas TCP latency columns include all message sizes. Tail ".toList ++
  "percentiles should be interpreted accordingly when comparing raw ".toList ++ "numbers across protocols.\n".toList

def ends (fanIns : List Int) : Except Error (Int × Int) :=
  match fanIns.head?, fanIns.getLast? with
  | some fiMin, some fiMax => .ok (fiMin, fiMax)
  | _, _ => .error .indexError

def narrativeText (table : Table ℚ) (fanIns : List Int) (nTrials : Nat)
    (stability growth explosion implication : List Text) : Text :=
  join "\n".toList (
    ["---\n".toList, "## 4. Key observations\n".toList] ++ stability ++ growth ++ explosion ++
    ["---\n".toList, "## 5. Fairness commentary\n".toList] ++ fairnessCommentary table fanIns ++
    ["---\n".toList, "## 6. Implication for H2\n".toList] ++ implication ++
    ["---\n".toList, "## 7. Caveat: Homa sample counts\n".toList, caveat,
     "_Averaged from ".toList ++ Decimal.natText nTrials ++ " independent trials._".toList])

def buildNarrative (table : Table ℚ) (fanIns : List Int) (nTrials : Nat) : Except Error Text := do
  let (fiMin, fiMax) ← ends fanIns
  let hMin := lat table "Homa" fiMin .p99
  let hMax := lat table "Homa" fiMax .p99
  let stability ← homaStability fiMin fiMax hMin hMax
  let tMin := lat table "TCP single" fiMin .p99
  let tMax := lat table "TCP single" fiMax .p99
  let growth ← tcpGrowth fiMin fiMax hMin hMax tMin tMax
  let dMin := lat table "TCP DCTCP-32" fiMin .p99
  let dMax := lat table "TCP DCTCP-32" fiMax .p99
  let explosion ← dctcpExplosion fiMin fiMax hMin hMax dMin dMax
  let implication ← implicationForH2 fiMin fiMax hMin hMax dMin dMax
  .ok (narrativeText table fanIns nTrials stability growth explosion implication)

theorem div_eq {a b : ℚ} (hb : b ≠ 0) : div (some a) (some b) = .ok (a / b) := if_neg hb

theorem div_returns_iff {x y : Option ℚ} : (∃ q, div x y = .ok q) ↔ x.isSome ∧ Truthy y := by
  cases x with
  | none => exact ⟨fun ⟨_, h⟩ => (nomatch h), fun h => (nomatch h.1)⟩
  | some a =>
    cases y with
    | none => exact ⟨fun ⟨_, h⟩ => (nomatch h), fun ⟨_, _, h, _⟩ => (nomatch h)⟩
    | some b =>
      constructor
      · rintro ⟨q, hq⟩
        refine ⟨rfl, b, rfl, ?_⟩
        rintro rfl
        cases hq
      · rintro ⟨-, _, ⟨⟩, hb⟩
        exact ⟨_, div_eq hb⟩

theorem homaStability_returns (fiMin fiMax : Int) (hMin hMax : Option ℚ) :
    ∃ lines, homaStability fiMin fiMax hMin hMax = .ok lines := by
  rw [homaStability]
  split_ifs with hguard
  · obtain ⟨⟨low, rfl, hlow⟩, high, rfl, -⟩ := hguard
    simp only [div_eq hlow]
    exact ⟨_, rfl⟩
  · exact ⟨_, rfl⟩

theorem divOrNan_returns (a : ℚ) (y : Option ℚ) : ∃ gap, divOrNan (some a) y = .ok gap := by
  rw [divOrNan]
  split_ifs with hguard
  · obtain ⟨b, rfl, hb⟩ := hguard
    rw [div_eq hb]
    exact ⟨_, rfl⟩
  · exact ⟨_, rfl⟩

theorem tcpGrowth_returns (fiMin fiMax : Int) (hMin hMax tMin tMax : Option ℚ) :
    ∃ lines, tcpGrowth fiMin fiMax hMin hMax tMin tMax = .ok lines := by
  rw [tcpGrowth]
  split_ifs with hguard
  · obtain ⟨⟨low, rfl, hlow⟩, high, rfl, -⟩ := hguard
    obtain ⟨gapLo, hgapLo⟩ := divOrNan_returns low hMin
    obtain ⟨gapHi, hgapHi⟩ := divOrNan_returns high hMax
    simp only [div_eq hlow, hgapLo, hgapHi]
    exact ⟨_, rfl⟩
  · exact ⟨_, rfl⟩

theorem dctcpExplosion_returns (fiMin fiMax : Int) (hMin hMax dMin dMax : Option ℚ) :
    ∃ lines, dctcpExplosion fiMin fiMax hMin hMax dMin dMax = .ok lines := by
  rw [dctcpExplosion]
  split_ifs with hguard
  · obtain ⟨⟨low, rfl, hlow⟩, ⟨high, rfl, -⟩, ⟨b, rfl, hb⟩, c, rfl, hc⟩ := hguard
    simp only [div_eq hlow, div_eq hb, div_eq hc]
    exact ⟨_, rfl⟩
  · exact ⟨_, rfl⟩

theorem buildNarrative_eq_map (table : Table ℚ) {fanIns : List Int} (nTrials : Nat) {fiMin fiMax : Int}
    (hmin : fanIns.head? = some fiMin) (hmax : fanIns.getLast? = some fiMax) :
    ∃ stability growth explosion, buildNarrative table fanIns nTrials =
      (implicationForH2 fiMin fiMax (lat table "Homa" fiMin .p99) (lat table "Homa" fiMax .p99)
        (lat table "TCP DCTCP-32" fiMin .p99) (lat table "TCP DCTCP-32" fiMax .p99)).map
          (narrativeText table fanIns nTrials stability growth explosion) := by
  have hends : ends fanIns = .ok (fiMin, fiMax) := by rw [ends, hmin, hmax]
  obtain ⟨stability, hstability⟩ := homaStability_returns fiMin fiMax (lat table "Homa" fiMin .p99)
    (lat table "Homa" fiMax .p99)
  obtain ⟨growth, hgrowth⟩ := tcpGrowth_returns fiMin fiMax (lat table "Homa" fiMin .p99)
    (lat table "Homa" fiMax .p99) (lat table "TCP single" fiMin .p99) (lat table "TCP single" fiMax .p99)
  obtain ⟨explosion, hexplosion⟩ := dctcpExplosion_returns fiMin fiMax (lat table "Homa" fiMin .p99)
    (lat table "Homa" fiMax .p99) (lat table "TCP DCTCP-32" fiMin .p99) (lat table "TCP DCTCP-32" fiMax .p99)
  refine ⟨stability, growth, explosion, ?_⟩
  rw [buildNarrative, hends]
  change (homaStability _ _ _ _ >>= _) = _
  rw [hstability]
  change (tcpGrowth _ _ _ _ _ _ >>= _) = _
  rw [hgrowth]
  change (dctcpExplosion _ _ _ _ _ _ >>= _) = _
  rw [hexplosion]
  change (implicationForH2 _ _ _ _ _ _ >>= _) = _
  cases implicationForH2 fiMin fiMax (lat table "Homa" fiMin .p99) (lat table "Homa" fiMax .p99)
      (lat table "TCP DCTCP-32" fiMin .p99) (lat table "TCP DCTCP-32" fiMax .p99) with
  | error e => rfl
  | ok lines => rfl

theorem implicationForH2_returns_iff {fiMin fiMax : Int} {hMin hMax dMin dMax : Option ℚ} :
    (∃ lines, implicationForH2 fiMin fiMax hMin hMax dMin dMax = .ok lines) ↔
      (Truthy hMax → Truthy dMax → dMin.isSome ∧ Truthy hMin) := by
  rw [implicationForH2]
  split_ifs with hguard
  · obtain ⟨⟨b, rfl, hb⟩, a, rfl, ha⟩ := hguard
    simp only [div_eq hb]
    change (∃ lines, div dMin hMin >>= _ = .ok lines) ↔ _
    rw [PythonData.exists_bind_ok_iff]
    constructor
    · rintro ⟨q, hq, -⟩ - -
      exact div_returns_iff.mp ⟨q, hq⟩
    · intro h
      obtain ⟨q, hq⟩ := div_returns_iff.mpr (h ⟨b, rfl, hb⟩ ⟨a, rfl, ha⟩)
      exact ⟨q, hq, _, rfl⟩
  · exact ⟨fun _ hh hd => absurd ⟨hh, hd⟩ hguard, fun _ => ⟨_, rfl⟩⟩

theorem implicationForH2_raises {hMin hMax dMin dMax : Option ℚ} (fiMin fiMax : Int) (hh : Truthy hMax)
    (hd : Truthy dMax) (h : dMin = none ∨ hMin = none) :
    implicationForH2 fiMin fiMax hMin hMax dMin dMax = .error .typeError := by
  have hdiv : div dMin hMin = .error .typeError := by
    obtain rfl | rfl := h
    · rfl
    · cases dMin with
      | none => rfl
      | some d => rfl
  rw [implicationForH2, if_pos ⟨hh, hd⟩, hdiv]
  obtain ⟨b, rfl, hb⟩ := hh
  obtain ⟨a, rfl, -⟩ := hd
  rw [div_eq hb]
  rfl

end BuildNarrative

end DcBench.FaninNarrative

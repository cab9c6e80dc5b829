import DcBench.Lib.PythonText
import DcBench.Lib.Transition

namespace DcBench.Lib.Csv

open DcBench.Lib

/-- The states of Python's `csv.reader` in the default dialect. -/
inductive State
  | startRecord
  | startField
  | inField
  | inQuotedField
  | quoteInQuotedField
  | eatCrnl
deriving DecidableEq

structure Parser where
  state : State
  field : List Char
  fields : List (List Char)
deriving DecidableEq

def Parser.init : Parser := ⟨.startRecord, [], []⟩

def Parser.add (p : Parser) (c : Char) (state : State) : Parser := ⟨state, p.field ++ [c], p.fields⟩

def Parser.save (p : Parser) (state : State) : Parser := ⟨state, [], p.fields ++ [p.field]⟩

def isNewline (c : Char) : Bool := c = '\n' || c = '\r'

def startField (p : Parser) (c : Char) : Parser :=
  if isNewline c then p.save .eatCrnl
  else if c = '"' then { p with state := .inQuotedField }
  else if c = ',' then p.save .startField
  else p.add c .inField

/-- One character of a line, or the end of the line. -/
def process (p : Parser) (c : Option Char) : Option Parser :=
  match p.state, c with
  | .startRecord, none => some p
  | .startRecord, some c =>
    if isNewline c then some { p with state := .eatCrnl } else some (startField p c)
  | .startField, none => some (p.save .startRecord)
  | .startField, some c => some (startField p c)
  | .inField, none => some (p.save .startRecord)
  | .inField, some c =>
    if isNewline c then some (p.save .eatCrnl)
    else if c = ',' then some (p.save .startField)
    else some (p.add c .inField)
  | .inQuotedField, none => some p
  | .inQuotedField, some c =>
    if c = '"' then some { p with state := .quoteInQuotedField } else some (p.add c .inQuotedField)
  | .quoteInQuotedField, none => some (p.save .startRecord)
  | .quoteInQuotedField, some c =>
    if c = '"' then some (p.add c .inQuotedField)
    else if c = ',' then some (p.save .startField)
    else if isNewline c then some (p.save .eatCrnl)
    else some (p.add c .inField)
  | .eatCrnl, none => some { p with state := .startRecord }
  -- a character after the line end is an error of the reader
  | .eatCrnl, some c => if isNewline c then some p else none

def readLine (p : Parser) (line : List Char) : Option Parser :=
  Transition.run process p (line.map some ++ [none])

/-- A record goes on over several lines while a quote is open. -/
def rows (p : Parser) : List (List Char) → Option (List (List (List Char)))
  | [] =>
    if p.field ≠ [] ∨ p.state = .inQuotedField then some [(p.save .startRecord).fields] else some []
  | line :: ls => do
    let q ← readLine p line
    if q.state = .startRecord then
      let rest ← rows .init ls
      some (q.fields :: rest)
    else rows q ls

def reader (text : List Char) : Option (List (List (List Char))) :=
  rows .init (PythonText.fileLines text)

/-- The value of one row of a `DictReader` under a name. It is missing when the
name is not in the header (`KeyError`) or the row is too short (`None`). -/
def cell (header row : List (List Char)) (name : List Char) : Option (List Char) :=
  ((header.zip (row.map some ++ List.replicate (header.length - row.length) none)).reverse.lookup name).join

/-- The rows of a `DictReader`, empty ones left out, read under one name. -/
def column (name text : List Char) : Option (List (List Char)) := do
  match ← reader text with
  | [] => some []
  | header :: records => (records.filter (fun row => row ≠ [])).mapM (fun row => cell header row name)

/-- A field that is written without quotes. -/
def isPlain (c : Char) : Bool := !isNewline c && c ≠ '"' && c ≠ ','

structure Plain (field : List Char) : Prop where
  ne_nil : field ≠ []
  isPlain : ∀ c ∈ field, isPlain c

def rowText (fields : List (List Char)) : List Char := [','].intercalate fields ++ ['\n']

theorem process_isPlain {p : Parser} {c : Char} (hc : isPlain c)
    (hp : p.state = .startRecord ∨ p.state = .startField ∨ p.state = .inField) :
    process p (some c) = some (p.add c .inField) := by
  simp only [isPlain, Bool.and_eq_true, Bool.not_eq_true', decide_eq_true_eq] at hc
  obtain ⟨⟨hnewline, hquote⟩, hcomma⟩ := hc
  obtain hp | hp | hp := hp
  · simp [process, hp, startField, hnewline, hquote, hcomma]
  · simp [process, hp, startField, hnewline, hquote, hcomma]
  · simp [process, hp, hnewline, hcomma]

theorem run_isPlain {cs : List Char} (hcs : ∀ c ∈ cs, isPlain c) (field : List Char) (fields : List (List Char))
    (rest : List (Option Char)) :
    Transition.run process ⟨.inField, field, fields⟩ (cs.map some ++ rest) =
      Transition.run process ⟨.inField, field ++ cs, fields⟩ rest := by
  induction cs generalizing field with
  | nil => rw [List.map_nil, List.nil_append, List.append_nil]
  | cons c cs ih =>
    rw [List.map_cons, List.cons_append, Transition.run_cons,
      process_isPlain (hcs c (List.mem_cons_self ..)) (.inr (.inr rfl)), Option.bind_some, Parser.add,
      ih (fun d hd => hcs d (List.mem_cons_of_mem c hd)), List.append_assoc, List.singleton_append]

theorem run_field {state : State} (hstate : state = .startRecord ∨ state = .startField) {f : List Char}
    (hf : Plain f) (fields : List (List Char)) (rest : List (Option Char)) :
    Transition.run process ⟨state, [], fields⟩ (f.map some ++ rest) =
      Transition.run process ⟨.inField, f, fields⟩ rest := by
  cases f with
  | nil => exact absurd rfl hf.ne_nil
  | cons c cs =>
    have hp : process ⟨state, [], fields⟩ (some c) = some ⟨.inField, [c], fields⟩ :=
      process_isPlain (hf.isPlain c (List.mem_cons_self ..)) (by tauto)
    rw [List.map_cons, List.cons_append, Transition.run_cons, hp, Option.bind_some,
      run_isPlain (fun d hd => hf.isPlain d (List.mem_cons_of_mem c hd)), List.singleton_append]

theorem run_fields {f : List Char} {fs : List (List Char)} (hf : ∀ g ∈ f :: fs, Plain g) {state : State}
    (hstate : state = .startRecord ∨ state = .startField) (fields : List (List Char)) :
    Transition.run process ⟨state, [], fields⟩ ((rowText (f :: fs)).map some ++ [none]) =
      some ⟨.startRecord, [], fields ++ f :: fs⟩ := by
  have hhead := hf f (List.mem_cons_self ..)
  induction fs generalizing f state fields with
  | nil =>
    rw [rowText, List.intercalate_singleton, List.map_append, List.append_assoc, run_field hstate hhead]
    rfl
  | cons g fs ih =>
    have htail : ∀ k ∈ g :: fs, Plain k := fun k hk => hf k (List.mem_cons_of_mem f hk)
    have hrow : (rowText (f :: g :: fs)).map some ++ [none] =
        f.map some ++ some ',' :: ((rowText (g :: fs)).map some ++ [none]) := by
      simp [rowText, List.intercalate_cons_cons]
    rw [hrow, run_field hstate hhead, Transition.run_cons]
    exact (ih htail (.inr rfl) (fields ++ [f]) (htail g (List.mem_cons_self ..))).trans (by simp)

theorem readLine_rowText {row : List (List Char)} (hne : row ≠ []) (hrow : ∀ f ∈ row, Plain f) :
    readLine .init (rowText row) = some ⟨.startRecord, [], row⟩ := by
  obtain ⟨f, fs, rfl⟩ := List.exists_cons_of_ne_nil hne
  exact run_fields hrow (.inl rfl) []

theorem rows_rowText {table : List (List (List Char))} (hne : ∀ row ∈ table, row ≠ [])
    (hplain : ∀ row ∈ table, ∀ f ∈ row, Plain f) : rows .init (table.map rowText) = some table := by
  induction table with
  | nil => rfl
  | cons row table ih =>
    have hhead := List.mem_cons_self (a := row) (l := table)
    rw [List.map_cons, rows, readLine_rowText (hne row hhead) (hplain row hhead), Option.bind_eq_bind,
      Option.bind_some, if_pos rfl, ih (fun r hr => hne r (List.mem_cons_of_mem row hr))
        (fun r hr => hplain r (List.mem_cons_of_mem row hr))]
    rfl

theorem forall_mem_intercalate {P : Char → Prop} (hcomma : P ',') {row : List (List Char)}
    (h : ∀ f ∈ row, ∀ c ∈ f, P c) : ∀ c ∈ [','].intercalate row, P c := by
  induction row with
  | nil => exact fun c hc => absurd hc List.not_mem_nil
  | cons f row ih =>
    have hf := h f (List.mem_cons_self ..)
    cases row with
    | nil => rwa [List.intercalate_singleton]
    | cons g row =>
      intro c hc
      rw [List.intercalate_cons_cons, List.append_assoc, List.mem_append, List.mem_append, List.mem_singleton] at hc
      obtain hm | rfl | hm := hc
      · exact hf c hm
      · exact hcomma
      · exact ih (fun k hk => h k (List.mem_cons_of_mem f hk)) c hm

theorem not_mem_intercalate {d : Char} (hd : d ≠ ',') {row : List (List Char)} (h : ∀ f ∈ row, d ∉ f) :
    d ∉ [','].intercalate row := by
  intro hm
  exact forall_mem_intercalate (P := fun c => c ≠ d) hd.symm (fun f hf c hc he => h f hf (he ▸ hc)) d hm rfl

theorem Plain.not_mem {f : List Char} (hf : Plain f) {d : Char} (hd : Csv.isPlain d = false) : d ∉ f := by
  intro hm
  rw [hf.isPlain d hm] at hd
  cases hd

theorem fileLines_rowText {table : List (List (List Char))} (hplain : ∀ row ∈ table, ∀ f ∈ row, Plain f) :
    PythonText.fileLines (table.flatMap rowText) = table.map rowText := by
  have hcr : '\r' ∉ table.flatMap rowText := by
    intro hm
    obtain ⟨row, hrow, hm⟩ := List.mem_flatMap.mp hm
    obtain hm | hm := List.mem_append.mp hm
    · exact not_mem_intercalate (by decide) (fun f hf => (hplain row hrow f hf).not_mem (by decide)) hm
    · exact absurd hm (by decide)
  rw [PythonText.fileLines, PythonText.universalNewlines_of_not_mem hcr]
  apply PythonText.lines_flatMap
  intro row hrow
  exact not_mem_intercalate (by decide) (fun f hf => (hplain row hrow f hf).not_mem (by decide))

theorem reader_rowText {table : List (List (List Char))} (hne : ∀ row ∈ table, row ≠ [])
    (hplain : ∀ row ∈ table, ∀ f ∈ row, Plain f) : reader (table.flatMap rowText) = some table := by
  rw [reader, fileLines_rowText hplain]
  exact rows_rowText hne hplain

theorem column_rowText {header : List (List Char)} {records : List (List (List Char))} {name : List Char}
    {values : List (List Char)} (hne : ∀ row ∈ header :: records, row ≠ [])
    (hplain : ∀ row ∈ header :: records, ∀ f ∈ row, Plain f)
    (hvalues : records.mapM (fun row => cell header row name) = some values) :
    column name ((header :: records).flatMap rowText) = some values := by
  have hkeep : records.filter (fun row => row ≠ []) = records :=
    List.filter_eq_self.mpr (fun row hrow => decide_eq_true (hne row (List.mem_cons_of_mem header hrow)))
  rw [column, reader_rowText hne hplain, Option.bind_eq_bind, Option.bind_some]
  dsimp only
  rw [hkeep, hvalues]

end DcBench.Lib.Csv

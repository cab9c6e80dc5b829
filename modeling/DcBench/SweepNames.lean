import DcBench.Sweep
import Mathlib.Data.List.GetD

namespace DcBench.SweepNames

open DcBench.Lib DcBench.Lib.PythonFormat DcBench.Lib.Product DcBench.Sweep

variable {F N : Type} (texts : Texts F N) {mem : Memory F N} {base : Nat} {keys : List Text}

theorem modify_concat {α : Type} (l : List α) (x : α) (f : α → α) : (l ++ [x]).modify l.length f = l ++ [f x] := by
  rw [List.modify_eq_take_drop]
  simp

structure Valid (mem : Memory F N) (base : Nat) : Prop where
  config : base < mem.configs.length
  params : (mem.config base).params < mem.dicts.length

def assigned (keys : List Text) (combo : List (Scalar F)) : Dict F N :=
  (keys.zip combo).map (fun p => (p.1, .scalar p.2))

def suffix (keys : List Text) (combo : List (Scalar F)) : Text :=
  render (fun key val => '_' :: part texts key val) keys combo

def newConfig (fields : Dict F N) (first dir : Text) (keys : List Text) (combo : List (Scalar F)) (params : Nat) :
    ConfigObject F N :=
  { fields := fields ++ [("name".toList, .scalar (.str (first ++ suffix texts keys combo))),
      ("output_dir".toList, .scalar (.str (pathJoin dir (first ++ suffix texts keys combo))))]
    params := params }

theorem foldl_assign (configs : List (ConfigObject F N)) (dicts : List (Dict F N)) (fields ps : Dict F N)
    (parts : List Text) (ks : List (Text × Scalar F)) :
    ks.foldl (assign texts configs.length) (⟨configs ++ [⟨fields, dicts.length⟩], dicts ++ [ps]⟩, parts) =
      (⟨configs ++ [⟨fields, dicts.length⟩], dicts ++ [ps ++ ks.map (fun p => (p.1, .scalar p.2))]⟩,
        parts ++ ks.map (fun p => part texts p.1 p.2)) := by
  induction ks generalizing ps parts with
  | nil => simp
  | cons p ks ih =>
    have hconfig : (Memory.mk (configs ++ [⟨fields, dicts.length⟩]) (dicts ++ [ps])).config configs.length =
        ⟨fields, dicts.length⟩ := by simp [Memory.config]
    rw [List.foldl_cons, assign, Memory.setParam, hconfig, modify_concat, ih]
    simp

theorem sweepOne_eq {first : Json F N} {dir : Text} (hname : baseName (mem.config base).fields = .ok first)
    (hdir : baseDir (mem.config base).fields = .ok dir) (combo : List (Scalar F)) :
    sweepOne texts mem base keys combo =
      .ok (⟨mem.configs ++ [newConfig texts (mem.config base).fields (first.text texts) dir keys combo mem.dicts.length],
        mem.dicts ++ [mem.params base ++ assigned keys combo]⟩, mem.configs.length) := by
  have hjoin : join "_".toList (first.text texts :: (keys.zip combo).map (fun p => part texts p.1 p.2)) =
      first.text texts ++ suffix texts keys combo := by
    rw [join_cons, suffix, render_eq_flatMap, List.flatMap_map]
    rfl
  simp only [sweepOne, Memory.deepcopy, hname, hdir, foldl_assign]
  simp only [bind, Except.bind, pure, Except.pure, Memory.setField, List.singleton_append, hjoin, modify_concat]
  rw [newConfig, List.append_assoc]
  rfl

/-- Objects that are added do not change the ones that are there. -/
theorem unchanged_of_append (h : Valid mem base) (cs : List (ConfigObject F N)) (ds : List (Dict F N)) :
    (Memory.mk (mem.configs ++ cs) (mem.dicts ++ ds)).config base = mem.config base ∧
      (Memory.mk (mem.configs ++ cs) (mem.dicts ++ ds)).params base = mem.params base := by
  have hconfig : (Memory.mk (mem.configs ++ cs) (mem.dicts ++ ds)).config base = mem.config base :=
    List.getD_append _ _ _ _ h.config
  refine ⟨hconfig, ?_⟩
  rw [Memory.params, hconfig]
  exact List.getD_append _ _ _ _ h.params

theorem Valid.append (h : Valid mem base) (cs : List (ConfigObject F N)) (ds : List (Dict F N)) :
    Valid (Memory.mk (mem.configs ++ cs) (mem.dicts ++ ds)) base where
  config := by
    rw [List.length_append]
    exact Nat.lt_add_right _ h.config
  params := by
    rw [(unchanged_of_append h cs ds).1, List.length_append]
    exact Nat.lt_add_right _ h.params

theorem sweepAll_eq (h : Valid mem base) {first : Json F N} {dir : Text}
    (hname : baseName (mem.config base).fields = .ok first) (hdir : baseDir (mem.config base).fields = .ok dir)
    (combos : List (List (Scalar F))) :
    sweepAll texts base keys mem combos =
      .ok (⟨mem.configs ++ (combos.zipIdx mem.dicts.length).map (fun p =>
          newConfig texts (mem.config base).fields (first.text texts) dir keys p.1 p.2),
        mem.dicts ++ combos.map (fun combo => mem.params base ++ assigned keys combo)⟩,
        List.range' mem.configs.length combos.length) := by
  induction combos generalizing mem with
  | nil => simp [sweepAll]
  | cons combo combos ih =>
    have hvalid := h.append
      [newConfig texts (mem.config base).fields (first.text texts) dir keys combo mem.dicts.length]
      [mem.params base ++ assigned keys combo]
    obtain ⟨hconfig, hparams⟩ := unchanged_of_append h
      [newConfig texts (mem.config base).fields (first.text texts) dir keys combo mem.dicts.length]
      [mem.params base ++ assigned keys combo]
    have hrest := ih hvalid (by rw [hconfig]; exact hname) (by rw [hconfig]; exact hdir)
    rw [hconfig, hparams] at hrest
    rw [sweepAll, sweepOne_eq texts hname hdir]
    simp only [bind, Except.bind, hrest, pure, Except.pure]
    simp [List.zipIdx_cons, List.range'_succ]

theorem bases_of_sweepOne {combo : List (Scalar F)} {ret : Memory F N × Nat}
    (hok : sweepOne texts mem base keys combo = .ok ret) :
    ∃ first dir, baseName (mem.config base).fields = .ok first ∧ baseDir (mem.config base).fields = .ok dir := by
  cases hname : baseName (mem.config base).fields with
  | error e =>
    simp only [sweepOne, Memory.deepcopy, hname] at hok
    cases hok
  | ok first =>
    cases hdir : baseDir (mem.config base).fields with
    | error e =>
      simp only [sweepOne, Memory.deepcopy, hname, hdir] at hok
      cases hok
    | ok dir => exact ⟨first, dir, rfl, rfl⟩

theorem bases_of_sweepAll {combos : List (List (Scalar F))} (hne : combos ≠ []) {ret : Memory F N × List Nat}
    (hok : sweepAll texts base keys mem combos = .ok ret) :
    ∃ first dir, baseName (mem.config base).fields = .ok first ∧ baseDir (mem.config base).fields = .ok dir := by
  cases combos with
  | nil => exact absurd rfl hne
  | cons combo combos =>
    cases hone : sweepOne texts mem base keys combo with
    | error e =>
      rw [sweepAll, hone] at hok
      cases hok
    | ok ret' => exact bases_of_sweepOne texts hone

/-- The memory after the loop, for a base with this name and this directory. -/
def after (mem : Memory F N) (base : Nat) (keys : List Text) (first dir : Text) (combos : List (List (Scalar F))) :
    Memory F N :=
  ⟨mem.configs ++ (combos.zipIdx mem.dicts.length).map (fun p =>
      newConfig texts (mem.config base).fields first dir keys p.1 p.2),
    mem.dicts ++ combos.map (fun combo => mem.params base ++ assigned keys combo)⟩

theorem after_config (base : Nat) (keys : List Text) (first dir : Text) {combos : List (List (Scalar F))}
    {p : List (Scalar F) × Nat} (hp : p ∈ combos.zipIdx mem.configs.length) :
    (∃ a, (after texts mem base keys first dir combos).config p.2 =
      newConfig texts (mem.config base).fields first dir keys p.1 a) ∧
    (after texts mem base keys first dir combos).params p.2 = mem.params base ++ assigned keys p.1 := by
  obtain ⟨i, hi, hcombo⟩ : ∃ i, p.2 = mem.configs.length + i ∧ combos[i]? = some p.1 := by
    obtain ⟨hle, hget⟩ := List.mem_zipIdx_iff_le_and_getElem?_sub.mp hp
    exact ⟨p.2 - mem.configs.length, by omega, hget⟩
  have hconfig : (after texts mem base keys first dir combos).config p.2 =
      newConfig texts (mem.config base).fields first dir keys p.1 (mem.dicts.length + i) := by
    rw [Memory.config, after, hi, List.getD_append_right _ _ _ _ (Nat.le_add_right _ _), Nat.add_sub_cancel_left,
      List.getD_eq_getElem?_getD, List.getElem?_map, List.getElem?_zipIdx, hcombo]
    rfl
  refine ⟨⟨_, hconfig⟩, ?_⟩
  rw [Memory.params, hconfig, newConfig, after, List.getD_append_right _ _ _ _ (Nat.le_add_right _ _),
    Nat.add_sub_cancel_left, List.getD_eq_getElem?_getD, List.getElem?_map, hcombo]
  rfl

def fieldAt (mem : Memory F N) (key : Text) (cfg : Nat) : Option (Json F N) :=
  PythonData.get (mem.config cfg).fields key

/-- The config of a combination: the params of the base overridden by it, and all
the fields of the base but the name and the output directory. -/
structure IsConfigOf (mem mem' : Memory F N) (base : Nat) (keys : List Text) (combo : List (Scalar F)) (cfg : Nat) :
    Prop where
  params : ∀ key, PythonData.get (mem'.params cfg) key =
    ((PythonData.get (keys.zip combo) key).map Json.scalar).or (PythonData.get (mem.params base) key)
  fields : ∀ key, key ≠ "name".toList → key ≠ "output_dir".toList →
    fieldAt mem' key cfg = fieldAt mem key base

/-- One config for each combination, no two with one name or one directory, and
the base is as before. -/
structure Swept (mem : Memory F N) (base : Nat) (sweep : List (Text × List (Scalar F))) (mem' : Memory F N)
    (cfgs : List Nat) : Prop where
  configs : List.Forall₂ (IsConfigOf mem mem' base (sweep.map Prod.fst)) (product (sweep.map Prod.snd)) cfgs
  config : mem'.config base = mem.config base
  params : mem'.params base = mem.params base
  names : (cfgs.map (fieldAt mem' "name".toList)).Nodup
  outputDirs : (cfgs.map (fieldAt mem' "output_dir".toList)).Nodup

theorem get_assigned (keys : List Text) (combo : List (Scalar F)) (key : Text) :
    PythonData.get (assigned (N := N) keys combo) key = (PythonData.get (keys.zip combo) key).map Json.scalar := by
  rw [assigned, PythonData.get_map]

theorem isConfigOf_after {first dir : Text} {combos : List (List (Scalar F))} {p : List (Scalar F) × Nat}
    (hp : p ∈ combos.zipIdx mem.configs.length) :
    IsConfigOf mem (after texts mem base keys first dir combos) base keys p.1 p.2 := by
  obtain ⟨⟨a, hconfig⟩, hparams⟩ := after_config texts base keys first dir hp
  constructor
  · intro key
    rw [hparams, PythonData.get_append, get_assigned]
  · intro key hname hdir
    rw [fieldAt, fieldAt, hconfig, newConfig, PythonData.get_append, PythonData.get_eq_none_iff.mpr, Option.none_or]
    simp only [List.map_cons, List.map_nil, List.mem_cons, List.not_mem_nil, or_false, not_or]
    exact ⟨hname, hdir⟩

theorem configs_after (base : Nat) (keys : List Text) (first dir : Text) (combos : List (List (Scalar F))) :
    List.Forall₂ (IsConfigOf mem (after texts mem base keys first dir combos) base keys) combos
      (List.range' mem.configs.length combos.length) := by
  have hall : List.Forall₂ (IsConfigOf mem (after texts mem base keys first dir combos) base keys)
      ((combos.zipIdx mem.configs.length).map Prod.fst) ((combos.zipIdx mem.configs.length).map Prod.snd) := by
    rw [List.forall₂_map_left_iff, List.forall₂_map_right_iff, List.forall₂_same]
    intro p hp
    exact isConfigOf_after texts hp
  rwa [List.zipIdx_map_fst, List.zipIdx_map_snd] at hall

theorem fieldAt_after (base : Nat) (keys : List Text) (first dir : Text) {combos : List (List (Scalar F))}
    {p : List (Scalar F) × Nat} (hp : p ∈ combos.zipIdx mem.configs.length) :
    fieldAt (after texts mem base keys first dir combos) "name".toList p.2 =
      some (.scalar (.str (first ++ suffix texts keys p.1))) ∧
    fieldAt (after texts mem base keys first dir combos) "output_dir".toList p.2 =
      some (.scalar (.str (pathJoin dir (first ++ suffix texts keys p.1)))) := by
  obtain ⟨⟨a, hconfig⟩, -⟩ := after_config texts base keys first dir hp
  rw [fieldAt, fieldAt, hconfig, newConfig, PythonData.get_append, PythonData.get_append]
  exact ⟨rfl, rfl⟩

theorem map_fieldAt_nodup_iff {combos : List (List (Scalar F))} (hnodup : combos.Nodup) {mem' : Memory F N}
    {key : Text} {m : Nat} {g : List (Scalar F) → Text}
    (hfield : ∀ p ∈ combos.zipIdx m, fieldAt mem' key p.2 = some (.scalar (.str (g p.1)))) :
    ((List.range' m combos.length).map (fieldAt mem' key)).Nodup ↔ ∀ c ∈ combos, ∀ d ∈ combos, g c = g d → c = d := by
  have hmap : (List.range' m combos.length).map (fieldAt mem' key) =
      combos.map (fun c => some (.scalar (.str (g c)))) := by
    rw [← List.zipIdx_map_snd m combos, List.map_map]
    conv_rhs => rw [← List.zipIdx_map_fst m combos, List.map_map]
    exact List.map_congr_left hfield
  rw [hmap, List.nodup_map_iff_inj_on hnodup]
  simp only [Option.some.injEq, Json.scalar.injEq, Scalar.str.injEq]

/-- A suffix is empty or starts with an underscore, never with a slash. -/
theorem head_append_suffix (first : Text) (keys : List Text) (combo : List (Scalar F)) :
    (first ++ suffix texts keys combo).head? = some '/' ↔ first.head? = some '/' := by
  cases first with
  | cons c first => rfl
  | nil =>
    cases keys with
    | nil => simp [suffix, render]
    | cons key keys =>
      cases combo with
      | nil => simp [suffix, render]
      | cons v combo => simp [suffix, render]

theorem pathJoin_inj (dir first : Text) (keys : List Text) (c d : List (Scalar F)) :
    pathJoin dir (first ++ suffix texts keys c) = pathJoin dir (first ++ suffix texts keys d) ↔
      suffix texts keys c = suffix texts keys d := by
  simp only [pathJoin, head_append_suffix]
  split_ifs <;> simp

theorem baseName_ok_iff {fields : Dict F N} :
    (∃ first, baseName fields = .ok first) ↔ (PythonData.get fields "name".toList).isSome := by
  rw [baseName]
  cases PythonData.get fields "name".toList with
  | none =>
    constructor
    · rintro ⟨first, h⟩
      cases h
    · intro h
      cases h
  | some v => exact ⟨fun _ => rfl, fun _ => ⟨v, rfl⟩⟩

theorem baseDir_ok_iff {fields : Dict F N} : (∃ dir, baseDir fields = .ok dir) ↔
    ∀ v, PythonData.get fields "output_dir".toList = some v → ∃ t, v = .scalar (.str t) := by
  rw [baseDir]
  generalize PythonData.get fields "output_dir".toList = dir
  cases dir with
  | none => simp
  | some v =>
    cases v with
    | nested n => simp
    | scalar s => cases s <;> simp

section

variable {sweep : List (Text × List (Scalar F))}

theorem generate_eq (h : Valid mem base) {first : Json F N} {dir : Text}
    (hname : baseName (mem.config base).fields = .ok first) (hdir : baseDir (mem.config base).fields = .ok dir) :
    generateSweepConfigs texts mem base sweep =
      .ok (after texts mem base (sweep.map Prod.fst) (first.text texts) dir (product (sweep.map Prod.snd)),
        List.range' mem.configs.length (product (sweep.map Prod.snd)).length) :=
  sweepAll_eq texts h hname hdir _

theorem swept_after_iff (h : Valid mem base) (hvals : ∀ e ∈ sweep, e.2.Nodup) (first dir : Text) :
    Swept mem base sweep (after texts mem base (sweep.map Prod.fst) first dir (product (sweep.map Prod.snd)))
        (List.range' mem.configs.length (product (sweep.map Prod.snd)).length) ↔
      ∀ c ∈ product (sweep.map Prod.snd), ∀ d ∈ product (sweep.map Prod.snd),
        suffix texts (sweep.map Prod.fst) c = suffix texts (sweep.map Prod.fst) d → c = d := by
  have hnodup : (product (sweep.map Prod.snd)).Nodup := by
    apply nodup_product
    intro vs hvs
    obtain ⟨e, he, rfl⟩ := List.mem_map.mp hvs
    exact hvals e he
  have hnames := map_fieldAt_nodup_iff hnodup (g := fun c => first ++ suffix texts (sweep.map Prod.fst) c)
    (fun p (hp : p ∈ (product (sweep.map Prod.snd)).zipIdx mem.configs.length) =>
      (fieldAt_after texts base (sweep.map Prod.fst) first dir hp).1)
  have hdirs := map_fieldAt_nodup_iff hnodup
    (g := fun c => pathJoin dir (first ++ suffix texts (sweep.map Prod.fst) c))
    (fun p (hp : p ∈ (product (sweep.map Prod.snd)).zipIdx mem.configs.length) =>
      (fieldAt_after texts base (sweep.map Prod.fst) first dir hp).2)
  simp only [List.append_cancel_left_eq] at hnames
  simp only [pathJoin_inj] at hdirs
  constructor
  · intro hswept
    exact hnames.mp hswept.names
  · intro hinj
    obtain ⟨hconfig, hparams⟩ := unchanged_of_append h _ _
    exact ⟨configs_after texts _ _ _ _ _, hconfig, hparams, hnames.mpr hinj, hdirs.mpr hinj⟩

/-- Which sweeps give every combination a config, a name and a directory of its
own. -/
theorem swept_iff_readable (h : Valid mem base) (hvals : ∀ e ∈ sweep, e.2.Nodup) :
    (∃ mem' cfgs, generateSweepConfigs texts mem base sweep = .ok (mem', cfgs) ∧ Swept mem base sweep mem' cfgs) ↔
      (∃ e ∈ sweep, e.2 = []) ∨
      (fieldAt mem "name".toList base).isSome ∧
        (∀ v, fieldAt mem "output_dir".toList base = some v → ∃ t, v = .scalar (.str t)) ∧
        Readable (fun key val => '_' :: part texts key val) sweep := by
  have hempty : (∃ e ∈ sweep, e.2 = []) ↔ product (sweep.map Prod.snd) = [] := by
    rw [product_eq_nil_iff, List.mem_map]
  rw [hempty, fieldAt, fieldAt, ← baseName_ok_iff, ← baseDir_ok_iff]
  by_cases hnil : product (sweep.map Prod.snd) = []
  · refine iff_of_true ⟨mem, [], ?_, ?_⟩ (.inl hnil)
    · rw [generateSweepConfigs, hnil, sweepAll]
    · refine ⟨?_, rfl, rfl, List.nodup_nil, List.nodup_nil⟩
      rw [hnil]
      exact .nil
  · rw [or_iff_right hnil]
    constructor
    · rintro ⟨mem', cfgs, hok, hswept⟩
      obtain ⟨first, dir, hname, hdir⟩ := bases_of_sweepAll texts hnil hok
      rw [generate_eq texts h hname hdir] at hok
      cases hok
      refine ⟨⟨first, hname⟩, ⟨dir, hdir⟩, ?_⟩
      rw [← injOn_render_iff hnil]
      exact (swept_after_iff texts h hvals _ dir).mp hswept
    · rintro ⟨⟨first, hname⟩, ⟨dir, hdir⟩, hread⟩
      refine ⟨_, _, generate_eq texts h hname hdir, ?_⟩
      rw [swept_after_iff texts h hvals]
      exact (injOn_render_iff hnil).mpr hread

theorem not_swept_of_suffix (h : Valid mem base) (hvals : ∀ e ∈ sweep, e.2.Nodup) {first : Json F N} {dir : Text}
    (hname : baseName (mem.config base).fields = .ok first) (hdir : baseDir (mem.config base).fields = .ok dir)
    {c d : List (Scalar F)} (hc : c ∈ product (sweep.map Prod.snd)) (hd : d ∈ product (sweep.map Prod.snd))
    (hne : c ≠ d) (heq : suffix texts (sweep.map Prod.fst) c = suffix texts (sweep.map Prod.fst) d) :
    ¬ ∃ mem' cfgs, generateSweepConfigs texts mem base sweep = .ok (mem', cfgs) ∧ Swept mem base sweep mem' cfgs := by
  rintro ⟨mem', cfgs, hok, hswept⟩
  rw [generate_eq texts h hname hdir] at hok
  cases hok
  exact hne ((swept_after_iff texts h hvals _ dir).mp hswept c hc d hd heq)

end

/-- A base config as the repository has them, in an otherwise empty memory. -/
def baseMemory : Memory Unit Unit :=
  ⟨[⟨[("name".toList, .scalar (.str "homa".toList)), ("output_dir".toList, .scalar (.str "results".toList))], 0⟩],
    [[("threads".toList, .scalar (.int 4))]]⟩

def plainTexts : Texts Unit Unit := ⟨fun _ => "0.5".toList, fun _ => "[]".toList⟩

theorem valid_baseMemory : Valid baseMemory 0 := ⟨by decide, by decide⟩

def threadSweep : List (Text × List (Scalar Unit)) := [("threads".toList, [.int 1, .int 2])]

theorem swept_threadSweep : ∃ mem' cfgs, generateSweepConfigs plainTexts baseMemory 0 threadSweep = .ok (mem', cfgs) ∧
    Swept baseMemory 0 threadSweep mem' cfgs := by
  rw [swept_iff_readable plainTexts valid_baseMemory (by decide)]
  refine .inr ⟨rfl, ?_, ?_, trivial⟩
  · intro v hv
    cases hv
    exact ⟨_, rfl⟩
  · rintro v hv w hw s hs ⟨c, -, d, -, hcd⟩
    have hnil : s = [] := by simpa [render] using hcd.symm
    subst hnil
    simp only [List.mem_cons, List.not_mem_nil, or_false] at hv hw
    obtain rfl | rfl := hv <;> obtain rfl | rfl := hw
    · rfl
    · exact absurd hs (by decide)
    · exact absurd hs (by decide)
    · rfl

/-- A number and the string of its digits, or a value that holds the text of the
next key, make one name for two combinations. -/
theorem combinations_share_a_name :
    (¬ ∃ mem' cfgs, generateSweepConfigs plainTexts baseMemory 0 [("threads".toList, [.int 1, .str "1".toList])] =
        .ok (mem', cfgs) ∧
      Swept baseMemory 0 [("threads".toList, [.int 1, .str "1".toList])] mem' cfgs) ∧
    ¬ ∃ mem' cfgs, generateSweepConfigs plainTexts baseMemory 0
        [("a".toList, [.str "1".toList, .str "1_b=1".toList]), ("b".toList, [.str "1".toList, .str "1_b=1".toList])] =
        .ok (mem', cfgs) ∧
      Swept baseMemory 0
        [("a".toList, [.str "1".toList, .str "1_b=1".toList]), ("b".toList, [.str "1".toList, .str "1_b=1".toList])]
        mem' cfgs := by
  constructor
  · exact not_swept_of_suffix plainTexts (c := [.int 1]) (d := [.str "1".toList]) valid_baseMemory (by decide) rfl rfl
      (by decide) (by decide) (by decide) (by decide)
  · exact not_swept_of_suffix plainTexts (c := [.str "1".toList, .str "1_b=1".toList])
      (d := [.str "1_b=1".toList, .str "1".toList]) valid_baseMemory (by decide) rfl rfl
      (by decide) (by decide) (by decide) (by decide)

end DcBench.SweepNames

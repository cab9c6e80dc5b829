import DcBench.TcpBenchArgs
import DcBench.Lib.PythonText
import DcBench.Lib.Binary64

namespace DcBench.ArgsRoundTrip

open DcBench.Lib DcBench.Lib.CommandLine DcBench.TcpBenchArgs

variable {D : Type}

/-- The options of `tcp_bench`, by the fields of `Args` that they set. -/
inductive Field
  | host
  | port
  | poolSize
  | noNodelay
  | dctcp
  | scheduling
  | dist
  | arrival
  | rps
  | msgSize
  | requests
  | warmup
  | output
  | sendBuf
  | recvBuf
  | bimodalSmall
  | bimodalLarge
  | bimodalRatio
  | paretoShape
  | paretoScale
  | uniformMin
  | uniformMax
  | cpuMonitor
  deriving DecidableEq, Repr

inductive Kind
  | text
  | uint16
  | uint32
  | double
  | flag
  deriving DecidableEq, Repr

def Field.key : Field → List Char
  | host => "host".toList
  | port => "port".toList
  | poolSize => "pool_size".toList
  | noNodelay => "no_nodelay".toList
  | dctcp => "dctcp".toList
  | scheduling => "scheduling".toList
  | dist => "dist".toList
  | arrival => "arrival".toList
  | rps => "rps".toList
  | msgSize => "msg_size".toList
  | requests => "requests".toList
  | warmup => "warmup".toList
  | output => "output".toList
  | sendBuf => "send_buf".toList
  | recvBuf => "recv_buf".toList
  | bimodalSmall => "bimodal_small".toList
  | bimodalLarge => "bimodal_large".toList
  | bimodalRatio => "bimodal_ratio".toList
  | paretoShape => "pareto_shape".toList
  | paretoScale => "pareto_scale".toList
  | uniformMin => "uniform_min".toList
  | uniformMax => "uniform_max".toList
  | cpuMonitor => "cpu_monitor".toList

def Field.kind : Field → Kind
  | host | scheduling | dist | arrival | output => .text
  | port => .uint16
  | poolSize | msgSize | requests | warmup | sendBuf | recvBuf => .uint32
  | bimodalSmall | bimodalLarge | paretoScale | uniformMin | uniformMax => .uint32
  | rps | bimodalRatio | paretoShape => .double
  | noNodelay | dctcp | cpuMonitor => .flag

/-- The value that the arguments hold for an option. The flag `no_nodelay`
stands for a field of the opposite meaning. -/
def get (a : Args D) : Field → PyValue D
  | .host => .str a.host
  | .port => .int a.port.toNat
  | .poolSize => .int a.poolSize.toNat
  | .noNodelay => .bool (!a.nodelay)
  | .dctcp => .bool a.dctcp
  | .scheduling => .str a.scheduling
  | .dist => .str a.dist
  | .arrival => .str a.arrival
  | .rps => .float a.rps
  | .msgSize => .int a.msgSize.toNat
  | .requests => .int a.requests.toNat
  | .warmup => .int a.warmup.toNat
  | .output => .str a.output
  | .sendBuf => .int a.sendBuf.toNat
  | .recvBuf => .int a.recvBuf.toNat
  | .bimodalSmall => .int a.bimodalSmall.toNat
  | .bimodalLarge => .int a.bimodalLarge.toNat
  | .bimodalRatio => .float a.bimodalRatio
  | .paretoShape => .float a.paretoShape
  | .paretoScale => .int a.paretoScale.toNat
  | .uniformMin => .int a.uniformMin.toNat
  | .uniformMax => .int a.uniformMax.toNat
  | .cpuMonitor => .bool a.cpuMonitor

/-- The values in the type of a field. A text is one word of the command, and
the text of a double is read back as that double; a double may be written as an
`int`. -/
def InType (d : Doubles D) : Kind → PyValue D → Prop
  | .text, .str s => s ≠ [] ∧ ' ' ∉ s
  | .uint16, .int n => 0 ≤ n ∧ n < 2 ^ 16
  | .uint32, .int n => 0 ≤ n ∧ n < 2 ^ 32
  | .double, .float x => d.text x ≠ [] ∧ ' ' ∉ d.text x ∧ d.stod (d.text x) = .ok x
  | .double, .int n => d.stod (intText n) = .ok (d.ofRat n)
  | .flag, .bool _ => True
  | _, _ => False

def asField (d : Doubles D) : Kind → PyValue D → PyValue D
  | .double, .int n => .float (d.ofRat n)
  | _, v => v

def named (params : List (Field × PyValue D)) : List (List Char × PyValue D) :=
  params.map (fun p => (p.1.key, p.2))

/-- The command built from `params` is parsed into the default arguments with
exactly the given fields replaced. -/
def Survives (d : Doubles D) (program mode : List Char) (params : List (Field × PyValue D)) : Prop :=
  ∃ a, parseArgs d (program :: mode :: words (buildTcpArgs d (named params))) = .ok a ∧ a.mode = mode ∧
    ∀ f, get a f = ((params.lookup f).map (asField d f.kind)).getD (get (Args.init d) f)

/-- `std::stoi` has an `int` for the value. -/
def FitsInt (k : Kind) (v : PyValue D) : Prop := k = .uint32 → ∀ n, v = .int n → n < 2 ^ 31

/-- The only field that changes is `f`. -/
structure Sets (f : Field) (u : PyValue D) (a a' : Args D) : Prop where
  mode : a'.mode = a.mode
  get : ∀ g, get a' g = if g = f then u else get a g

def Writes (d : Doubles D) (f : Field) (b : Branch D) : Kind → Prop
  | .text => ∃ set, b = text set ∧ ∀ a s, Sets f (.str s) a (set a s)
  | .uint16 => ∃ set, b = uint16 set ∧ ∀ a n, Sets f (.int n.toNat) a (set a n)
  | .uint32 => ∃ set, b = uint32 set ∧ ∀ a n, Sets f (.int n.toNat) a (set a n)
  | .double => ∃ set, b = double d set ∧ ∀ a x, Sets f (.float x) a (set a x)
  | .flag => ∃ set, b = .alone set ∧ ∀ a, Sets f (.bool true) a (set a)

theorem lookup_flag (d : Doubles D) (f : Field) :
    ∃ b, (branches d).lookup (flag f.key) = some b ∧ Writes d f b f.kind := by
  cases f
  all_goals
    refine ⟨_, rfl, _, rfl, ?_⟩
    intros
    constructor
    · rfl
    · intro g
      cases g <;> rfl

theorem flag_word (f : Field) : flag f.key ≠ [] ∧ ' ' ∉ flag f.key := by
  cases f <;> decide

theorem intText_word (n : Int) : intText n ≠ [] ∧ ' ' ∉ intText n := by
  have hblank : ' ' ∉ Decimal.natText n.natAbs := by
    intro h
    exact ne_of_isDigit (Decimal.isDigit_natText h) (d := ' ') rfl rfl
  rw [intText]
  split_ifs
  · exact ⟨List.cons_ne_nil _ _, by simpa using hblank⟩
  · exact ⟨Decimal.natText_ne_nil _, hblank⟩

theorem intText_natCast (n : Nat) : intText n = Decimal.natText n := by
  rw [intText, if_neg (by omega), Int.natAbs_natCast]

theorem toNat_ofInt_uint16 {n : Nat} (h : n < 2 ^ 16) : (UInt16.ofInt n).toNat = n := by
  rw [UInt16.ofInt, UInt16.toNat_ofNat']
  omega

theorem toNat_ofInt_uint32 {n : Nat} (h : n < 2 ^ 32) : (UInt32.ofInt n).toNat = n := by
  rw [UInt32.ofInt, UInt32.toNat_ofNat']
  omega

section

variable {d : Doubles D} {f : Field} {k : Kind} {v : PyValue D} {a : Args D} {b : Branch D}

theorem text_word (h : InType d k v) (hk : k ≠ .flag) : v.text d ≠ [] ∧ ' ' ∉ v.text d := by
  revert h
  fun_cases InType d k v with
  | case1 s => exact id
  | case2 n => exact fun _ => intText_word n
  | case3 n => exact fun _ => intText_word n
  | case4 x => exact fun h => ⟨h.1, h.2.1⟩
  | case5 n => exact fun _ => intText_word n
  | case6 b => exact absurd rfl hk
  | case7 => exact False.elim

theorem entryArgs_of_value (h : InType d k v) (hk : k ≠ .flag) (key : List Char) :
    entryArgs d (key, v) = [flag key, v.text d] := by
  cases v with
  | bool b =>
    cases k with
    | flag => exact absurd rfl hk
    | text | uint16 | uint32 | double => exact h.elim
  | int n | float x | str s => rfl

theorem bool_of_flag (h : InType d .flag v) : ∃ b, v = .bool b := by
  cases v with
  | bool b => exact ⟨b, rfl⟩
  | int n | float x | str s => exact h.elim

theorem stoi_intText (n : Nat) : stoi (intText n) = if n < 2 ^ 31 then .ok (n : Int) else .error .outOfRange := by
  rw [intText_natCast, stoi_natText]

theorem fitsInt_of_ne (hk : k ≠ .uint32) : FitsInt k v := fun he => absurd he hk

theorem fitsInt_uint32 (m : Nat) : FitsInt .uint32 (.int m : PyValue D) ↔ m < 2 ^ 31 := by
  constructor
  · intro h
    have hm := h rfl m rfl
    omega
  · rintro hm - n hn
    cases hn
    omega

/-- A conversion stores the value in its field, unless it has no `int`. -/
def Stores (d : Doubles D) (f : Field) (k : Kind) (v : PyValue D)
    (set : Args D → List Char → Except StdException (Args D)) : Prop :=
  ∀ a, (FitsInt k v ∧ ∃ a', set a (v.text d) = .ok a' ∧ Sets f (asField d k v) a a') ∨
    (¬FitsInt k v ∧ set a (v.text d) = .error .outOfRange)

theorem stores_uint16 {set : Args D → UInt16 → Args D} (hset : ∀ a n, Sets f (.int n.toNat) a (set a n)) {m : Nat}
    (hm : m < 2 ^ 16) :
    Stores d f .uint16 (.int m) (fun a v => (stoi v).map (fun n => set a (UInt16.ofInt n))) := by
  intro a
  refine .inl ⟨fitsInt_of_ne nofun, set a (UInt16.ofInt m), ?_, ?_⟩
  · have hint : m < 2 ^ 31 := by omega
    simp only [PyValue.text, stoi_intText, if_pos hint, Except.map]
  · have hs := hset a (UInt16.ofInt m)
    rw [toNat_ofInt_uint16 hm] at hs
    exact hs

theorem stores_uint32 {set : Args D → UInt32 → Args D} (hset : ∀ a n, Sets f (.int n.toNat) a (set a n)) {m : Nat}
    (hm : m < 2 ^ 32) :
    Stores d f .uint32 (.int m) (fun a v => (stoi v).map (fun n => set a (UInt32.ofInt n))) := by
  intro a
  simp only [fitsInt_uint32, PyValue.text, stoi_intText]
  by_cases hint : m < 2 ^ 31
  · refine .inl ⟨hint, set a (UInt32.ofInt m), ?_, ?_⟩
    · rw [if_pos hint]
      rfl
    · have hs := hset a (UInt32.ofInt m)
      rw [toNat_ofInt_uint32 hm] at hs
      exact hs
  · refine .inr ⟨hint, ?_⟩
    rw [if_neg hint]
    rfl

theorem stores_double {set : Args D → D → Args D} (hset : ∀ a x, Sets f (.float x) a (set a x)) {x : D}
    (hx : d.stod (v.text d) = .ok x) (hv : asField d .double v = .float x) :
    Stores d f .double v (fun a v => (d.stod v).map (set a)) := by
  intro a
  refine .inl ⟨fitsInt_of_ne nofun, set a x, ?_, ?_⟩
  · simp only [hx, Except.map]
  · rw [hv]
    exact hset a x

theorem next_of_writes (hw : Writes d f b k) (h : InType d k v) (hk : k ≠ .flag) :
    ∃ set, b = .next set ∧ Stores d f k v set := by
  revert hw h
  fun_cases InType d k v with
  | case1 s =>
    rintro ⟨set, rfl, hset⟩ -
    exact ⟨_, rfl, fun a => .inl ⟨fitsInt_of_ne nofun, set a s, rfl, hset a s⟩⟩
  | case2 n =>
    rintro ⟨set, rfl, hset⟩ ⟨hn, hlt⟩
    obtain ⟨m, rfl⟩ := Int.eq_ofNat_of_zero_le hn
    exact ⟨_, rfl, stores_uint16 hset (by omega)⟩
  | case3 n =>
    rintro ⟨set, rfl, hset⟩ ⟨hn, hlt⟩
    obtain ⟨m, rfl⟩ := Int.eq_ofNat_of_zero_le hn
    exact ⟨_, rfl, stores_uint32 hset (by omega)⟩
  | case4 x =>
    rintro ⟨set, rfl, hset⟩ ⟨-, -, hx⟩
    exact ⟨_, rfl, stores_double hset hx rfl⟩
  | case5 n =>
    rintro ⟨set, rfl, hset⟩ hx
    exact ⟨_, rfl, stores_double hset hx rfl⟩
  | case6 b => exact absurd rfl hk
  | case7 => exact fun _ => False.elim

theorem get_init_of_flag (hk : f.kind = .flag) : get (Args.init d) f = .bool false := by
  cases f with
  | noNodelay | dctcp | cpuMonitor => rfl
  | _ => cases hk

-- an unset flag adds no word, so its field has to be as it was by default
theorem parseOptions_flag (hk : f.kind = .flag) (hfresh : get a f = get (Args.init d) f) (on : Bool) :
    ∃ a', Sets f (.bool on) a a' ∧
      ∀ rest, parseOptions d a (entryArgs d (f.key, .bool on) ++ rest) = parseOptions d a' rest := by
  cases on with
  | false =>
    refine ⟨a, ⟨rfl, fun g => ?_⟩, fun rest => rfl⟩
    split_ifs with hg
    · rw [hg, hfresh, get_init_of_flag hk]
    · rfl
  | true =>
    obtain ⟨b, hb, hw⟩ := lookup_flag d f
    rw [hk] at hw
    obtain ⟨set, rfl, hset⟩ := hw
    refine ⟨set a, hset a, fun rest => ?_⟩
    rw [entryArgs, if_pos rfl, List.singleton_append, parseOptions, hb]

theorem parseOptions_entry (h : InType d f.kind v) (hfresh : get a f = get (Args.init d) f) :
    (FitsInt f.kind v ∧ ∃ a', Sets f (asField d f.kind v) a a' ∧
        ∀ rest, parseOptions d a (entryArgs d (f.key, v) ++ rest) = parseOptions d a' rest) ∨
      (¬FitsInt f.kind v ∧
        ∀ rest, parseOptions d a (entryArgs d (f.key, v) ++ rest) = .error (.threw .outOfRange)) := by
  by_cases hk : f.kind = .flag
  · rw [hk] at h ⊢
    obtain ⟨on, rfl⟩ := bool_of_flag h
    exact .inl ⟨fitsInt_of_ne nofun, parseOptions_flag hk hfresh on⟩
  · obtain ⟨b, hb, hw⟩ := lookup_flag d f
    obtain ⟨set, rfl, hset⟩ := next_of_writes hw h hk
    rw [entryArgs_of_value h hk]
    obtain ⟨hfit, a', ha', hsets⟩ | ⟨hfit, herr⟩ := hset a
    · refine .inl ⟨hfit, a', hsets, fun rest => ?_⟩
      simp only [List.cons_append, List.nil_append, parseOptions, hb, ha']
    · refine .inr ⟨hfit, fun rest => ?_⟩
      simp only [List.cons_append, List.nil_append, parseOptions, hb, herr]

variable {params : List (Field × PyValue D)}

def entries (d : Doubles D) (params : List (Field × PyValue D)) : List (List Char) :=
  params.flatMap (fun p => entryArgs d (p.1.key, p.2))

theorem words_buildTcpArgs (h : ∀ p ∈ params, InType d p.1.kind p.2) :
    words (buildTcpArgs d (named params)) = entries d params := by
  rw [buildTcpArgs, named, List.flatMap_map, words_intercalate, entries]
  intro w hw
  obtain ⟨p, hp, hw⟩ := List.mem_flatMap.mp hw
  by_cases hk : p.1.kind = .flag
  · have hp := h p hp
    rw [hk] at hp
    obtain ⟨on, hon⟩ := bool_of_flag hp
    rw [hon] at hw
    cases on with
    | false => exact absurd hw List.not_mem_nil
    | true =>
      rw [List.mem_singleton.mp hw]
      exact flag_word p.1
  · rw [entryArgs_of_value (h p hp) hk] at hw
    obtain rfl | hw := List.mem_cons.mp hw
    · exact flag_word p.1
    · rw [List.mem_singleton.mp hw]
      exact text_word (h p hp) hk

def Fresh (d : Doubles D) (a : Args D) (params : List (Field × PyValue D)) : Prop :=
  ∀ p ∈ params, get a p.1 = get (Args.init d) p.1

theorem ne_of_mem_tail (hkeys : (((f, v) :: params).map Prod.fst).Nodup) : ∀ p ∈ params, p.1 ≠ f := by
  rw [List.map_cons, List.nodup_cons] at hkeys
  rintro p hp rfl
  exact hkeys.1 (List.mem_map.mpr ⟨p, hp, rfl⟩)

theorem fresh_tail {a' : Args D} {u : PyValue D} (hkeys : (((f, v) :: params).map Prod.fst).Nodup)
    (hfresh : Fresh d a ((f, v) :: params)) (hsets : Sets f u a a') : Fresh d a' params := by
  intro p hp
  rw [hsets.get, if_neg (ne_of_mem_tail hkeys p hp)]
  exact hfresh p (List.mem_cons_of_mem _ hp)

theorem parseOptions_entries (hkeys : (params.map Prod.fst).Nodup) (hin : ∀ p ∈ params, InType d p.1.kind p.2)
    (hfits : ∀ p ∈ params, FitsInt p.1.kind p.2) (hfresh : Fresh d a params) :
    ∃ a', parseOptions d a (entries d params) = .ok a' ∧ a'.mode = a.mode ∧
      ∀ g, get a' g = ((params.lookup g).map (asField d g.kind)).getD (get a g) := by
  induction params generalizing a with
  | nil => exact ⟨a, rfl, rfl, fun g => rfl⟩
  | cons p params ih =>
    obtain ⟨f, v⟩ := p
    have hv := hfits (f, v) (List.mem_cons_self ..)
    obtain ⟨-, a₁, hsets, hrun⟩ | ⟨hfit, -⟩ :=
      parseOptions_entry (hin (f, v) (List.mem_cons_self ..)) (hfresh (f, v) (List.mem_cons_self ..))
    · obtain ⟨a', ha', hmode, hget⟩ := ih (List.nodup_cons.mp hkeys).2
        (fun p hp => hin p (List.mem_cons_of_mem _ hp)) (fun p hp => hfits p (List.mem_cons_of_mem _ hp))
        (fresh_tail hkeys hfresh hsets)
      refine ⟨a', ?_, hmode.trans hsets.mode, fun g => ?_⟩
      · rw [entries, List.flatMap_cons, hrun]
        exact ha'
      · rw [hget, hsets.get, List.lookup_cons]
        by_cases hg : g = f
        · subst hg
          have hnone : params.lookup g = none := by
            rw [List.lookup_eq_none_iff]
            intro p hp
            rw [bne_iff_ne]
            exact (ne_of_mem_tail hkeys p hp).symm
          rw [hnone, if_pos rfl, beq_self_eq_true]
          rfl
        · rw [if_neg hg, beq_false_of_ne hg]
    · exact absurd hv hfit

theorem parseOptions_throws (hkeys : (params.map Prod.fst).Nodup) (hin : ∀ p ∈ params, InType d p.1.kind p.2)
    (hfresh : Fresh d a params) (hbig : ∃ p ∈ params, ¬FitsInt p.1.kind p.2) :
    parseOptions d a (entries d params) = .error (.threw .outOfRange) := by
  induction params generalizing a with
  | nil =>
    obtain ⟨p, hp, -⟩ := hbig
    exact absurd hp List.not_mem_nil
  | cons p params ih =>
    obtain ⟨f, v⟩ := p
    rw [entries, List.flatMap_cons]
    obtain ⟨hfit, a₁, hsets, hrun⟩ | ⟨-, herr⟩ :=
      parseOptions_entry (hin (f, v) (List.mem_cons_self ..)) (hfresh (f, v) (List.mem_cons_self ..))
    · rw [hrun]
      apply ih (List.nodup_cons.mp hkeys).2 (fun p hp => hin p (List.mem_cons_of_mem _ hp))
        (fresh_tail hkeys hfresh hsets)
      obtain ⟨q, hq, hbig⟩ := hbig
      obtain rfl | hq := List.mem_cons.mp hq
      · exact absurd hfit hbig
      · exact ⟨q, hq, hbig⟩
    · exact herr _

end

/-- Every value in the type of its field reaches the binary but the ones from
`2 ^ 31` on, for which `std::stoi` throws although the fields are unsigned. -/
theorem survives_iff_fits (d : Doubles D) (program mode : List Char) (params : List (Field × PyValue D))
    (hkeys : (params.map Prod.fst).Nodup) (hin : ∀ p ∈ params, InType d p.1.kind p.2) :
    Survives d program mode params ↔ ∀ p ∈ params, FitsInt p.1.kind p.2 := by
  have hfresh : Fresh d { Args.init d with mode := mode } params := by
    intro p _
    cases p.1 <;> rfl
  rw [Survives, words_buildTcpArgs hin]
  constructor
  · rintro ⟨a, hparse, -⟩
    by_contra hbig
    push Not at hbig
    rw [parseArgs, parseOptions_throws hkeys hin hfresh hbig] at hparse
    cases hparse
  · intro hfits
    obtain ⟨a, hparse, hmode, hget⟩ := parseOptions_entries hkeys hin hfits hfresh
    refine ⟨a, hparse, hmode, fun f => ?_⟩
    rw [hget]
    cases f <;> rfl

/-- Doubles next to a whole number of tenths, which Python writes with one digit
after the point. -/
def tenths : Doubles ℚ where
  text x :=
    let n := (Binary64.halfEven (10 * x)).natAbs
    Decimal.natText (n / 10) ++ ['.', Nat.digitChar (n % 10)]
  ofRat := Binary64.nearest
  stod v :=
    match PythonText.float? v with
    | some x => .ok (Binary64.nearest x)
    | none => .error .invalidArgument

def pooledParams : List (Field × PyValue ℚ) :=
  [(.port, .int 9000), (.poolSize, .int 32), (.dctcp, .bool false), (.scheduling, .str "size_aware".toList),
   (.bimodalLarge, .int 4194304), (.bimodalRatio, .float (Binary64.nearest (1 / 10))), (.cpuMonitor, .bool true)]

theorem survives_pooled_params : Survives tenths "tcp_bench".toList "client".toList pooledParams := by
  have hratio : InType tenths .double (.float (Binary64.nearest (1 / 10))) := by
    have htext : tenths.text (Binary64.nearest (1 / 10)) = "0.1".toList := by decide +kernel
    rw [InType, htext]
    refine ⟨by decide, by decide, ?_⟩
    decide +kernel
  apply (survives_iff_fits tenths _ _ pooledParams (by decide) ?_).mpr
  · simp [pooledParams, FitsInt, Field.kind]
  · simp only [pooledParams, List.forall_mem_cons]
    exact ⟨⟨by decide, by decide⟩, ⟨by decide, by decide⟩, trivial, ⟨by decide, by decide⟩, ⟨by decide, by decide⟩,
      hratio, trivial, fun _ h => absurd h List.not_mem_nil⟩

theorem big_buffer_lost :
    InType tenths Field.sendBuf.kind (.int 2147483648) ∧
      ¬Survives tenths "tcp_bench".toList "client".toList [(.sendBuf, .int 2147483648)] := by
  have hparse : parseArgs tenths ("tcp_bench".toList :: "client".toList ::
      words (buildTcpArgs tenths (named [(.sendBuf, .int 2147483648)]))) = .error (.threw .outOfRange) := by
    decide +kernel
  constructor
  · exact ⟨by decide, by decide⟩
  · rintro ⟨a, ha, -⟩
    rw [hparse] at ha
    cases ha

end DcBench.ArgsRoundTrip

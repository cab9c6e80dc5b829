import DcBench.HomaBenchArgs
import DcBench.ArgsRoundTrip

namespace DcBench.BenchArgsAgreement

open DcBench.Lib DcBench.Lib.CommandLine DcBench.WorkloadGenerator
open DcBench.TcpBenchArgs (Doubles Stop missingValue unknownOption)
open DcBench.HomaBenchArgs (ArrivalModel tcpWorkload)

variable {D : Type}

def tcpOnly : List (List Char) :=
  ["--pool-size".toList, "--no-nodelay".toList, "--dctcp".toList, "--scheduling".toList, "--send-buf".toList,
    "--recv-buf".toList]

def homaOnly : List (List Char) := ["--threads".toList, "--concurrency".toList]

/-- The arguments of the two programs after the same words. Those that only one
program has are as by default, and the ports have different defaults. -/
structure Shared (a : TcpBenchArgs.Args D) (b : HomaBenchArgs.Args D) : Prop where
  mode : a.mode = b.mode
  host : a.host = b.host
  port : a.port = b.port ∨ a.port = 9000 ∧ b.port = 9500
  dist : a.dist = b.dist
  arrival : a.arrival = b.arrival
  rps : a.rps = b.rps
  msgSize : a.msgSize = b.msgSize
  requests : a.requests = b.requests
  warmup : a.warmup = b.warmup
  output : a.output = b.output
  bimodalSmall : a.bimodalSmall = b.bimodalSmall
  bimodalLarge : a.bimodalLarge = b.bimodalLarge
  bimodalRatio : a.bimodalRatio = b.bimodalRatio
  paretoShape : a.paretoShape = b.paretoShape
  paretoScale : a.paretoScale = b.paretoScale
  uniformMin : a.uniformMin = b.uniformMin
  uniformMax : a.uniformMax = b.uniformMax
  cpuMonitor : a.cpuMonitor = b.cpuMonitor
  poolSize : a.poolSize = 1
  threads : b.threads = 4
  concurrency : b.concurrency = 8

inductive Related : TcpBenchArgs.Branch D → HomaBenchArgs.Branch D → Prop
  | alone {f : TcpBenchArgs.Args D → TcpBenchArgs.Args D} {g : HomaBenchArgs.Args D → HomaBenchArgs.Args D}
      (h : ∀ a b, Shared a b → Shared (f a) (g b)) : Related (.alone f) (.alone g)
  | next {f : TcpBenchArgs.Args D → List Char → Except StdException (TcpBenchArgs.Args D)}
      {g : HomaBenchArgs.Args D → List Char → Except StdException (HomaBenchArgs.Args D)}
      (h : ∀ a b v, Shared a b → (∃ a' b', f a v = .ok a' ∧ g b v = .ok b' ∧ Shared a' b') ∨
        ∃ e, f a v = .error e ∧ g b v = .error e) : Related (.next f) (.next g)

variable {d : Doubles D}

theorem related_convert {α : Type} (convert : List Char → Except StdException α)
    {f : TcpBenchArgs.Args D → α → TcpBenchArgs.Args D} {g : HomaBenchArgs.Args D → α → HomaBenchArgs.Args D}
    (h : ∀ a b x, Shared a b → Shared (f a x) (g b x)) :
    Related (.next fun a v => (convert v).map (f a)) (.next fun b v => (convert v).map (g b)) := by
  refine .next fun a b v hab => ?_
  cases hv : convert v with
  | ok x => exact .inl ⟨f a x, g b x, rfl, rfl, h a b x hab⟩
  | error e => exact .inr ⟨e, rfl, rfl⟩

theorem related_text {f : TcpBenchArgs.Args D → List Char → TcpBenchArgs.Args D}
    {g : HomaBenchArgs.Args D → List Char → HomaBenchArgs.Args D}
    (h : ∀ a b v, Shared a b → Shared (f a v) (g b v)) : Related (TcpBenchArgs.text f) (HomaBenchArgs.text g) :=
  .next fun a b v hab => .inl ⟨f a v, g b v, rfl, rfl, h a b v hab⟩

theorem related_uint16 {f : TcpBenchArgs.Args D → UInt16 → TcpBenchArgs.Args D}
    {g : HomaBenchArgs.Args D → UInt16 → HomaBenchArgs.Args D}
    (h : ∀ a b n, Shared a b → Shared (f a n) (g b n)) :
    Related (TcpBenchArgs.uint16 f) (HomaBenchArgs.uint16 g) :=
  related_convert stoi (fun a b n hab => h a b (UInt16.ofInt n) hab)

theorem related_uint32 {f : TcpBenchArgs.Args D → UInt32 → TcpBenchArgs.Args D}
    {g : HomaBenchArgs.Args D → UInt32 → HomaBenchArgs.Args D}
    (h : ∀ a b n, Shared a b → Shared (f a n) (g b n)) :
    Related (TcpBenchArgs.uint32 f) (HomaBenchArgs.uint32 g) :=
  related_convert stoi (fun a b n hab => h a b (UInt32.ofInt n) hab)

theorem related_double {f : TcpBenchArgs.Args D → D → TcpBenchArgs.Args D}
    {g : HomaBenchArgs.Args D → D → HomaBenchArgs.Args D} (h : ∀ a b x, Shared a b → Shared (f a x) (g b x)) :
    Related (TcpBenchArgs.double d f) (HomaBenchArgs.double d g) :=
  related_convert d.stod h

inductive Aligned :
    List (List Char × TcpBenchArgs.Branch D) → List (List Char × HomaBenchArgs.Branch D) → Prop
  | nil : Aligned [] []
  | both {key : List Char} {x : TcpBenchArgs.Branch D} {y : HomaBenchArgs.Branch D}
      {xs : List (List Char × TcpBenchArgs.Branch D)} {ys : List (List Char × HomaBenchArgs.Branch D)}
      (h : Related x y) (hrest : Aligned xs ys) : Aligned ((key, x) :: xs) ((key, y) :: ys)
  | tcp {key : List Char} {x : TcpBenchArgs.Branch D} {xs : List (List Char × TcpBenchArgs.Branch D)}
      {ys : List (List Char × HomaBenchArgs.Branch D)} (hkey : key ∈ tcpOnly) (hnone : ys.lookup key = none)
      (hrest : Aligned xs ys) : Aligned ((key, x) :: xs) ys
  | homa {key : List Char} {y : HomaBenchArgs.Branch D} {xs : List (List Char × TcpBenchArgs.Branch D)}
      {ys : List (List Char × HomaBenchArgs.Branch D)} (hkey : key ∈ homaOnly) (hnone : xs.lookup key = none)
      (hrest : Aligned xs ys) : Aligned xs ((key, y) :: ys)

inductive Looked (key : List Char) :
    Option (TcpBenchArgs.Branch D) → Option (HomaBenchArgs.Branch D) → Prop
  | neither : Looked key none none
  | both {x : TcpBenchArgs.Branch D} {y : HomaBenchArgs.Branch D} (h : Related x y) : Looked key (some x) (some y)
  | tcp {x : TcpBenchArgs.Branch D} (hkey : key ∈ tcpOnly) : Looked key (some x) none
  | homa {y : HomaBenchArgs.Branch D} (hkey : key ∈ homaOnly) : Looked key none (some y)

theorem lookup_of_ne {β : Type} {key key' : List Char} (h : key ≠ key') (x : β) (xs : List (List Char × β)) :
    ((key', x) :: xs).lookup key = xs.lookup key := by
  rw [List.lookup_cons, beq_false_of_ne h]

theorem looked_of_aligned {xs : List (List Char × TcpBenchArgs.Branch D)} {ys : List (List Char × HomaBenchArgs.Branch D)}
    (h : Aligned xs ys) (key : List Char) : Looked key (xs.lookup key) (ys.lookup key) := by
  induction h with
  | nil => exact .neither
  | @both key' x y xs ys h hrest ih =>
    by_cases hkey : key = key'
    · subst hkey
      rw [List.lookup_cons_self, List.lookup_cons_self]
      exact .both h
    · rw [lookup_of_ne hkey, lookup_of_ne hkey]
      exact ih
  | @tcp key' x xs ys hmem hnone hrest ih =>
    by_cases hkey : key = key'
    · subst hkey
      rw [List.lookup_cons_self, hnone]
      exact .tcp hmem
    · rw [lookup_of_ne hkey]
      exact ih
  | @homa key' y xs ys hmem hnone hrest ih =>
    by_cases hkey : key = key'
    · subst hkey
      rw [List.lookup_cons_self, hnone]
      exact .homa hmem
    · rw [lookup_of_ne hkey]
      exact ih

theorem aligned_branches (d : Doubles D) : Aligned (TcpBenchArgs.branches d) (HomaBenchArgs.branches d) := by
  refine .both (related_text fun _ _ _ h => { h with host := rfl }) ?_
  refine .both (related_uint16 fun _ _ _ h => { h with port := .inl rfl }) ?_
  refine .tcp (by decide) rfl ?_
  refine .tcp (by decide) rfl ?_
  refine .tcp (by decide) rfl ?_
  refine .tcp (by decide) rfl ?_
  refine .homa (by decide) rfl ?_
  refine .homa (by decide) rfl ?_
  refine .both (related_text fun _ _ _ h => { h with dist := rfl }) ?_
  refine .both (related_text fun _ _ _ h => { h with arrival := rfl }) ?_
  refine .both (related_double fun _ _ _ h => { h with rps := rfl }) ?_
  refine .both (related_uint32 fun _ _ _ h => { h with msgSize := rfl }) ?_
  refine .both (related_uint32 fun _ _ _ h => { h with requests := rfl }) ?_
  refine .both (related_uint32 fun _ _ _ h => { h with warmup := rfl }) ?_
  refine .both (related_text fun _ _ _ h => { h with output := rfl }) ?_
  refine .tcp (by decide) rfl ?_
  refine .tcp (by decide) rfl ?_
  refine .both (related_uint32 fun _ _ _ h => { h with bimodalSmall := rfl }) ?_
  refine .both (related_uint32 fun _ _ _ h => { h with bimodalLarge := rfl }) ?_
  refine .both (related_double fun _ _ _ h => { h with bimodalRatio := rfl }) ?_
  refine .both (related_double fun _ _ _ h => { h with paretoShape := rfl }) ?_
  refine .both (related_uint32 fun _ _ _ h => { h with paretoScale := rfl }) ?_
  refine .both (related_uint32 fun _ _ _ h => { h with uniformMin := rfl }) ?_
  refine .both (related_uint32 fun _ _ _ h => { h with uniformMax := rfl }) ?_
  refine .both (.alone fun _ _ h => { h with cpuMonitor := rfl }) ?_
  exact .nil

/-- The results of the two parsers on the same words, if there are any. -/
inductive Agree :
    Except Stop (TcpBenchArgs.Args D) → Except Stop (HomaBenchArgs.Args D) → Prop
  | returns {a : TcpBenchArgs.Args D} {b : HomaBenchArgs.Args D} (h : Shared a b) : Agree (.ok a) (.ok b)
  | stops (stop : Stop) : Agree (.error stop) (.error stop)
  | tcpRefuses {key : List Char} (hkey : key ∈ homaOnly) (r : Except Stop (HomaBenchArgs.Args D)) :
      Agree (.error (unknownOption key)) r
  | homaRefuses {key : List Char} (hkey : key ∈ tcpOnly) (r : Except Stop (TcpBenchArgs.Args D)) :
      Agree r (.error (unknownOption key))

theorem agree_parseOptions {a : TcpBenchArgs.Args D} {b : HomaBenchArgs.Args D} (h : Shared a b)
    (words : List (List Char)) :
    Agree (TcpBenchArgs.parseOptions d a words) (HomaBenchArgs.parseOptions d b words) := by
  -- The recursion drops one word or two.
  induction hn : words.length using Nat.strong_induction_on generalizing a b words with
  | h n ih =>
    subst hn
    cases words with
    | nil => exact .returns h
    | cons key rest =>
      rw [TcpBenchArgs.parseOptions, HomaBenchArgs.parseOptions]
      have hlooked := looked_of_aligned (aligned_branches d) key
      generalize (TcpBenchArgs.branches d).lookup key = x at hlooked
      generalize (HomaBenchArgs.branches d).lookup key = y at hlooked
      cases hlooked with
      | neither => exact .stops _
      | tcp hkey => exact .homaRefuses hkey _
      | homa hkey => exact .tcpRefuses hkey _
      | both hrel =>
        cases hrel with
        | alone hset => exact ih rest.length (by simp) (hset a b h) rest rfl
        | next hset =>
          cases rest with
          | nil => exact .stops _
          | cons v rest =>
            obtain ⟨a', b', ha', hb', h'⟩ | ⟨e, ha', hb'⟩ := hset a b v h
            · simp only [ha', hb']
              exact ih rest.length (by rw [List.length_cons, List.length_cons]; omega) h' rest rfl
            · simp only [ha', hb']
              exact .stops _

theorem shared_init (d : Doubles D) (mode : List Char) :
    Shared { TcpBenchArgs.Args.init d with mode := mode } { HomaBenchArgs.Args.init d with mode := mode } where
  mode := rfl
  host := rfl
  port := .inr ⟨rfl, rfl⟩
  dist := rfl
  arrival := rfl
  rps := rfl
  msgSize := rfl
  requests := rfl
  warmup := rfl
  output := rfl
  bimodalSmall := rfl
  bimodalLarge := rfl
  bimodalRatio := rfl
  paretoShape := rfl
  paretoScale := rfl
  uniformMin := rfl
  uniformMax := rfl
  cpuMonitor := rfl
  poolSize := rfl
  threads := rfl
  concurrency := rfl

theorem agree_parseArgs (d : Doubles D) (tcp homa : List Char) {words : List (List Char)} (h : words ≠ []) :
    Agree (TcpBenchArgs.parseArgs d (tcp :: words)) (HomaBenchArgs.parseArgs d (homa :: words)) := by
  cases words with
  | nil => exact absurd rfl h
  | cons mode words => exact agree_parseOptions (shared_init d mode) words

theorem workload_of_shared {a : TcpBenchArgs.Args D} {b : HomaBenchArgs.Args D} (h : Shared a b) :
    b.workload = (tcpWorkload a).map (fun p => ({ p.1 with closedLoopConcurrency := 8 }, p.2)) := by
  rw [HomaBenchArgs.Args.workload, tcpWorkload, ← h.dist, ← h.arrival, ← h.msgSize, ← h.rps, ← h.requests, ← h.warmup,
    ← h.bimodalSmall, ← h.bimodalLarge, ← h.bimodalRatio, ← h.paretoShape, ← h.paretoScale, ← h.uniformMin,
    ← h.uniformMax, h.concurrency]
  cases HomaBenchArgs.parseDistribution a.dist with
  | error e => rfl
  | ok distribution =>
    cases HomaBenchArgs.parseArrivalModel a.arrival with
    | error e => rfl
    | ok arrival => rfl

theorem concurrency_of_tcpWorkload {a : TcpBenchArgs.Args D} {p : GeneratorConfig D × ArrivalModel}
    (h : tcpWorkload a = .ok p) : p.1.closedLoopConcurrency = a.poolSize := by
  rw [tcpWorkload] at h
  cases hdist : HomaBenchArgs.parseDistribution a.dist with
  | error e =>
    rw [hdist] at h
    cases h
  | ok distribution =>
    cases harrival : HomaBenchArgs.parseArrivalModel a.arrival with
    | error e =>
      rw [hdist, harrival] at h
      cases h
    | ok arrival =>
      rw [hdist, harrival] at h
      cases h
      rfl

/-- `tcp_bench` and `homa_bench` on the same words. Without any, each prints its own
usage. Else both stop with the same message, or one refuses an option that only
the other has, or both return; then they run the same workload, but closed loops
of 1 and of 8 workers. -/
theorem same_command_line (d : Doubles D) (tcp homa : List Char) (words : List (List Char)) :
    (words = [] → TcpBenchArgs.parseArgs d (tcp :: words) = .error (.exit TcpBenchArgs.printUsage) ∧
      HomaBenchArgs.parseArgs d (homa :: words) = .error (.exit HomaBenchArgs.printUsage)) ∧
    (words ≠ [] → Agree (TcpBenchArgs.parseArgs d (tcp :: words)) (HomaBenchArgs.parseArgs d (homa :: words))) ∧
    ∀ a b, TcpBenchArgs.parseArgs d (tcp :: words) = .ok a → HomaBenchArgs.parseArgs d (homa :: words) = .ok b →
      b.workload = (tcpWorkload a).map (fun p => ({ p.1 with closedLoopConcurrency := 8 }, p.2)) ∧
      ∀ p, tcpWorkload a = .ok p → p.1.closedLoopConcurrency = 1 := by
  refine ⟨?_, fun h => agree_parseArgs d tcp homa h, ?_⟩
  · rintro rfl
    exact ⟨rfl, rfl⟩
  intro a b ha hb
  have hwords : words ≠ [] := by
    rintro rfl
    cases ha
  have hagree := agree_parseArgs d tcp homa hwords
  rw [ha, hb] at hagree
  cases hagree with
  | returns h =>
    refine ⟨workload_of_shared h, fun p hp => ?_⟩
    rw [concurrency_of_tcpWorkload hp, h.poolSize]

def smallMessages : List (List Char) := ["client".toList, "--msg-size".toList, "64".toList, "--cpu-monitor".toList]

theorem smallMessages_same_workload : ∃ a b,
    TcpBenchArgs.parseArgs ArgsRoundTrip.tenths ("tcp_bench".toList :: smallMessages) = .ok a ∧
    HomaBenchArgs.parseArgs ArgsRoundTrip.tenths ("homa_bench".toList :: smallMessages) = .ok b ∧ a.msgSize = 64 ∧
    b.workload = (tcpWorkload a).map (fun p => ({ p.1 with closedLoopConcurrency := 8 }, p.2)) := by
  have ha : TcpBenchArgs.parseArgs ArgsRoundTrip.tenths ("tcp_bench".toList :: smallMessages) =
      .ok { TcpBenchArgs.Args.init ArgsRoundTrip.tenths with
        mode := "client".toList, msgSize := 64, cpuMonitor := true } := rfl
  have hb : HomaBenchArgs.parseArgs ArgsRoundTrip.tenths ("homa_bench".toList :: smallMessages) =
      .ok { HomaBenchArgs.Args.init ArgsRoundTrip.tenths with
        mode := "client".toList, msgSize := 64, cpuMonitor := true } := rfl
  have hsame := (same_command_line ArgsRoundTrip.tenths "tcp_bench".toList "homa_bench".toList smallMessages).2.2
  exact ⟨_, _, ha, hb, rfl, (hsame _ _ ha hb).1⟩

end DcBench.BenchArgsAgreement

import ShaderChain.Proofs.Damage
import ShaderChain.Proofs.Numerals
import ShaderChain.Service.Config

/-!
# What an environment configures

Six variables hold numbers, and they are read in a fixed order (`Config.numberVariables`). A number
that is said is a numeral that fits; a variable is silent if it is not set or is no text; and any
other text in it is a fault (`Config.Offends`). The first fault is the outcome
(`Config.load_eq_error_iff`), and without one there is a configuration.

`Config.settled` is this configuration, with one variable for each field. So what a field is can be
said from its own variable alone (`Config.Follows`), and where two environments differ in one variable
only, so do their configurations (`Config.AgreesBut`).
-/

namespace ShaderChain

/-- A variable has a text if its bytes are those of this text. -/
theorem Environment.text?_eq_some_iff {env : Environment} {name s : String} :
    env.text? name = some s ↔ env.lookup name = some (Utf8.ofText s) := by
  unfold text?
  rw [Option.bind_eq_some_iff]
  constructor
  · rintro ⟨value, hlookup, hvalue⟩
    rw [hlookup, Utf8.text?_eq_some_iff.mp hvalue]
  · intro hlookup
    exact ⟨_, hlookup, Utf8.text?_eq_some_iff.mpr rfl⟩

namespace Config

variable {env env' : Environment} {name : String} {bits n : Nat} {fault : Fault}
  {config config' : Config}

/-! ## What a variable says -/

/-- The text of the variable is a numeral that fits. -/
def Says (env : Environment) (name : String) (bits n : Nat) : Prop :=
  ∃ s, env.lookup name = some (Utf8.ofText s) ∧ Decimal.Numeral s n ∧ n < Nat.pow 2 bits

/-- A variable that counts as not set. -/
inductive Silent (env : Environment) (name : String) : Prop
  | unset (h : env.lookup name = none)
  | noText {value : Bytes} (h : env.lookup name = some value)
    (hvalue : ∀ s, Utf8.ofText s ≠ value)

/-- The text of the variable is no number, for this reason. -/
structure Offends (env : Environment) (name : String) (bits : Nat) (fault : Fault) : Prop where
  name_eq : fault.name = name
  lookup : env.lookup name = some (Utf8.ofText fault.value)
  faulty : Decimal.Faulty bits fault.value fault.cause

/-- A variable counts as not set exactly if it has no text. -/
theorem silent_iff : Silent env name ↔ env.text? name = none := by
  rw [Option.eq_none_iff_forall_ne_some]
  constructor
  · intro h s hs
    rw [Environment.text?_eq_some_iff] at hs
    cases h with
    | unset h => cases h.symm.trans hs
    | noText h hvalue => exact hvalue s (Option.some.inj (hs.symm.trans h))
  · intro h
    cases hlookup : env.lookup name with
    | none => exact .unset hlookup
    | some value =>
      refine .noText hlookup fun s hs => h s ?_
      rw [Environment.text?_eq_some_iff, hs, hlookup]

theorem number?_of_silent (h : Silent env name) : number? env name bits = .ok none := by
  unfold number?
  rw [silent_iff.mp h]

/-- A number that is said is read. -/
theorem number?_of_said (h : Says env name bits n) : number? env name bits = .ok (some n) := by
  obtain ⟨s, hlookup, hs⟩ := h
  unfold number?
  rw [Environment.text?_eq_some_iff.mpr hlookup]
  dsimp only
  rw [Decimal.parse_eq_ok_iff.mpr hs]

/-- A text that is no number is the fault that is told. -/
theorem number?_of_offends (h : Offends env name bits fault) :
    number? env name bits = .error fault := by
  obtain ⟨rfl, hlookup, hfaulty⟩ := h
  unfold number?
  rw [Environment.text?_eq_some_iff.mpr hlookup]
  dsimp only
  rw [Decimal.parse_eq_error_iff.mpr hfaulty]

/-- A variable is silent, says a number, or has a fault. -/
theorem number?_cases (env : Environment) (name : String) (bits : Nat) :
    Silent env name ∨ (∃ n, Says env name bits n) ∨ ∃ fault, Offends env name bits fault := by
  cases htext : env.text? name with
  | none => exact .inl (silent_iff.mpr htext)
  | some s =>
    have hlookup := Environment.text?_eq_some_iff.mp htext
    cases hparse : Decimal.parse bits s with
    | ok n => exact .inr (.inl ⟨n, s, hlookup, Decimal.parse_eq_ok_iff.mp hparse⟩)
    | error cause =>
      exact .inr (.inr ⟨⟨name, s, cause⟩, rfl, hlookup, Decimal.parse_eq_error_iff.mp hparse⟩)

/-- A fault that is told is one of the text of this variable. -/
theorem number?_eq_error_iff : number? env name bits = .error fault ↔
    Offends env name bits fault := by
  refine ⟨fun h => ?_, number?_of_offends⟩
  rcases number?_cases env name bits with hsilent | ⟨n, hsaid⟩ | ⟨fault', hoffends⟩
  · cases (number?_of_silent hsilent).symm.trans h
  · cases (number?_of_said hsaid).symm.trans h
  · obtain rfl := Except.error.inj ((number?_of_offends hoffends).symm.trans h)
    exact hoffends

/-- What can be read of a variable: nothing, or a numeral that fits. -/
def Readable (env : Environment) (name : String) (bits : Nat) : Prop :=
  Silent env name ∨ ∃ n, Says env name bits n

/-! ## The whole configuration -/

/-- The variables with numbers and the bits of these, in the order of reading. -/
def numberVariables : List (String × Nat) :=
  [("PORT", 16), ("SHUTDOWN_TIMEOUT", 64), ("MAX_BODY_BYTES", 64),
    ("MAX_CONCURRENT_COMPILES", 64), ("QUEUE_TIMEOUT_SECS", 64), ("TOOL_TIMEOUT_SECS", 64)]

/-- The fault of a variable. -/
def fault? (env : Environment) (v : String × Nat) : Option Fault :=
  match number? env v.1 v.2 with
  | .error fault => some fault
  | .ok _ => none

/-- The number that a variable says, if it does. -/
def said? (env : Environment) (name : String) (bits : Nat) : Option Nat :=
  match number? env name bits with
  | .error _ => none
  | .ok said => said

/-- The configuration of an environment whose numbers can be read. -/
def settled (env : Environment) : Config where
  host := (env.text? "HOST").getD "0.0.0.0"
  port := (said? env "PORT" 16).elim 9000 id
  shutdownSeconds := (said? env "SHUTDOWN_TIMEOUT" 64).elim 5 id
  maxBody := (said? env "MAX_BODY_BYTES" 64).elim (50 * 1024 * 1024) id
  concurrency :=
    (said? env "MAX_CONCURRENT_COMPILES" 64).elim .processors fun n => .atMost (max n 1)
  queueSeconds := (said? env "QUEUE_TIMEOUT_SECS" 64).elim 30 id
  toolSeconds := (said? env "TOOL_TIMEOUT_SECS" 64).elim none some
  scratchDir := env.lookup "SCRATCH_DIR"
  staticDir := env.lookup "STATIC_DIR"
  overrides := { paths := toolPaths env, suiteDir := env.lookup "SPIRV_TOOLS_DIR" }

theorem elim_id_eq_getD {α : Type} (x : Option α) (default : α) :
    x.elim default id = x.getD default := by
  cases x <;> rfl

/-- To load is to look for the first fault, and without one to settle every field. -/
theorem load_eq (env : Environment) :
    load env = match numberVariables.findSome? (fault? env) with
      | some fault => .error fault
      | none => .ok (settled env) := by
  unfold load settled said? numberVariables toolTimeoutVariable
  simp only [List.findSome?_cons, List.findSome?_nil, fault?, elim_id_eq_getD]
  -- the variables are read one after another, in the order of the list, up to the first fault
  cases number? env "PORT" 16 with
  | error fault => rfl
  | ok port =>
  cases number? env "SHUTDOWN_TIMEOUT" 64 with
  | error fault => rfl
  | ok shutdown =>
  cases number? env "MAX_BODY_BYTES" 64 with
  | error fault => rfl
  | ok body =>
  cases number? env "MAX_CONCURRENT_COMPILES" 64 with
  | error fault => rfl
  | ok concurrent =>
  cases number? env "QUEUE_TIMEOUT_SECS" 64 with
  | error fault => rfl
  | ok queue =>
  cases number? env "TOOL_TIMEOUT_SECS" 64 with
  | error fault => rfl
  | ok tool =>
    cases concurrent <;> cases tool <;> rfl

/-! ## Faults -/

/-- The fault that is found of a variable is the fault of its text. -/
theorem fault?_eq_some_iff {v : String × Nat} :
    fault? env v = some fault ↔ Offends env v.1 v.2 fault := by
  rw [← number?_eq_error_iff, fault?]
  cases number? env v.1 v.2 with
  | error found => rw [Option.some_inj, Except.error.injEq]
  | ok said => exact ⟨nofun, nofun⟩

/-- No fault is found of a variable that can be read. -/
theorem fault?_eq_none_iff {v : String × Nat} :
    fault? env v = none ↔ Readable env v.1 v.2 := by
  unfold fault?
  rcases number?_cases env v.1 v.2 with hsilent | ⟨n, hsaid⟩ | ⟨fault, hoffends⟩
  · rw [number?_of_silent hsilent]
    exact ⟨fun _ => .inl hsilent, fun _ => rfl⟩
  · rw [number?_of_said hsaid]
    exact ⟨fun _ => .inr ⟨n, hsaid⟩, fun _ => rfl⟩
  · have herror := number?_of_offends hoffends
    rw [herror]
    refine ⟨nofun, ?_⟩
    rintro (hsilent | ⟨n, hsaid⟩)
    · cases (number?_of_silent hsilent).symm.trans herror
    · cases (number?_of_said hsaid).symm.trans herror

/-- The first fault in the order of reading. -/
def FirstFault (env : Environment) (fault : Fault) : Prop :=
  ∃ before bits after, numberVariables = before ++ (fault.name, bits) :: after ∧
    (∀ v ∈ before, Readable env v.1 v.2) ∧ Offends env fault.name bits fault

/-- An environment is refused exactly for its first fault. -/
theorem load_eq_error_iff : load env = .error fault ↔ FirstFault env fault := by
  have hload : load env = .error fault ↔ numberVariables.findSome? (fault? env) = some fault := by
    rw [load_eq]
    cases numberVariables.findSome? (fault? env) with
    | some found => rw [Option.some_inj, Except.error.injEq]
    | none => exact ⟨nofun, nofun⟩
  rw [hload, List.findSome?_eq_some_iff]
  constructor
  · rintro ⟨before, ⟨name, bits⟩, after, hsplit, hfault, hbefore⟩
    have hoffends := fault?_eq_some_iff.mp hfault
    obtain rfl : fault.name = name := hoffends.name_eq
    exact ⟨before, bits, after, hsplit, fun v hv => fault?_eq_none_iff.mp (hbefore v hv), hoffends⟩
  · rintro ⟨before, bits, after, hsplit, hbefore, hoffends⟩
    exact ⟨before, (fault.name, bits), after, hsplit, fault?_eq_some_iff.mpr hoffends,
      fun v hv => fault?_eq_none_iff.mpr (hbefore v hv)⟩

/-- It is accepted exactly if all of its numbers can be read, and then there is one configuration.
-/
theorem load_eq_ok_iff : load env = .ok config ↔
    (∀ v ∈ numberVariables, Readable env v.1 v.2) ∧ config = settled env := by
  have hnone : numberVariables.findSome? (fault? env) = none ↔
      ∀ v ∈ numberVariables, Readable env v.1 v.2 := by
    simp only [List.findSome?_eq_none_iff, fault?_eq_none_iff]
  rw [← hnone, load_eq]
  cases numberVariables.findSome? (fault? env) with
  | some found => exact ⟨nofun, nofun⟩
  | none => rw [Except.ok.injEq, eq_comm, and_iff_right rfl]

/-! ## Fields and their variables -/

/-- What a field holds whose variable can be read: what is made of the number there, or without one
the default. -/
inductive Taken {α : Type} (env : Environment) (name : String) (bits : Nat) (make : Nat → α)
    (default : α) : α → Prop
  | said {n : Nat} (h : Says env name bits n) : Taken env name bits make default (make n)
  | unsaid (h : Silent env name) : Taken env name bits make default default

/-- What a variable that can be read says is what its field takes. -/
theorem Taken.of_readable {α : Type} (make : Nat → α) (default : α)
    (h : Readable env name bits) :
    Taken env name bits make default ((said? env name bits).elim default make) := by
  unfold said?
  rcases h with hsilent | ⟨n, hsaid⟩
  · rw [number?_of_silent hsilent]
    exact .unsaid hsilent
  · rw [number?_of_said hsaid]
    exact .said hsaid

/-- Every field of a configuration is what its own variable makes it. -/
structure Follows (env : Environment) (config : Config) : Prop where
  host : (∃ s, env.lookup "HOST" = some (Utf8.ofText s) ∧ config.host = s) ∨
    Silent env "HOST" ∧ config.host = "0.0.0.0"
  port : Taken env "PORT" 16 id 9000 config.port
  shutdownSeconds : Taken env "SHUTDOWN_TIMEOUT" 64 id 5 config.shutdownSeconds
  maxBody : Taken env "MAX_BODY_BYTES" 64 id 52428800 config.maxBody
  /-- At least one job may run. -/
  concurrency : Taken env "MAX_CONCURRENT_COMPILES" 64 (fun n => .atMost (max n 1)) .processors
    config.concurrency
  queueSeconds : Taken env "QUEUE_TIMEOUT_SECS" 64 id 30 config.queueSeconds
  toolSeconds : Taken env "TOOL_TIMEOUT_SECS" 64 some none config.toolSeconds
  scratchDir : config.scratchDir = env.lookup "SCRATCH_DIR"
  staticDir : config.staticDir = env.lookup "STATIC_DIR"
  suiteDir : config.overrides.suiteDir = env.lookup "SPIRV_TOOLS_DIR"
  /-- A tool has a path of its own exactly if its variable is set, and then these bytes. -/
  path_of_tool : ∀ spec ∈ catalog,
    config.overrides.paths.lookup spec.name = env.lookup spec.envVar
  /-- Nothing else has a path. -/
  tool_of_path : ∀ entry ∈ config.overrides.paths, ∃ spec ∈ catalog, spec.name = entry.1

/-- Two configurations are equal in every field but that of the variable `name`. -/
structure AgreesBut (name : String) (config config' : Config) : Prop where
  host : name ≠ "HOST" → config.host = config'.host
  port : name ≠ "PORT" → config.port = config'.port
  shutdownSeconds : name ≠ "SHUTDOWN_TIMEOUT" → config.shutdownSeconds = config'.shutdownSeconds
  maxBody : name ≠ "MAX_BODY_BYTES" → config.maxBody = config'.maxBody
  concurrency : name ≠ "MAX_CONCURRENT_COMPILES" → config.concurrency = config'.concurrency
  queueSeconds : name ≠ "QUEUE_TIMEOUT_SECS" → config.queueSeconds = config'.queueSeconds
  toolSeconds : name ≠ "TOOL_TIMEOUT_SECS" → config.toolSeconds = config'.toolSeconds
  scratchDir : name ≠ "SCRATCH_DIR" → config.scratchDir = config'.scratchDir
  staticDir : name ≠ "STATIC_DIR" → config.staticDir = config'.staticDir
  suiteDir : name ≠ "SPIRV_TOOLS_DIR" → config.overrides.suiteDir = config'.overrides.suiteDir
  path_of_tool : ∀ spec ∈ catalog, name ≠ spec.envVar →
    config.overrides.paths.lookup spec.name = config'.overrides.paths.lookup spec.name

/-- The variables of the fields. -/
def fieldVariables : List String :=
  ["HOST", "SCRATCH_DIR", "STATIC_DIR", "SPIRV_TOOLS_DIR"] ++ numberVariables.map Prod.fst ++
    catalog.map Spec.envVar

/-- No two fields share a variable. -/
theorem fieldVariables_nodup : fieldVariables.Nodup := by decide

/-- The paths that the variables of some specs give. -/
def pathsOf (env : Environment) (specs : List Spec) : List (String × Path) :=
  specs.filterMap fun spec => (env.lookup spec.envVar).map fun path => (spec.name, path)

theorem mem_pathsOf {specs : List Spec} {entry : String × Path} (h : entry ∈ pathsOf env specs) :
    ∃ spec ∈ specs, spec.name = entry.1 := by
  obtain ⟨spec, hspec, hentry⟩ := List.mem_filterMap.mp h
  obtain ⟨path, -, rfl⟩ := Option.map_eq_some_iff.mp hentry
  exact ⟨spec, hspec, rfl⟩

/-- Among specs with names of their own, each has the path of its variable. -/
theorem lookup_pathsOf {specs : List Spec} (hnodup : (specs.map Spec.name).Nodup) {spec : Spec}
    (hspec : spec ∈ specs) : (pathsOf env specs).lookup spec.name = env.lookup spec.envVar := by
  induction specs with
  | nil => cases hspec
  | cons first rest ih =>
    rw [List.map_cons, List.nodup_cons] at hnodup
    obtain ⟨hfirst, hrest⟩ := hnodup
    rcases List.mem_cons.mp hspec with rfl | hmem
    · cases hpath : env.lookup spec.envVar with
      | some path => simp [pathsOf, hpath]
      | none =>
        -- no other spec has the name
        rw [List.lookup_eq_none_iff]
        intro entry hentry
        rw [pathsOf, List.filterMap_cons, hpath] at hentry
        obtain ⟨other, hother, hname⟩ := mem_pathsOf hentry
        rw [bne_iff_ne]
        intro hsame
        exact hfirst (List.mem_map.mpr ⟨other, hother, hname.trans hsame.symm⟩)
    · have hne : spec.name ≠ first.name := by
        intro hsame
        exact hfirst (List.mem_map.mpr ⟨spec, hmem, hsame⟩)
      -- what the first spec gives has another name, so the path is among the others
      have hskip : (pathsOf env (first :: rest)).lookup spec.name =
          (pathsOf env rest).lookup spec.name := by
        unfold pathsOf
        rw [List.filterMap_cons]
        cases env.lookup first.envVar with
        | none => rfl
        | some path =>
          show List.lookup spec.name ((first.name, path) :: _) = _
          rw [List.lookup_cons, beq_eq_false_iff_ne.mpr hne]
      rw [hskip]
      exact ih hrest hmem

/-- In a settled configuration every field follows its own variable. -/
theorem follows_settled (h : ∀ v ∈ numberVariables, Readable env v.1 v.2) :
    Follows env (settled env) := by
  -- each number variable is in the list, so that its number can be read
  have readable {name : String} {bits : Nat} (hmem : (name, bits) ∈ numberVariables) :
      Readable env name bits := h _ hmem
  constructor
  case host =>
    cases htext : env.text? "HOST" with
    | none =>
      refine .inr ⟨silent_iff.mpr htext, ?_⟩
      rw [settled, htext]
      rfl
    | some s =>
      refine .inl ⟨s, Environment.text?_eq_some_iff.mp htext, ?_⟩
      rw [settled, htext]
      rfl
  case port => exact .of_readable id 9000 (readable (by decide))
  case shutdownSeconds => exact .of_readable id 5 (readable (by decide))
  case maxBody => exact .of_readable id 52428800 (readable (by decide))
  case concurrency =>
    exact .of_readable (fun n => Concurrency.atMost (max n 1)) .processors (readable (by decide))
  case queueSeconds => exact .of_readable id 30 (readable (by decide))
  case toolSeconds => exact .of_readable some none (readable (by decide))
  case scratchDir => rfl
  case staticDir => rfl
  case suiteDir => rfl
  case path_of_tool => exact fun spec => lookup_pathsOf catalog_names_nodup
  case tool_of_path => exact fun entry => mem_pathsOf

theorem said?_congr (h : env.lookup name = env'.lookup name) (bits : Nat) :
    said? env name bits = said? env' name bits := by
  simp only [said?, number?, Environment.text?, h]

/-- Where two environments differ in one variable only, so do their configurations. -/
theorem settled_agreesBut (h : ∀ other, other ≠ name → env.lookup other = env'.lookup other) :
    AgreesBut name (settled env) (settled env') := by
  -- a field is read from its own variable only, which is the same in both
  have said {other : String} (hother : name ≠ other) := said?_congr (h other hother.symm)
  constructor
  case host =>
    intro hname
    simp only [settled, Environment.text?, h _ hname.symm]
  case path_of_tool =>
    intro spec hspec hname
    have hpath := h _ hname.symm
    rwa [← lookup_pathsOf catalog_names_nodup hspec, ← lookup_pathsOf catalog_names_nodup hspec]
      at hpath
  case scratchDir => exact fun hname => h _ hname.symm
  case staticDir => exact fun hname => h _ hname.symm
  case suiteDir => exact fun hname => h _ hname.symm
  all_goals
    intro hname
    simp only [settled, said hname]

/-- **Every setting has a variable of its own.** An environment gives a configuration exactly if each of
its numbers can be read, and the first one that cannot be read is the fault otherwise. In a
configuration each field is what its own variable makes it, or the default. If two environments
differ in one variable only, so do their configurations. -/
theorem load_reads (env : Environment) :
    ((∃ config, load env = .ok config) ↔ ∀ v ∈ numberVariables, Readable env v.1 v.2) ∧
      (∀ fault, load env = .error fault ↔ FirstFault env fault) ∧
      (∀ config, load env = .ok config → Follows env config) ∧
      (∀ env' name config config',
        (∀ other, other ≠ name → env.lookup other = env'.lookup other) →
          load env = .ok config → load env' = .ok config' → AgreesBut name config config') ∧
      fieldVariables.Nodup := by
  refine ⟨⟨?_, fun hread => ⟨_, load_eq_ok_iff.mpr ⟨hread, rfl⟩⟩⟩, fun fault => load_eq_error_iff,
    ?_, ?_, fieldVariables_nodup⟩
  · rintro ⟨config, hload⟩
    exact (load_eq_ok_iff.mp hload).1
  · intro config hload
    obtain ⟨hread, rfl⟩ := load_eq_ok_iff.mp hload
    exact follows_settled hread
  · intro env' name config config' hsame hload hload'
    obtain ⟨-, rfl⟩ := load_eq_ok_iff.mp hload
    obtain ⟨-, rfl⟩ := load_eq_ok_iff.mp hload'
    exact settled_agreesBut hsame

/-- A numeral with a sign, a number that is raised to one, a number that is no text and a path that is
no text, and the same with the greatest port and with one more. -/
theorem load_of_port :
    let others : Environment := [("MAX_CONCURRENT_COMPILES", Utf8.ofText "0"),
      ("QUEUE_TIMEOUT_SECS", [0xff]), ("DXC_PATH", [0x2f, 0xff])]
    let config : Config :=
      { port := 8080
        concurrency := .atMost 1
        overrides := { paths := [("dxc", [0x2f, 0xff])] } }
    load (("PORT", Utf8.ofText "+8080") :: others) = .ok config ∧
      Follows (("PORT", Utf8.ofText "+8080") :: others) config ∧
      AgreesBut "PORT" config { config with port := 65535 } ∧
      FirstFault (("PORT", Utf8.ofText "65536") :: others) ⟨"PORT", "65536", .tooLarge⟩ := by
  intro others config
  have hload : load (("PORT", Utf8.ofText "+8080") :: others) = .ok config := rfl
  have hmost : load (("PORT", Utf8.ofText "65535") :: others) = .ok { config with port := 65535 } :=
    rfl
  have hlarge : load (("PORT", Utf8.ofText "65536") :: others) =
      .error ⟨"PORT", "65536", .tooLarge⟩ := rfl
  obtain ⟨-, -, hfollows, hagrees, -⟩ := load_reads (("PORT", Utf8.ofText "+8080") :: others)
  obtain ⟨-, hfault, -⟩ := load_reads (("PORT", Utf8.ofText "65536") :: others)
  refine ⟨hload, hfollows config hload, ?_, (hfault _).mp hlarge⟩
  refine hagrees _ "PORT" config _ (fun other hother => ?_) hload hmost
  simp only [List.lookup_cons, beq_eq_false_iff_ne.mpr hother]

end Config

end ShaderChain

import ShaderChain.Proofs.Searching

/-!
# Where the tools are found

Discovery goes through the catalogue once. A tool with a configured location (`ConfiguredAt`) must
be a file there; the first one that is not (`Astray`) ends the discovery, and is what its fault
names. A tool without one is looked for on the search path, where nothing can go wrong.
`Places` lists the ways in which a tool gets its executable, or stays without.

`Discovery.discover_all_or_nothing` puts this together, from one lemma on a single tool
(`resolve_error_iff`, `places_of_resolve`) and an induction on the catalogue (`discover_cons`).
-/

namespace ShaderChain

variable {fs : FileSystem} {p : Path}

/-! ## Files and programs -/

namespace FileSystem

/-- There is a regular file at the end of a path, through whatever links. -/
def FileAt (fs : FileSystem) (p : Path) : Prop :=
  ∃ mode contents runs, fs.stat p = .ok (.file mode contents runs)

/-- There is a regular file with an execute bit at the end of a path, through whatever links. -/
def ProgramAt (fs : FileSystem) (p : Path) : Prop :=
  ∃ mode contents runs, fs.stat p = .ok (.file mode contents runs) ∧ mode &&& 0o111 ≠ 0

theorem isFile_iff : fs.isFile p = true ↔ fs.FileAt p := by
  constructor
  · exact stat_of_isFile
  · rintro ⟨mode, contents, runs, hstat⟩
    rw [isFile, hstat]
    rfl

theorem isExecutable_iff : fs.isExecutable p = true ↔ fs.ProgramAt p := by
  unfold isExecutable ProgramAt
  cases hstat : fs.stat p with
  | error e => simp
  | ok node =>
    cases node with
    | file mode contents runs => simp [Node.isExecutable]
    | directory | link => simp [Node.isExecutable]

theorem ProgramAt.fileAt (h : fs.ProgramAt p) : fs.FileAt p := by
  obtain ⟨mode, contents, runs, hstat, -⟩ := h
  exact ⟨mode, contents, runs, hstat⟩

theorem FileAt.ne_nil (h : fs.FileAt p) : p ≠ [] :=
  ne_nil_of_isFile (isFile_iff.mpr h)

/-- A walk whose last name stands for the directory itself ends in a directory. -/
theorem directory_of_walkBy {create : Bool}
    {follow : Location → List Bytes → Except Errno Location}
    (hfollow : ∀ loc names stop, follow loc (names ++ [Path.here]) = .ok stop →
      fs.get? stop = some .directory)
    {loc stop : Location} {names : List Bytes}
    (h : fs.walkBy create follow loc (names ++ [Path.here]) = .ok stop) :
    fs.get? stop = some .directory := by
  induction names generalizing loc with
  | nil =>
    simp only [List.nil_append, walkBy, beq_self_eq_true, if_true] at h
    split at h
    · cases h
    · next hdir =>
      obtain rfl := Except.ok.inj h
      simpa using hdir
  | cons name rest ih =>
    rw [List.cons_append] at h
    unfold walkBy at h
    -- the walk goes on with the other names, or with those of a link before them
    split at h
    · cases h
    · split at h
      · exact ih h
      · split at h
        · exact ih h
        · split at h
          · cases h
          · dsimp only at h
            split at h
            · simp at h
            · rw [← List.append_assoc] at h
              exact hfollow _ _ _ h
            · exact ih h

theorem directory_of_walk {create : Bool} {links : Nat} {loc stop : Location} {names : List Bytes}
    (h : fs.walk create links loc (names ++ [Path.here]) = .ok stop) :
    fs.get? stop = some .directory := by
  induction links generalizing loc stop names with
  | zero =>
    refine directory_of_walkBy ?_ h
    rintro _ _ _ ⟨⟩
  | succ links ih => exact directory_of_walkBy (fun _ _ _ h => ih h) h

/-- A path that ends in a slash asks for a directory. -/
theorem not_fileAt_of_slash (h : p.getLast? = some Path.slash) : ¬ fs.FileAt p := by
  rintro ⟨mode, contents, runs, hstat⟩
  cases hloc : fs.locate p with
  | error e =>
    rw [stat_of_locate_error hloc] at hstat
    cases hstat
  | ok stop =>
    have hdirectory : fs.get? stop = some .directory := by
      unfold locate locateFor at hloc
      split at hloc
      · cases hloc
      · split at hloc
        · cases hloc
        · simp only [Path.components, h, beq_self_eq_true, if_true] at hloc
          exact directory_of_walk hloc
    rw [stat_of_locate hloc, hdirectory] at hstat
    cases hstat

/-- No directory holds a file without a name. -/
theorem not_fileAt_join_nil (dir : Path) : ¬ fs.FileAt (Path.join dir []) := by
  intro h
  have hne := h.ne_nil
  refine not_fileAt_of_slash ?_ h
  unfold Path.join at hne ⊢
  rw [if_neg (by decide)] at hne ⊢
  by_cases hends : (dir.isEmpty || dir.getLast? == some Path.slash) = true
  · rw [if_pos hends, List.append_nil] at hne ⊢
    simpa [hne] using hends
  · rw [if_neg hends]
    exact List.getLast?_concat

end FileSystem

/-! ## A single tool -/

namespace Discovery

variable {overrides : Overrides} {searchPath : Option Bytes} {spec : Spec} {specs : List Spec}
  {location : Path} {fault : Misplaced}

/-- The location that is configured for a tool: its own, or else that in the directory of the suite,
if the tool belongs to it. -/
inductive ConfiguredAt (overrides : Overrides) (spec : Spec) : Path → Prop
  | own {location : Path} (h : overrides.paths.lookup spec.name = some location) :
    ConfiguredAt overrides spec location
  | suite {dir : Path} (hown : overrides.paths.lookup spec.name = none)
    (hmember : spec.project = .spirvTools) (hdir : overrides.suiteDir = some dir) :
    ConfiguredAt overrides spec (Path.join dir (Utf8.ofText spec.name))

/-- A tool is configured at a location where there is no regular file. -/
def Astray (fs : FileSystem) (overrides : Overrides) (spec : Spec) (location : Path) : Prop :=
  ConfiguredAt overrides spec location ∧ ¬ fs.FileAt location

/-- A directory of the search path, if there is one, holds this program. -/
def Offers (fs : FileSystem) (searchPath : Option Bytes) (exe : String) : Prop :=
  ∃ list, searchPath = some list ∧
    ∃ dir ∈ Path.directories list, fs.ProgramAt (Path.join dir (Utf8.ofText exe))

/-- The executable that a tool is to have. -/
inductive Places (fs : FileSystem) (overrides : Overrides) (searchPath : Option Bytes)
    (spec : Spec) : Option Path → Prop
  | configured {location : Path} (h : ConfiguredAt overrides spec location)
    (hfile : fs.FileAt location) : Places fs overrides searchPath spec (some location)
  /-- The bare name of the default command. -/
  | searched {exe : String} (hnone : ∀ location, ¬ ConfiguredAt overrides spec location)
    (hexe : spec.defaultExe = some exe) (h : Offers fs searchPath exe) :
    Places fs overrides searchPath spec (some (Utf8.ofText exe))
  | absent (hnone : ∀ location, ¬ ConfiguredAt overrides spec location)
    (h : ∀ exe, spec.defaultExe = some exe → ¬ Offers fs searchPath exe) :
    Places fs overrides searchPath spec none

theorem explicitLocation_eq_some_iff :
    explicitLocation overrides spec = some location ↔ ConfiguredAt overrides spec location := by
  constructor
  · intro h
    unfold explicitLocation at h
    split at h
    · next path hpath =>
      obtain rfl := Option.some.inj h
      exact .own hpath
    · next hown =>
      split at h
      · next hmember =>
        obtain ⟨dir, hdir, rfl⟩ := Option.map_eq_some_iff.mp h
        exact .suite hown hmember hdir
      · cases h
  · rintro (hown | ⟨hown, hmember, hdir⟩)
    · simp [explicitLocation, hown]
    · simp [explicitLocation, hown, hmember, hdir]

theorem explicitLocation_eq_none_iff :
    explicitLocation overrides spec = none ↔ ∀ location, ¬ ConfiguredAt overrides spec location := by
  rw [Option.eq_none_iff_forall_ne_some]
  exact forall_congr' fun location => not_congr explicitLocation_eq_some_iff

theorem findInPath_isSome_iff {exe : String} {list : Bytes} :
    (findInPath fs exe list).isSome = true ↔ Offers fs (some list) exe := by
  unfold findInPath Offers
  rw [List.find?_isSome]
  constructor
  · rintro ⟨candidate, hcandidate, hprogram⟩
    obtain ⟨dir, hdir, rfl⟩ := List.mem_map.mp hcandidate
    exact ⟨list, rfl, dir, hdir, FileSystem.isExecutable_iff.mp hprogram⟩
  · rintro ⟨_, ⟨⟩, dir, hdir, hprogram⟩
    exact ⟨_, List.mem_map_of_mem hdir, FileSystem.isExecutable_iff.mpr hprogram⟩

/-- A tool is the fault of a discovery exactly if it is astray. -/
theorem resolve_error_iff :
    resolve fs overrides searchPath spec = .error fault ↔
      fault.tool = spec.name ∧ Astray fs overrides spec fault.location := by
  unfold resolve Astray
  rw [← explicitLocation_eq_some_iff, ← FileSystem.isFile_iff]
  cases hlocation : explicitLocation overrides spec with
  | none => cases spec.defaultExe <;> cases searchPath <;> simp
  | some location =>
    dsimp only
    split
    · next hfile =>
      constructor
      · intro h
        cases h
      · rintro ⟨-, hsame, hnot⟩
        obtain rfl := Option.some.inj hsame
        exact absurd hfile hnot
    · next hnot =>
      constructor
      · intro h
        obtain rfl := Except.error.inj h
        exact ⟨rfl, rfl, hnot⟩
      · rintro ⟨hname, hsame, -⟩
        obtain rfl := Option.some.inj hsame
        rw [← hname]

/-- What is found of a tool is what it is to have. -/
theorem places_of_resolve {executable : Option Path}
    (h : resolve fs overrides searchPath spec = .ok executable) :
    Places fs overrides searchPath spec executable := by
  unfold resolve at h
  split at h
  · next location hlocation =>
    split at h
    · next hfile =>
      obtain rfl := Except.ok.inj h
      exact .configured (explicitLocation_eq_some_iff.mp hlocation)
        (FileSystem.isFile_iff.mp hfile)
    · cases h
  · next hlocation =>
    have hnone := explicitLocation_eq_none_iff.mp hlocation
    split at h
    · next exe list hexe =>
      split at h
      · next hfound =>
        obtain rfl := Except.ok.inj h
        exact .searched hnone hexe (findInPath_isSome_iff.mp hfound)
      · next hmissing =>
        obtain rfl := Except.ok.inj h
        refine .absent hnone fun other hother => ?_
        obtain rfl : exe = other := Option.some.inj (hexe.symm.trans hother)
        exact mt findInPath_isSome_iff.mpr hmissing
    · next hneither =>
      obtain rfl := Except.ok.inj h
      refine .absent hnone fun exe hexe => ?_
      rintro ⟨list, hlist, -⟩
      exact hneither exe list hexe hlist

/-- A tool that is in its place is not astray. -/
theorem Places.not_astray {executable : Option Path}
    (h : Places fs overrides searchPath spec executable) : ¬ Astray fs overrides spec location := by
  rintro ⟨hconfigured, hnot⟩
  cases h with
  | configured h hfile =>
    have hsame := explicitLocation_eq_some_iff.mpr hconfigured
    rw [explicitLocation_eq_some_iff.mpr h] at hsame
    obtain rfl := Option.some.inj hsame
    exact hnot hfile
  | searched hnone | absent hnone => exact hnone _ hconfigured

/-- The executable that a tool is to have is never empty: no file is. -/
theorem Places.ne_nil {executable : Path}
    (h : Places fs overrides searchPath spec (some executable)) : executable ≠ [] := by
  cases h with
  | configured h hfile => exact hfile.ne_nil
  | searched hnone hexe h =>
    intro hempty
    obtain ⟨list, -, dir, -, hprogram⟩ := h
    rw [hempty] at hprogram
    exact FileSystem.not_fileAt_join_nil dir hprogram.fileAt

/-- So a descriptor keeps the executable that was found. -/
theorem Places.executable_of {executable : Option Path}
    (h : Places fs overrides searchPath spec executable) :
    (Descriptor.of spec executable).executable = executable := by
  cases executable with
  | none => rfl
  | some path => simp [Descriptor.of, h.ne_nil]

/-! ## The catalogue -/

theorem discover_cons (fs : FileSystem) (overrides : Overrides) (searchPath : Option Bytes)
    (spec : Spec) (rest : List Spec) :
    discover fs overrides searchPath (spec :: rest) =
      match resolve fs overrides searchPath spec with
      | .error fault => .error fault
      | .ok executable => (discover fs overrides searchPath rest).map fun registry =>
          { tools := .of spec executable :: registry.tools } := by
  unfold discover
  rw [List.mapM_cons]
  cases resolve fs overrides searchPath spec with
  | error fault => rfl
  | ok executable =>
    simp only [bind, Except.bind, pure, Except.pure]
    generalize (List.mapM _ rest : Except Misplaced (List Descriptor)) = tools
    cases tools <;> rfl

/-- The fault of a discovery is the first tool of the catalogue that is astray. -/
theorem discover_error_iff :
    discover fs overrides searchPath specs = .error fault ↔
      ∃ before spec after, specs = before ++ spec :: after ∧
        (∀ earlier ∈ before, ∀ location, ¬ Astray fs overrides earlier location) ∧
        fault.tool = spec.name ∧ Astray fs overrides spec fault.location := by
  induction specs with
  | nil =>
    constructor
    · intro h
      cases h
    · rintro ⟨before, spec, after, hspecs, -⟩
      cases before <;> cases hspecs
  | cons spec rest ih =>
    rw [discover_cons]
    cases hres : resolve fs overrides searchPath spec with
    | error found =>
      have hastray := resolve_error_iff.mp hres
      constructor
      · intro h
        obtain rfl := Except.error.inj h
        exact ⟨[], spec, rest, rfl, (fun _ hmem => nomatch hmem), hastray⟩
      · rintro ⟨before, spec', after, hspecs, hbefore, hfault⟩
        cases before with
        | nil =>
          obtain ⟨rfl, -⟩ := List.cons.inj hspecs
          have hfailed := hres.symm.trans (resolve_error_iff.mpr hfault)
          exact congrArg Except.error (Except.error.inj hfailed)
        | cons first before =>
          obtain ⟨rfl, -⟩ := List.cons.inj hspecs
          exact absurd hastray.2 (hbefore spec List.mem_cons_self _)
    | ok executable =>
      -- a tool that was found is not at fault, so the fault is among the others
      have hplaced : ∀ location, ¬ Astray fs overrides spec location := fun _ =>
        (places_of_resolve hres).not_astray
      have hrest : ((discover fs overrides searchPath rest).map fun registry : Registry =>
          ({ tools := .of spec executable :: registry.tools } : Registry)) = .error fault ↔
            discover fs overrides searchPath rest = .error fault := by
        cases discover fs overrides searchPath rest <;> simp [Except.map]
      rw [hrest, ih]
      constructor
      · rintro ⟨before, spec', after, rfl, hbefore, hfault⟩
        exact ⟨spec :: before, spec', after, rfl,
          List.forall_mem_cons.mpr ⟨hplaced, hbefore⟩, hfault⟩
      · rintro ⟨before, spec', after, hspecs, hbefore, hfault⟩
        cases before with
        | nil =>
          obtain ⟨rfl, -⟩ := List.cons.inj hspecs
          exact absurd hfault.2 (hplaced _)
        | cons first before =>
          obtain ⟨-, rfl⟩ := List.cons.inj hspecs
          exact ⟨before, spec', after, rfl, (List.forall_mem_cons.mp hbefore).2, hfault⟩

/-- A discovery that does not fail has every tool of the catalogue in its place. -/
theorem places_of_discover {registry : Registry}
    (h : discover fs overrides searchPath specs = .ok registry) :
    registry.tools.map Descriptor.spec = specs ∧
      ∀ tool ∈ registry.tools,
        Places fs overrides searchPath tool.spec tool.executable := by
  induction specs generalizing registry with
  | nil =>
    obtain rfl := Except.ok.inj h
    exact ⟨rfl, fun _ hmem => nomatch hmem⟩
  | cons spec rest ih =>
    rw [discover_cons] at h
    cases hres : resolve fs overrides searchPath spec with
    | error fault =>
      rw [hres] at h
      cases h
    | ok executable =>
      cases hrest : discover fs overrides searchPath rest with
      | error fault =>
        rw [hres, hrest] at h
        cases h
      | ok others =>
        rw [hres, hrest] at h
        obtain rfl := Except.ok.inj h
        obtain ⟨hspecs, htools⟩ := ih hrest
        have hplaces := places_of_resolve hres
        refine ⟨congrArg (spec :: ·) hspecs, List.forall_mem_cons.mpr ⟨?_, htools⟩⟩
        rw [hplaces.executable_of]
        exact hplaces

/-- **Discovery is all or nothing.** It fails exactly if some tool of the catalogue is configured at
a location that is not a regular file. Its fault then names the first such tool and its location, and
is the same with any other search path. Otherwise the registry has one descriptor for each entry of
the catalogue, in the same order, each with the executable that it is to have: the configured
location, or else the bare default command if a directory of the search path holds it as a program,
or else none; and an executable is never empty. -/
theorem discover_all_or_nothing (fs : FileSystem) (overrides : Overrides)
    (searchPath : Option Bytes) (specs : List Spec) :
    ((∃ fault, discover fs overrides searchPath specs = .error fault) ↔
      ∃ spec ∈ specs, ∃ location, Astray fs overrides spec location) ∧
    (∀ fault, discover fs overrides searchPath specs = .error fault →
      (∃ before spec after, specs = before ++ spec :: after ∧
        (∀ earlier ∈ before, ∀ location, ¬ Astray fs overrides earlier location) ∧
        Astray fs overrides spec fault.location ∧ fault.tool = spec.name ∧
        fault.message = spec.name ++ " was configured at " ++ Utf8.lossy fault.location ++
          ", which is not an existing file") ∧
      ∀ other, discover fs overrides other specs = .error fault) ∧
    ∀ registry, discover fs overrides searchPath specs = .ok registry →
      registry.tools.map Descriptor.spec = specs ∧
      ∀ tool ∈ registry.tools, Places fs overrides searchPath tool.spec tool.executable ∧
        tool.executable ≠ some [] := by
  refine ⟨⟨?_, ?_⟩, fun fault hfault => ⟨?_, fun other => ?_⟩, fun registry hregistry => ?_⟩
  · rintro ⟨fault, hfault⟩
    obtain ⟨before, spec, after, rfl, -, -, hastray⟩ := discover_error_iff.mp hfault
    exact ⟨spec, by simp, _, hastray⟩
  · rintro ⟨spec, hspec, location, hastray⟩
    cases hdiscover : discover fs overrides searchPath specs with
    | error fault => exact ⟨fault, rfl⟩
    | ok registry =>
      obtain ⟨rfl, hplaces⟩ := places_of_discover hdiscover
      obtain ⟨tool, htool, rfl⟩ := List.mem_map.mp hspec
      exact absurd hastray (hplaces tool htool).not_astray
  · obtain ⟨before, spec, after, hspecs, hbefore, hname, hastray⟩ := discover_error_iff.mp hfault
    refine ⟨before, spec, after, hspecs, hbefore, hastray, hname, ?_⟩
    rw [← hname]
    rfl
  · exact discover_error_iff.mpr (discover_error_iff.mp hfault)
  · obtain ⟨hspecs, hplaces⟩ := places_of_discover hregistry
    refine ⟨hspecs, fun tool htool => ⟨hplaces tool htool, fun hempty => ?_⟩⟩
    have htold := hplaces tool htool
    rw [hempty] at htold
    exact htold.ne_nil rfl

/-- The directory of the suite lacks the optimizer, so nothing is discovered, with or without a
search path. Where no directory is configured, the tools of the search path are. -/
theorem discovery_of_incomplete_suite :
    let fs := shelf [([Utf8.ofText "sdk"], .directory),
      ([Utf8.ofText "sdk", Utf8.ofText "spirv-val"], .file 0o644 [] false)]
    let overrides : Overrides := { suiteDir := some (Utf8.ofText "sdk") }
    let list := some (Utf8.ofText "nope:bin")
    ∃ fault, discover fs overrides list catalog = .error fault ∧
      discover fs overrides none catalog = .error fault ∧
      fault.message = "spirv-opt was configured at sdk/spirv-opt, which is not an existing file" ∧
      ∃ registry, discover fs {} list catalog = .ok registry ∧
        registry.tools.map Descriptor.spec = catalog ∧
        registry.tools.filterMap Descriptor.executable = [Utf8.ofText "dxc"] := by
  intro fs overrides list
  let fault : Misplaced := ⟨"spirv-opt", Utf8.ofText "sdk/spirv-opt"⟩
  have hfault : discover fs overrides list catalog = .error fault := rfl
  obtain ⟨-, hfailed, -⟩ := discover_all_or_nothing fs overrides list catalog
  obtain ⟨-, -, hfound⟩ := discover_all_or_nothing fs {} list catalog
  refine ⟨fault, hfault, (hfailed fault hfault).2 none, by decide +kernel, _, rfl, ?_, ?_⟩
  · exact (hfound _ rfl).1
  · decide +kernel

end Discovery

end ShaderChain

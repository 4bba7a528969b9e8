import ShaderChain.Command
import ShaderChain.Host.FileSystem
import ShaderChain.Tool.Registry

/-!
# Which file a configured tool is started from

Discovery checks a configured location as a path: from the working directory, if it does not start
at the root. The operating system starts a program by other rules: only a name with a slash in it is
a path, any other name is searched in the directories of `PATH`. `Discovery.launch_configured` tells
what follows. A location with a slash is started from where it was checked, and is always found
there. A location without one was checked in the working directory, and is started from wherever the
search leads. Such a location is either configured for the single tool, or comes from an empty
directory of the suite.
-/

namespace ShaderChain

variable {fs : FileSystem} {p program : Path} {args : List Bytes}

/-- Below a directory there is a slash in every path. -/
theorem Path.slash_mem_join {dir : Path} (hdir : dir ≠ []) (name : Path) :
    Path.slash ∈ Path.join dir name := by
  unfold join
  split
  · rename_i habsolute
    exact List.mem_of_mem_head? (by simpa [isAbsolute] using habsolute)
  · split
    · rename_i hends
      have hlast : dir.getLast? = some slash := by simpa [hdir] using hends
      exact List.mem_append_left _ (List.mem_of_getLast? hlast)
    · exact List.mem_append_right _ List.mem_cons_self

namespace FileSystem

/-! ## Starting a file -/

theorem ne_nil_of_isFile (h : fs.isFile p = true) : p ≠ [] := by
  rintro rfl
  cases h

theorem stat_of_isFile (h : fs.isFile p = true) :
    ∃ mode contents runs, fs.stat p = .ok (.file mode contents runs) := by
  unfold isFile at h
  cases hstat : fs.stat p with
  | error e => simp [hstat] at h
  | ok node =>
    cases node with
    | file mode contents runs => exact ⟨mode, contents, runs, rfl⟩
    | directory => simp [hstat, Node.isFile] at h
    | link target => simp [hstat, Node.isFile] at h

theorem execute_of_stat {mode : Nat} {contents : Bytes} {runs : Bool}
    (h : fs.stat p = .ok (.file mode contents runs)) (args : List Bytes) :
    fs.execute args p =
      if !(Node.file mode contents runs).ownerMayExecute then .error .denied
      else if args.any (maxArgument ≤ ·.length) then .error .argumentsTooLong
      else if runs then .ok p
      else .error .badExecutable := by
  rw [execute, h]
  rfl

/-- How the start of a file ends. In particular, a file that is there is not missed. -/
theorem execute_of_isFile (h : fs.isFile p = true) (args : List Bytes) :
    fs.execute args p = .ok p ∨
      ∃ e ∈ [Errno.denied, .argumentsTooLong, .badExecutable], fs.execute args p = .error e := by
  obtain ⟨mode, contents, runs, hstat⟩ := stat_of_isFile h
  rw [execute_of_stat hstat]
  split
  · exact .inr ⟨.denied, by decide, rfl⟩
  · split
    · exact .inr ⟨.argumentsTooLong, by decide, rfl⟩
    · split
      · exact .inl rfl
      · exact .inr ⟨.badExecutable, by decide, rfl⟩

theorem execute_absent (h : fs.stat p = .error .noEntry) (args : List Bytes) :
    fs.execute args p = .error .noEntry := by
  rw [execute, h]
  rfl

/-- What is started is the file at the path. -/
theorem execute_eq_ok {q : Path} (h : fs.execute args p = .ok q) : q = p := by
  have hfile : fs.isFile p = true := by
    unfold isFile
    cases hstat : fs.stat p with
    | error e =>
      rw [execute, hstat] at h
      cases h
    | ok node =>
      cases node with
      | file => rfl
      | directory | link =>
        rw [execute, hstat] at h
        cases h
  rcases execute_of_isFile hfile args with hp | ⟨e, -, he⟩
  · exact Except.ok.inj (h.symm.trans hp)
  · rw [he] at h
    cases h

/-! ## Searching a program -/

/-- A search starts a candidate of one of its directories. -/
theorem search_eq_ok {dirs : List Path} {denied : Bool} {last : Errno} {q : Path}
    (h : fs.search args program denied last dirs = .ok q) :
    ∃ dir ∈ dirs, q = candidate dir program := by
  induction dirs generalizing denied last with
  | nil => cases h
  | cons dir rest ih =>
    unfold search at h
    cases hdir : fs.execute args (candidate dir program) with
    | ok p =>
      rw [hdir] at h
      obtain rfl := Except.ok.inj h
      exact ⟨dir, List.mem_cons_self, execute_eq_ok hdir⟩
    | error e =>
      -- the search ends with the error, or goes on in the other directories
      have hnext : ∃ denied last, fs.search args program denied last rest = .ok q := by
        rw [hdir] at h
        cases e <;> first | exact ⟨_, _, h⟩ | cases h
      obtain ⟨denied, last, hnext⟩ := hnext
      obtain ⟨dir', hmem, hq⟩ := ih hnext
      exact ⟨dir', List.mem_cons_of_mem _ hmem, hq⟩

/-- A program that no directory has is not found. -/
theorem search_absent {dirs : List Path}
    (h : ∀ dir ∈ dirs, fs.stat (candidate dir program) = .error .noEntry) (args : List Bytes) :
    fs.search args program false .noEntry dirs = .error .noEntry := by
  induction dirs with
  | nil => rfl
  | cons dir rest ih =>
    rw [search, execute_absent (h dir List.mem_cons_self) args]
    exact ih fun dir hdir => h dir (List.mem_cons_of_mem _ hdir)

/-! ## Launching a program -/

/-- There is no null byte in a program and its arguments; one would be refused before the launch. -/
def Passes (program : Path) (args : List Bytes) : Prop :=
  (program :: args).any (·.contains 0) = false

/-- The directories that a launch searches. -/
def searched (list : Option Bytes) : List Path :=
  searchedDirectories (Path.directories (list.getD defaultSearchPath))

theorem launch_of_not_passes (h : ¬ Passes program args) (list : Option Bytes) :
    fs.launch list program args = .error (.other "nul byte found in provided data") := by
  rw [launch, if_pos (eq_true_of_ne_false h)]

/-- A program with a slash is used as it is. -/
theorem launch_of_slash (hpasses : Passes program args) (hslash : Path.slash ∈ program)
    (list : Option Bytes) :
    fs.launch list program args = (fs.execute args program).mapError .os := by
  have hne : ¬ program.isEmpty = true := by
    rw [List.isEmpty_iff]
    exact List.ne_nil_of_mem hslash
  rw [launch, if_neg (ne_true_of_eq_false hpasses), if_neg hne]
  simp only [List.contains_iff_mem.mpr hslash, if_true]

/-- A program without a slash is searched. -/
theorem launch_of_bare (hpasses : Passes program args) (hne : program ≠ [])
    (hbare : Path.slash ∉ program) (list : Option Bytes) :
    fs.launch list program args =
      (fs.search args program false .noEntry (searched list)).mapError .os := by
  have hne : ¬ program.isEmpty = true := by rwa [List.isEmpty_iff]
  have hcontains : ¬ program.contains Path.slash = true :=
    fun h => hbare (List.contains_iff_mem.mp h)
  rw [launch, if_neg (ne_true_of_eq_false hpasses), if_neg hne]
  simp only [hcontains, searched]
  rfl

/-- A program with a slash is started from nowhere else, and is found if it is a file. -/
theorem launch_slash (hfile : fs.isFile program = true) (hslash : Path.slash ∈ program)
    (args : List Bytes) (list : Option Bytes) :
    (∀ q, fs.launch list program args = .ok q → q = program) ∧
      fs.launch list program args ≠ .error (.os .noEntry) := by
  by_cases hpasses : Passes program args
  · rw [launch_of_slash hpasses hslash list]
    rcases execute_of_isFile hfile args with hstarted | ⟨e, he, hfailed⟩
    · rw [hstarted]
      exact ⟨fun q hq => (Except.ok.inj hq).symm, (nomatch ·)⟩
    · rw [hfailed]
      refine ⟨fun q hq => (nomatch hq), fun hnone => ?_⟩
      obtain rfl : e = .noEntry := IoError.os.inj (Except.error.inj hnone)
      simp at he
  · rw [launch_of_not_passes hpasses]
    exact ⟨fun q hq => (nomatch hq), fun h => (nomatch h)⟩

/-- A program without a slash is started from a searched directory, and is not found if none has
it. -/
theorem launch_bare (hne : program ≠ []) (hbare : Path.slash ∉ program) (args : List Bytes)
    (list : Option Bytes) :
    (∀ q, fs.launch list program args = .ok q → ∃ dir ∈ searched list, q = candidate dir program) ∧
      (Passes program args →
        (∀ dir ∈ searched list, fs.stat (candidate dir program) = .error .noEntry) →
          fs.launch list program args = .error (.os .noEntry)) := by
  by_cases hpasses : Passes program args
  · rw [launch_of_bare hpasses hne hbare list]
    refine ⟨fun q hq => ?_, fun _ habsent => ?_⟩
    · cases hsearch : fs.search args program false .noEntry (searched list) with
      | error e =>
        rw [hsearch] at hq
        cases hq
      | ok q' =>
        rw [hsearch] at hq
        obtain rfl := Except.ok.inj hq
        exact search_eq_ok hsearch
    · rw [search_absent habsent args]
      rfl
  · rw [launch_of_not_passes hpasses]
    exact ⟨fun q hq => (nomatch hq), fun h => absurd h hpasses⟩

end FileSystem

/-! ## Configured locations -/

namespace Discovery

variable {overrides : Overrides} {spec : Spec} {location executable : Path}
  {searchPath : Option Bytes}

/-- A location that was found is the configured one, and is a file. -/
theorem resolve_configured (hloc : explicitLocation overrides spec = some location)
    (hres : resolve fs overrides searchPath spec = .ok (some executable)) :
    executable = location ∧ fs.isFile location = true := by
  simp only [resolve, hloc] at hres
  by_cases hfile : fs.isFile location = true
  · rw [if_pos hfile] at hres
    exact ⟨(Option.some.inj (Except.ok.inj hres)).symm, hfile⟩
  · rw [if_neg hfile] at hres
    cases hres

/-- A configured location without a slash is that of a single tool, or the directory of the suite is
empty. -/
theorem bare_of_configured (hloc : explicitLocation overrides spec = some location)
    (hbare : Path.slash ∉ location) :
    overrides.paths.lookup spec.name = some location ∨ overrides.suiteDir = some [] := by
  unfold explicitLocation at hloc
  split at hloc
  · rename_i path hpath
    exact .inl (hpath.trans hloc)
  · split at hloc
    · obtain ⟨dir, hdir, rfl⟩ := Option.map_eq_some_iff.mp hloc
      have hempty : dir = [] :=
        Decidable.byContradiction fun hne => hbare (Path.slash_mem_join hne _)
      exact .inr (hempty ▸ hdir)
    · cases hloc

/-- The command of a tool that was found starts the tool's executable. -/
theorem build_of_found (hne : executable ≠ []) (spec : Spec) (flags : String) (scratch : Path) :
    ∃ cmd, Command.build (.of spec (some executable)) flags scratch = .ok cmd ∧
      cmd.program = executable := by
  have hfound : (Descriptor.of spec (some executable)).executable = some executable := by
    simp [Descriptor.of, hne]
  refine ⟨_, by rw [Command.build, hfound], rfl⟩

/-- **Which file a configured tool is started from.** Let a tool have a configured location at which
discovery finds it, and take any command of the tool. Its program is the location, and the location
is a file. With a slash in the location, no launch starts another file or misses this one, and every
launch that is not refused for a null byte executes it. Without one, the location is that of the
single tool or the directory of the suite is empty; launches start only files in searched
directories, and fail where no such directory has the name. -/
theorem launch_configured (hloc : explicitLocation overrides spec = some location)
    (hres : resolve fs overrides searchPath spec = .ok (some executable)) (flags : String)
    (scratch : Path) :
    fs.isFile location = true ∧ ∃ cmd,
      Command.build (.of spec (some executable)) flags scratch = .ok cmd ∧ cmd.program = location ∧
      let args := cmd.args.map Utf8.ofText
      let launch := fun list => fs.launch list cmd.program args
      (Path.slash ∈ location → ∀ list,
        (∀ started, launch list = .ok started → started = location) ∧
          launch list ≠ .error (.os .noEntry) ∧
          (FileSystem.Passes location args →
            launch list = (fs.execute args location).mapError .os)) ∧
      (Path.slash ∉ location →
        (overrides.paths.lookup spec.name = some location ∨ overrides.suiteDir = some []) ∧
          ∀ list,
            (∀ started, launch list = .ok started →
              ∃ dir ∈ FileSystem.searched list, started = FileSystem.candidate dir location) ∧
            (FileSystem.Passes location args →
              (∀ dir ∈ FileSystem.searched list,
                fs.stat (FileSystem.candidate dir location) = .error .noEntry) →
              launch list = .error (.os .noEntry))) := by
  obtain ⟨rfl, hfile⟩ := resolve_configured hloc hres
  have hne := FileSystem.ne_nil_of_isFile hfile
  obtain ⟨cmd, hcmd, hprogram⟩ := build_of_found hne spec flags scratch
  refine ⟨hfile, cmd, hcmd, hprogram, ?_⟩
  intro args launch
  -- what is launched is the location itself, spelled as it was configured
  have hlaunch : launch = fun list => fs.launch list executable args :=
    funext fun list => congrArg (fs.launch list · args) hprogram
  rw [hlaunch]
  constructor
  · intro hslash list
    obtain ⟨hstarted, hfound⟩ := FileSystem.launch_slash hfile hslash args list
    exact ⟨hstarted, hfound, fun hpasses => FileSystem.launch_of_slash hpasses hslash list⟩
  · intro hbare
    exact ⟨bare_of_configured hloc hbare, FileSystem.launch_bare hne hbare args⟩

/-- A program in the working directory, and the directory `bin` with these nodes in it. -/
def workplace (bin : List (Bytes × Node)) : FileSystem where
  nodes := (([Utf8.ofText "mydxc"], .file 0o755 [] true) : Location × Node) ::
    ([Utf8.ofText "bin"], .directory) ::
    bin.map fun entry => ([Utf8.ofText "bin", entry.1], entry.2)

/-- With a slash, the program of the working directory is started, although the search has one of the
same name. -/
theorem launch_of_dotted_location :
    let fs := workplace [(Utf8.ofText "mydxc", .file 0o755 [] true)]
    let location := Utf8.ofText "./mydxc"
    let list := some (Utf8.ofText "bin")
    ∃ cmd, Command.build (.of .dxc (some location)) "-O" (Utf8.ofText "/tmp/a") = .ok cmd ∧
      fs.launch list cmd.program (cmd.args.map Utf8.ofText) = .ok location := by
  intro fs location list
  let overrides : Overrides := { paths := [("dxc", location)] }
  have hloc : explicitLocation overrides .dxc = some location := rfl
  have hres : resolve fs overrides list .dxc = .ok (some location) := rfl
  obtain ⟨-, cmd, hcmd, -, hslash, -⟩ :=
    launch_configured hloc hres "-O" (Utf8.ofText "/tmp/a")
  obtain ⟨-, -, hexecuted⟩ := hslash (by decide) list
  refine ⟨cmd, hcmd, ?_⟩
  obtain rfl := Except.ok.inj hcmd
  exact (hexecuted rfl).trans rfl

/-- Without a slash, discovery finds the program of the working directory, and the launch misses it
or starts another one. -/
theorem launch_of_bare_location :
    let location := Utf8.ofText "mydxc"
    let overrides : Overrides := { paths := [("dxc", location)] }
    let list := some (Utf8.ofText "bin")
    let other := workplace [(Utf8.ofText "mydxc", .file 0o755 [] true)]
    ∃ cmd, Command.build (.of .dxc (some location)) "-O" (Utf8.ofText "/tmp/a") = .ok cmd ∧
      resolve (workplace []) overrides list .dxc = .ok (some location) ∧
      (workplace []).launch list cmd.program (cmd.args.map Utf8.ofText) = .error (.os .noEntry) ∧
      resolve other overrides list .dxc = .ok (some location) ∧
      other.launch list cmd.program (cmd.args.map Utf8.ofText) = .ok (Utf8.ofText "bin/mydxc") := by
  intro location overrides list other
  exact ⟨_, rfl, rfl, rfl, rfl, rfl⟩

end Discovery

end ShaderChain

import ShaderChain.Proofs.Damage
import ShaderChain.Proofs.Store
import ShaderChain.Proofs.Work

/-!
# Which file a tool is pointed at

A command has text for arguments, and the path of a scratch file is bytes: the file is named by the
bytes of the path's text. These are the bytes of the path if it is text, and no other time
(`Command.pointsAt_of_build`). Where a tool leaves its result, and where contents are staged, is
the path itself. Every process of every job is launched with a command that is built like this on
the path of the job's own scratch file (`Chain.perform_serves`); so the processes of a run are
pointed at the file that the run stages exactly if its path is text
(`Chain.pointed_at_scratch_iff`).
-/

namespace ShaderChain

variable {α σ : Type} {path : Path}

/-! ## The arguments of a command -/

namespace Command

/-- The arguments of a tool. Where the scratch file is meant there is `none`. -/
def arguments (tool : Descriptor) (flags : String) : List (Option String) :=
  let own := (flagArgs tool.spec.flagStyle flags).map some
  let files := match tool.spec.emission with
    | .stdout => [none]
    | .scratchFile => [none, some "-o", none]
  match tool.spec.layout with
  | .standard => own ++ files
  | .scratchFirst => files ++ own

/-- The arguments as the operating system takes them. -/
def passed (cmd : Command) : List Bytes :=
  cmd.args.map Utf8.ofText

/-- The arguments of a tool as the operating system takes them, if the scratch file is named by the
bytes of its path. -/
def naming (tool : Descriptor) (flags : String) (path : Path) : List Bytes :=
  (arguments tool flags).map fun argument => argument.elim path Utf8.ofText

theorem none_mem_arguments (tool : Descriptor) (flags : String) : none ∈ arguments tool flags := by
  unfold arguments
  cases tool.spec.layout <;> cases tool.spec.emission <;> simp

variable {tool : Descriptor} {program : Path} {flags : String} {cmd : Command}

/-- The command of a tool that was found: in its arguments stands the text of the path. -/
theorem build_eq (h : tool.executable = some program) (flags : String) (path : Path) :
    build tool flags path = .ok {
      tool := tool.name
      program
      args := (arguments tool flags).map fun argument => argument.getD (Utf8.lossy path)
      output := targetOf tool.spec.emission path } := by
  unfold build arguments fileArgs
  rw [h]
  cases tool.spec.layout <;> cases tool.spec.emission <;> simp [Function.comp_def]

theorem executable_of_build (h : build tool flags path = .ok cmd) :
    tool.executable = some cmd.program := by
  cases hexe : tool.executable with
  | none =>
    rw [build, hexe] at h
    cases h
  | some program =>
    rw [build_eq hexe] at h
    rw [← Except.ok.inj h]

theorem passed_eq_naming (h : build tool flags path = .ok cmd) :
    cmd.passed = naming tool flags (Utf8.ofText (Utf8.lossy path)) := by
  rw [build_eq (executable_of_build h)] at h
  rw [← Except.ok.inj h, passed, naming, List.map_map]
  refine List.map_congr_left fun argument _ => ?_
  cases argument <;> rfl

/-- How the command of a tool names its files: where the result is left is the path itself, and the
arguments have the bytes of the path in the places of the scratch file, or anywhere at all, exactly
if the path is text. -/
structure PointsAt (cmd : Command) (tool : Descriptor) (flags : String) (path : Path) : Prop where
  built : build tool flags path = .ok cmd
  output : cmd.output = targetOf tool.spec.emission path
  places : cmd.passed = naming tool flags path ↔ (Utf8.text? path).isSome
  anywhere : path ∈ cmd.passed ↔ (Utf8.text? path).isSome

theorem pointsAt_of_build (h : build tool flags path = .ok cmd) :
    cmd.PointsAt tool flags path := by
  have hpassed := passed_eq_naming h
  have hnone := none_mem_arguments tool flags
  refine ⟨h, ?_, ?_, ?_⟩
  · rw [build_eq (executable_of_build h)] at h
    rw [← Except.ok.inj h]
  · rw [hpassed, ← Utf8.ofText_lossy_eq_iff]
    exact ⟨fun hsame => List.map_eq_map_iff.mp hsame none hnone, fun hpath => by rw [hpath]⟩
  · constructor
    · -- an argument is text
      intro hin
      obtain ⟨argument, -, hargument⟩ := List.mem_map.mp hin
      rw [Utf8.text?_eq_some_iff.mpr hargument]
      rfl
    · intro htext
      rw [hpassed, Utf8.ofText_lossy_eq_iff.mpr htext]
      exact List.mem_map.mpr ⟨none, hnone, rfl⟩

end Command

/-! ## The commands of a run -/

namespace Chain

/-- The steps of a run between the creation and the removal of its scratch file. -/
theorem record_serves {c : Chain} {inquiry : Inquiry} {m : Machine σ} {s : σ}
    (h : scratchOf ((c.perform inquiry).record m s) = some path) :
    ∃ body, (c.perform inquiry).record m s =
        .created c.scratchDir (.ok path) :: body ++ [.removed path] ∧
      ∀ event ∈ body, event.Serves path c.limit := by
  rcases c.perform_serves inquiry with ⟨a, hjob⟩ | ⟨failed, body, hjob, hbody⟩
  · rw [hjob] at h
    cases h
  · rw [hjob] at h ⊢
    have hpath := create_of_scratchOf h
    exact ⟨_, record_withScratch_ok hpath, (hbody path).record m _⟩

/-- **Which file the tools are pointed at.** Every tool that was found has a command on every path,
which leaves its result at the path itself; its arguments name the file byte for byte if the path is
text, and otherwise none of them does. In a run of any job, all that is staged is staged at the path
of the job's scratch file, and every process is launched with such a command on this path. -/
theorem pointed_at_scratch_iff (c : Chain) (inquiry : Inquiry) (m : Machine σ) (s : σ) :
    (∀ tool program flags path, tool.executable = some program →
      ∃ cmd : Command, cmd.PointsAt tool flags path) ∧
    ∀ path, scratchOf ((c.perform inquiry).record m s) = some path →
      (∀ p contents answer,
        .staged p contents answer ∈ (c.perform inquiry).record m s → p = path) ∧
      ∀ l ∈ launches ((c.perform inquiry).record m s),
        l.path = path ∧ ∃ tool flags, l.cmd.PointsAt tool flags path := by
  refine ⟨fun tool program flags path hfound => ?_, fun path hscratch => ?_⟩
  · exact ⟨_, Command.pointsAt_of_build (Command.build_eq hfound flags path)⟩
  obtain ⟨body, hrecord, hserves⟩ := record_serves hscratch
  rw [hrecord]
  constructor
  · intro p contents answer hstaged
    simp only [List.cons_append, List.mem_cons, List.mem_append, reduceCtorEq, List.not_mem_nil,
      or_false, false_or] at hstaged
    exact hserves _ hstaged
  · intro l hl
    have hlaunched : .launched l ∈ body := by
      rw [← mem_launches]
      simpa using hl
    obtain ⟨hpath, -, tool, flags, hbuild⟩ := hserves _ hlaunched
    exact ⟨hpath, tool, flags, Command.pointsAt_of_build hbuild⟩

/-- A disassembler that is pointed at its module, in a directory whose name is text, but not
ASCII. -/
theorem disassembler_pointed_at_module :
    let path := Utf8.ofText "/tmp/é/spirv-playground-Ab3"
    let machine := Store.machine .echo (.ok path)
    let record := (Chain.complete.perform (.disassemble [])).record machine fun _ => none
    (launches record).length = 1 ∧ ∀ l ∈ launches record, path ∈ l.cmd.passed := by
  intro path machine record
  have hscratch : scratchOf record = some path := by decide +kernel
  have htext : (Utf8.text? path).isSome := by decide +kernel
  refine ⟨by decide +kernel, fun l hl => ?_⟩
  have hrun := pointed_at_scratch_iff Chain.complete (.disassemble []) machine fun _ => none
  obtain ⟨-, tool, flags, hpoints⟩ := (hrun.2 path hscratch).2 l hl
  exact hpoints.anywhere.mpr htext

/-- In a directory whose name is no text, the arguments of the optimizer name another file than the
one at which its result is looked for. -/
theorem optimizer_pointed_elsewhere :
    let path := Utf8.ofText "/tmp/" ++ [0xFF] ++ Utf8.ofText "/spirv-playground-Ab3"
    ∃ cmd, Command.build (.of .optimizer (some (Utf8.ofText "e"))) "-O" path = .ok cmd ∧
      cmd.output = .file path ∧ path ∉ cmd.passed ∧
      cmd.passed ≠ Command.naming (.of .optimizer (some (Utf8.ofText "e"))) "-O" path :=
  ⟨_, rfl, by decide +kernel, by decide +kernel, by decide +kernel⟩

end Chain

end ShaderChain

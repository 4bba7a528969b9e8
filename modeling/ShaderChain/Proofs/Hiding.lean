import ShaderChain.Proofs.Record
import ShaderChain.Proofs.Scrubbing
import ShaderChain.Proofs.Store

/-!
# No scratch path in any answer

Once a request has a scratch file, every way in which its job can end builds the result from an
outcome and the path of the file (`Payload.Over`). Each text in such a result is scrubbed, or one of
the fixed texts, so it does not show the path (`Chain.perform_hides`), whatever the processes print.
-/

namespace ShaderChain

variable {α σ : Type} {m : Machine σ} {s : σ}

/-! ## Results over a scratch file -/

/-- The results that a job can end in once its scratch file is at `path`. -/
inductive Payload.Over (path : Path) : Payload → Prop
  | compilation (outcome) : Over path (.compilation (Chain.compilationOf path outcome))
  | disassembly (outcome) : Over path (.disassembly (Chain.disassemblyOf path outcome))
  | validation (completed outcome) :
    Over path (.validation (Chain.validationOf path completed outcome))

namespace Chain

variable {c : Chain} {path : Path}

theorem run_withScratch {failed : ChainError → α} {job : Path → Job α}
    (h : scratchOf ((c.withScratch failed job).record m s) = some path) :
    ((c.withScratch failed job).run m s).1 =
      ((job path).run m (m.create c.scratchDir s).2).1 :=
  run_withScratch_ok (create_of_scratchOf h)

/-- Every way in which a job ends once it has a scratch file. -/
theorem perform_over {inquiry : Inquiry}
    (h : scratchOf ((c.perform inquiry).record m s) = some path) :
    ((c.perform inquiry).run m s).1.Over path := by
  cases inquiry with
  | compile request =>
    rw [perform, Job.record_map] at h
    rw [perform, Job.run_map]
    cases hplan : c.registry.plan request with
    | error e =>
      rw [compile_rejected hplan] at h
      cases h
    | ok plan =>
      rw [compile_planned hplan] at h ⊢
      rw [run_withScratch h, Job.run_andThen]
      exact .compilation _
  | disassemble binary =>
    rw [perform, Job.record_map] at h
    rw [perform, Job.run_map, disassemble, run_withScratch h, Job.bind_eq, Job.run_andThen]
    exact .disassembly _
  | validate spirv env =>
    rw [perform, Job.record_map] at h
    rw [perform, Job.run_map, validate]
    dsimp only
    rw [run_withScratch h, Job.bind_eq, Job.run_andThen]
    cases hput : ((put path (Utf8.ofText spirv)).run.run m (m.create c.scratchDir s).2).1 with
    | error e =>
      -- the text could not be staged, so no step was completed
      show Payload.Over path (.validation (validationOf path 0 (.error e)))
      exact .validation 0 _
    | ok u =>
      dsimp only
      rw [Job.bind_eq, Job.run_andThen]
      exact .validation _ _

end Chain

/-- Every text of a result over a scratch file is scrubbed, or fixed. -/
theorem Payload.Over.scrubbed {path : Path} {p : Payload} (h : p.Over path) :
    ∀ text ∈ p.texts, (∃ raw, text = (Scrubber.ofPath path).scrub raw) ∨
      text = "" ∨ text = disassemblyFailed := by
  cases h with
  | compilation outcome =>
    intro text htext
    refine .inl ?_
    simp only [texts, Report.texts, Chain.compilationOf, Compilation.scrubbed,
      Scrubber.scrubReport, List.mem_cons, List.not_mem_nil, or_false] at htext
    rcases htext with rfl | rfl | rfl | rfl <;> exact ⟨_, rfl⟩
  | disassembly outcome =>
    intro text htext
    obtain rfl := List.mem_singleton.mp htext
    unfold Chain.disassemblyOf
    cases outcome with
    | ok raw => exact .inl ⟨raw, rfl⟩
    | error e =>
      dsimp only
      split
      · exact .inr (.inr rfl)
      · exact .inl ⟨_, rfl⟩
  | validation completed outcome =>
    intro text htext
    cases outcome with
    | ok raw =>
      simp only [texts, Report.texts, Chain.validationOf, List.mem_cons, List.not_mem_nil,
        or_false] at htext
      rcases htext with rfl | rfl | rfl | rfl
      · exact .inl ⟨raw, rfl⟩
      all_goals exact .inr (.inl rfl)
    | error e =>
      simp only [texts, Report.texts, Chain.validationOf, Scrubber.scrubReport, List.mem_cons,
        List.not_mem_nil, or_false] at htext
      rcases htext with rfl | rfl | rfl | rfl
      · exact .inr (.inl rfl)
      all_goals exact .inl ⟨_, rfl⟩

/-- **No scratch path in any answer.** Whatever is asked for and whatever the processes do, no text
of the result shows the path of the scratch file, neither as it is nor quoted. So scrubbing the text
once more changes nothing. -/
theorem Chain.perform_hides (c : Chain) (inquiry : Inquiry) (m : Machine σ) (s : σ)
    (r : ScratchPath) (hmark : ¬ placeholder.toList <:+: Utf8.lossyChars r.path)
    (hscratch : scratchOf ((c.perform inquiry).record m s) = some r.path) :
    ∀ text ∈ ((c.perform inquiry).run m s).1.texts,
      r.path.HiddenIn text ∧ (Scrubber.ofPath r.path).scrub text = text := by
  intro text htext
  have hhidden : r.path.HiddenIn text := by
    rcases (perform_over hscratch).scrubbed text htext with ⟨raw, rfl⟩ | rfl | rfl
    · exact Scrubber.scrub_hides hmark raw
    · exact Path.hiddenIn_of_not_mem r.slash_mem (by decide)
    · exact Path.hiddenIn_of_not_mem r.slash_mem (by decide)
  exact ⟨hhidden, Scrubber.scrub_of_hidden hhidden⟩

/-- A disassembler that prints the path of the file that it is given. -/
theorem disassembly_of_own_path :
    let r : ScratchPath := ⟨Utf8.ofText "/tmp", Utf8.ofText "Ab3", rfl, rfl⟩
    let tools : Tools := fun _ args _ entry =>
      (.exited true (Utf8.ofText (args.headD "")) [], entry)
    let payload := ((Chain.complete.perform (.disassemble [])).run
      (Store.machine tools (.ok r.path)) fun _ => none).1
    payload.texts = ["<source>"] ∧
      ∀ text ∈ payload.texts,
        r.path.HiddenIn text ∧ (Scrubber.ofPath r.path).scrub text = text := by
  intro r tools payload
  refine ⟨by decide +kernel, ?_⟩
  exact Chain.perform_hides Chain.complete (.disassemble []) (Store.machine tools (.ok r.path))
    (fun _ => none) r (by decide +kernel) (by decide +kernel)

end ShaderChain

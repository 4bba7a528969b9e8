import ShaderChain.Proofs.Processes
import Mathlib.Data.List.Chain

/-!
# What an accepted plan guarantees

A plan is accepted only if every tool in it can be used and every two neighbours fit. So the
command of every stage tool can be built (`commandOf_eq_ok`), and of the commands that a plan
expects only the assembler's and the disassembler's can be missing (`lookup_of_missing`).
-/

namespace ShaderChain

namespace Registry

variable {r : Registry} {previous : Option Descriptor} {plan : List PlannedStage}

theorem name_of_lookup {name : String} {tool : Descriptor} (h : r.lookup name = some tool) :
    tool.name = name := by
  have hname := List.find?_some (show r.tools.find? (·.name == name) = some tool from h)
  exact eq_of_beq hname

theorem selectable_eq_ok_iff {name : String} {tool : Descriptor} :
    r.selectable name = .ok tool ↔
      r.lookup name = some tool ∧ tool.spec.offered = true ∧ tool.discovered = true := by
  unfold selectable
  cases r.lookup name with
  | none => simp
  | some found =>
    dsimp only
    constructor
    · intro h
      split at h
      · cases h
      · next hoffered =>
        split at h
        · next hfound =>
          obtain rfl := Except.ok.inj h
          exact ⟨rfl, by simpa using hoffered, hfound⟩
        · cases h
    · rintro ⟨hsame, hoffered, hfound⟩
      obtain rfl := Option.some.inj hsame
      simp [hoffered, hfound]

theorem runnable_eq_ok_iff {name : String} {tool : Descriptor} :
    r.runnable name = .ok tool ↔ r.lookup name = some tool ∧ tool.discovered = true := by
  unfold runnable
  cases r.lookup name with
  | none => simp
  | some found =>
    dsimp only
    constructor
    · intro h
      split at h
      · next hfound =>
        obtain rfl := Except.ok.inj h
        exact ⟨rfl, hfound⟩
      · cases h
    · rintro ⟨hsame, hfound⟩
      obtain rfl := Option.some.inj hsame
      simp [hfound]

/-- The first stage of an accepted plan, and the plan of the others. -/
theorem planAfter_cons {stage : Stage} {rest : List Stage}
    (h : r.planAfter previous (stage :: rest) = .ok plan) :
    ∃ tool tail, r.selectable stage.tool = .ok tool ∧ checkLink previous tool = .ok () ∧
      r.planAfter (some tool) rest = .ok tail ∧
      plan = { tool, flags := stage.flags } :: tail := by
  unfold planAfter at h
  cases hsel : r.selectable stage.tool with
  | error e => simp [hsel] at h
  | ok tool =>
    cases hlink : checkLink previous tool with
    | error e => simp [hsel, hlink] at h
    | ok u =>
      cases htail : r.planAfter (some tool) rest with
      | error e => simp [hsel, hlink, htail, Except.map] at h
      | ok tail =>
        simp only [hsel, hlink, htail, Except.map, Except.ok.injEq] at h
        exact ⟨tool, tail, rfl, hlink, htail, h.symm⟩

theorem planAfter_ne_nil {stages : List Stage} (hne : stages ≠ [])
    (h : r.planAfter previous stages = .ok plan) : plan ≠ [] := by
  cases stages with
  | nil => exact absurd rfl hne
  | cons stage rest =>
    obtain ⟨tool, tail, -, -, -, rfl⟩ := planAfter_cons h
    exact List.cons_ne_nil _ _

/-- The plan of a single stage. -/
theorem plan_singleton {request : Request} {name flags : String} {tool : Descriptor}
    (hstages : request.stages = [⟨name, flags⟩]) (h : r.selectable name = .ok tool) :
    r.plan request = .ok [⟨tool, flags⟩] := by
  simp [plan, hstages, planAfter, h, checkLink, Except.map]

theorem allowed_of_checkLink {before tool : Descriptor}
    (h : checkLink (some before) tool = .ok ()) :
    link before.spec.output tool.spec.input = .allowed := by
  cases hlink : link before.spec.output tool.spec.input with
  | allowed => rfl
  | rejected reason => simp [checkLink, hlink] at h

/-- Every tool of an accepted plan has been found. -/
theorem planAfter_discovered {stages : List Stage} (h : r.planAfter previous stages = .ok plan) :
    ∀ stage ∈ plan, stage.tool.discovered = true := by
  induction stages generalizing previous plan with
  | nil =>
    obtain rfl := Except.ok.inj h
    exact fun _ hmem => nomatch hmem
  | cons stage rest ih =>
    obtain ⟨tool, tail, hsel, -, htail, rfl⟩ := planAfter_cons h
    intro planned hmem
    rcases List.mem_cons.mp hmem with rfl | hmem
    · exact (selectable_eq_ok_iff.mp hsel).2.2
    · exact ih htail planned hmem

/-- A stage may follow another one. -/
def Follows (before after : PlannedStage) : Prop :=
  link before.tool.spec.output after.tool.spec.input = .allowed

/-- Neighbours in an accepted plan fit. -/
theorem planAfter_isChain {stages : List Stage} (h : r.planAfter previous stages = .ok plan) :
    plan.IsChain Follows := by
  induction stages generalizing previous plan with
  | nil =>
    obtain rfl := Except.ok.inj h
    exact .nil
  | cons stage rest ih =>
    obtain ⟨tool, tail, -, -, htail, rfl⟩ := planAfter_cons h
    -- the link to the next stage was checked when that stage was planned
    refine (ih htail).cons fun next hnext => ?_
    cases rest with
    | nil =>
      obtain rfl := Except.ok.inj htail
      cases hnext
    | cons second rest =>
      obtain ⟨tool', tail', -, hlink, -, rfl⟩ := planAfter_cons htail
      obtain rfl := Option.some.inj hnext
      exact allowed_of_checkLink hlink

end Registry

namespace Chain

/-- The command of a tool that has been found can be built. -/
theorem commandOf_eq_ok (path : Path) {tool : Descriptor} (h : tool.discovered = true)
    (flags : String) : ∃ cmd, commandOf path tool flags = .ok cmd := by
  obtain ⟨program, hp⟩ := Option.isSome_iff_exists.mp h
  exact ⟨_, by simp only [commandOf, Command.build, hp]; rfl⟩

/-- A command of the service's own choice is missing only if its tool cannot be looked up. -/
theorem lookup_of_commandNamed {c : Chain} {path : Path} {name flags : String} {e : ChainError}
    (h : c.commandNamed path name flags = .error e) :
    ∃ cause, c.registry.runnable name = .error cause ∧ e = .ofLookup name cause := by
  unfold commandNamed at h
  cases hr : c.registry.runnable name with
  | error cause =>
    rw [hr] at h
    exact ⟨cause, rfl, (Except.error.inj h).symm⟩
  | ok tool =>
    have hfound : tool.discovered = true := (Registry.runnable_eq_ok_iff.mp hr).2
    obtain ⟨cmd, hcmd⟩ := commandOf_eq_ok path hfound flags
    rw [hr] at h
    simp [hcmd] at h

/-- Of the commands of a stage of an accepted plan, only the assembler's and the disassembler's
can be missing. -/
theorem lookup_of_missing {c : Chain} {path : Path} {stage : PlannedStage} {e : ChainError}
    (hfound : stage.tool.discovered = true) (h : .error e ∈ c.commands path stage) :
    ∃ name ∈ [Spec.assemblerName, Spec.disassemblerName], ∃ cause,
      c.registry.runnable name = .error cause ∧ e = .ofLookup name cause := by
  obtain ⟨cmd, hcmd⟩ := commandOf_eq_ok path hfound stage.flags
  simp only [commands, hcmd, List.mem_append, List.mem_singleton, reduceCtorEq, or_false] at h
  rcases h with h | h
  · split at h
    · exact ⟨_, List.mem_cons_self, lookup_of_commandNamed (List.mem_singleton.mp h).symm⟩
    · cases h
  · split at h
    · exact ⟨_, List.mem_cons_of_mem _ List.mem_cons_self,
        lookup_of_commandNamed (List.mem_singleton.mp h).symm⟩
    · cases h

theorem commands_ne_nil (c : Chain) (path : Path) (stage : PlannedStage) :
    c.commands path stage ≠ [] := by
  simp [commands]

end Chain

end ShaderChain

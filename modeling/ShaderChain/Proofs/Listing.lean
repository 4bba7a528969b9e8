import ShaderChain.Proofs.Plan
import ShaderChain.Service.Handling
import Mathlib.Data.List.Nodup

/-!
# What is listed can be requested

The tools that clients are told of, the tools that they may ask for, the requests that have a plan
and the readiness of the service are four things. Where names are distinct they agree
(`Registry.listed_agrees`). All four come down to a tool of the registry that is offered and has been
found: `mem_listed_iff` says so of the list, and `selectable_eq_ok_iff` of the look-up.
-/

namespace ShaderChain

namespace Registry

variable {r : Registry} {name : String} {tool : Descriptor}

/-- An offered tool of this name has not been found. -/
def Withheld (r : Registry) (name : String) : Prop :=
  ∃ tool ∈ r.tools, tool.name = name ∧ tool.spec.offered = true ∧ tool.discovered = false

instance : Decidable (r.Withheld name) :=
  inferInstanceAs (Decidable (∃ tool ∈ r.tools, _))

/-! ## Listing and looking up -/

theorem mem_listed_iff :
    name ∈ r.listed ↔
      ∃ tool ∈ r.tools, tool.name = name ∧ tool.spec.offered = true ∧ tool.discovered = true := by
  simp only [listed, List.mem_map, List.mem_filter, Bool.and_eq_true]
  constructor
  · rintro ⟨tool, ⟨hmem, hoffered, hfound⟩, hname⟩
    exact ⟨tool, hmem, hname, hoffered, hfound⟩
  · rintro ⟨tool, hmem, hname, hoffered, hfound⟩
    exact ⟨tool, ⟨hmem, hoffered, hfound⟩, hname⟩

theorem listed_sublist (r : Registry) : r.listed.Sublist (r.tools.map Descriptor.name) :=
  List.filter_sublist.map _

/-- Where names are distinct, a look-up finds the one tool of the name. -/
theorem lookup_eq_some_iff (hnames : (r.tools.map Descriptor.name).Nodup) :
    r.lookup name = some tool ↔ tool ∈ r.tools ∧ tool.name = name := by
  constructor
  · intro h
    exact ⟨List.mem_of_find?_eq_some h, name_of_lookup h⟩
  · rintro ⟨hmem, hname⟩
    cases hlookup : r.lookup name with
    | none =>
      have hnot := List.find?_eq_none.mp hlookup tool hmem
      exact absurd (beq_iff_eq.mpr hname) hnot
    | some other =>
      have hsame := (name_of_lookup hlookup).trans hname.symm
      exact congrArg some
        (List.inj_on_of_nodup_map hnames (List.mem_of_find?_eq_some hlookup) hmem hsame)

/-- Where names are distinct, clients may ask for exactly the tools that they are told of. -/
theorem mem_listed_iff_selectable (hnames : (r.tools.map Descriptor.name).Nodup) :
    name ∈ r.listed ↔ ∃ tool, r.selectable name = .ok tool := by
  simp only [mem_listed_iff, selectable_eq_ok_iff, lookup_eq_some_iff hnames, and_assoc]

/-- A name that is not listed is unavailable if an offered tool has it, and else not known. -/
theorem selectable_of_not_listed (hnames : (r.tools.map Descriptor.name).Nodup)
    (h : name ∉ r.listed) :
    r.selectable name = .error (if r.Withheld name then .unavailable else .notFound) := by
  unfold selectable
  cases hlookup : r.lookup name with
  | none =>
    have hnot : ¬ r.Withheld name := by
      rintro ⟨tool, hmem, hname, -⟩
      cases hlookup.symm.trans ((lookup_eq_some_iff hnames).mpr ⟨hmem, hname⟩)
    rw [if_neg hnot]
  | some tool =>
    obtain ⟨hmem, hname⟩ := (lookup_eq_some_iff hnames).mp hlookup
    cases hoffered : tool.spec.offered with
    | false =>
      have hnot : ¬ r.Withheld name := by
        -- another tool of this name would be the same one
        rintro ⟨other, hother, hsame, hoffers, -⟩
        obtain rfl := Option.some.inj
          (hlookup.symm.trans ((lookup_eq_some_iff hnames).mpr ⟨hother, hsame⟩))
        cases hoffered.symm.trans hoffers
      rw [if_neg hnot]
      simp [hoffered]
    | true =>
      cases hfound : tool.discovered with
      | true => exact absurd (mem_listed_iff.mpr ⟨tool, hmem, hname, hoffered, hfound⟩) h
      | false =>
        rw [if_pos ⟨tool, hmem, hname, hoffered, hfound⟩]
        simp [hoffered, hfound]

/-! ## Planning -/

/-- A request for one stage has a plan exactly if its tool can be asked for. -/
theorem plan_singleton_iff {request : Request} {flags : String}
    (hstages : request.stages = [⟨name, flags⟩]) :
    (∃ plan, r.plan request = .ok plan) ↔ ∃ tool, r.selectable name = .ok tool := by
  constructor
  · rintro ⟨plan, hplan⟩
    rw [Registry.plan, hstages] at hplan
    obtain ⟨tool, -, hselected, -⟩ := planAfter_cons hplan
    exact ⟨tool, hselected⟩
  · rintro ⟨tool, hselected⟩
    exact ⟨_, plan_singleton hstages hselected⟩

theorem plan_singleton_error {request : Request} {flags : String} {cause : LookupError}
    (hstages : request.stages = [⟨name, flags⟩]) (h : r.selectable name = .error cause) :
    r.plan request = .error (.ofLookup name cause) := by
  simp [plan, hstages, planAfter, h]

/-- Every tool of an accepted plan could be asked for by its name. -/
theorem planAfter_selectable {previous : Option Descriptor} {stages : List Stage}
    {plan : List PlannedStage} (h : r.planAfter previous stages = .ok plan) :
    ∀ stage ∈ plan, r.selectable stage.tool.name = .ok stage.tool := by
  induction stages generalizing previous plan with
  | nil =>
    obtain rfl := Except.ok.inj h
    exact fun _ hmem => nomatch hmem
  | cons stage rest ih =>
    obtain ⟨tool, tail, hselected, -, htail, rfl⟩ := planAfter_cons h
    refine List.forall_mem_cons.mpr ⟨?_, ih htail⟩
    have hname : tool.name = stage.tool := name_of_lookup (selectable_eq_ok_iff.mp hselected).1
    rw [hname]
    exact hselected

/-- **What is listed can be requested.** In a registry of tools with distinct names, a name is listed
exactly if a client may ask for it, and exactly if a request for it alone has a plan; every tool of an
accepted plan is listed. The list has no name twice and keeps the order of the registry. A name that
is not listed is unavailable if an offered tool has it that was not found, and else not known; in
particular a tool that is not offered is answered as one that does not exist. The service is ready
exactly if something is listed, which is to say that some request has a plan. -/
theorem listed_agrees (hnames : (r.tools.map Descriptor.name).Nodup) (config : Config) :
    (∀ name, (name ∈ r.listed ↔ ∃ tool, r.selectable name = .ok tool) ∧
      ∀ (request : Request) flags, request.stages = [⟨name, flags⟩] →
        (name ∈ r.listed ↔ ∃ plan, r.plan request = .ok plan)) ∧
    (∀ request plan, r.plan request = .ok plan → ∀ stage ∈ plan, stage.tool.name ∈ r.listed) ∧
    r.listed.Nodup ∧ r.listed.Sublist (r.tools.map Descriptor.name) ∧
    (∀ name, name ∉ r.listed →
      r.selectable name = .error (if r.Withheld name then .unavailable else .notFound)) ∧
    (∀ name, (∀ tool ∈ r.tools, tool.name = name → tool.spec.offered = false) →
      r.selectable name = .error .notFound ∧
      ∀ (request : Request) flags, request.stages = [⟨name, flags⟩] →
        r.plan request = .error (.unknownTool name)) ∧
    ((Service.of config r).ready = true ↔ r.listed ≠ []) ∧
    ((Service.of config r).ready = true ↔
      ∃ request plan, (Service.of config r).chain.registry.plan request = .ok plan) := by
  have hselectable : ∀ name, name ∈ r.listed ↔ ∃ tool, r.selectable name = .ok tool :=
    fun _ => mem_listed_iff_selectable hnames
  have hplanned : ∀ request plan, r.plan request = .ok plan →
      ∀ stage ∈ plan, stage.tool.name ∈ r.listed := fun request plan hplan stage hstage =>
    (hselectable _).mpr ⟨_, planAfter_selectable hplan stage hstage⟩
  have hready : (Service.of config r).ready = true ↔ r.listed ≠ [] := by
    simp [Service.ready, Service.of]
  refine ⟨fun name => ⟨hselectable name, fun request flags hstages => ?_⟩, hplanned,
    hnames.sublist r.listed_sublist, r.listed_sublist, fun name => selectable_of_not_listed hnames,
    fun name hhidden => ?_, hready, hready.trans ⟨fun hlisted => ?_, ?_⟩⟩
  · exact (hselectable name).trans (plan_singleton_iff hstages).symm
  · have hunlisted : name ∉ r.listed := by
      intro hlisted
      obtain ⟨tool, hmem, hname, hoffered, -⟩ := mem_listed_iff.mp hlisted
      cases hoffered.symm.trans (hhidden tool hmem hname)
    have hnot : ¬ r.Withheld name := by
      rintro ⟨tool, hmem, hname, hoffered, -⟩
      cases hoffered.symm.trans (hhidden tool hmem hname)
    have hunknown := selectable_of_not_listed hnames hunlisted
    rw [if_neg hnot] at hunknown
    exact ⟨hunknown, fun request flags hstages => plan_singleton_error hstages hunknown⟩
  · obtain ⟨name, hname⟩ := List.exists_mem_of_ne_nil _ hlisted
    let request : Request :=
      { source := "", stages := [⟨name, ""⟩], stages_ne := List.cons_ne_nil _ _
        stages_le := by simp [maxStages] }
    exact ⟨request, (plan_singleton_iff rfl).mpr ((hselectable name).mp hname)⟩
  · rintro ⟨request, plan, hplan⟩
    obtain ⟨stage, hstage⟩ := List.exists_mem_of_ne_nil plan (planAfter_ne_nil request.stages_ne hplan)
    exact List.ne_nil_of_mem (hplanned request plan hplan stage hstage)

/-- A registry in which the assembler has been found, which is not offered, and the optimizer has
not. -/
theorem listing_of_partial_registry :
    let r : Registry := ⟨[.of .dxc (some (Utf8.ofText "dxc")), .of .optimizer none,
      .of .assembler (some (Utf8.ofText "spirv-as"))]⟩
    r.listed = ["dxc"] ∧
      (∃ tool, r.selectable "dxc" = .ok tool) ∧
      r.selectable "spirv-opt" = .error .unavailable ∧
      r.selectable "spirv-as" = .error .notFound ∧ r.selectable "nothing" = .error .notFound := by
  intro r
  have hnames : (r.tools.map Descriptor.name).Nodup := by decide
  have hlisted : r.listed = ["dxc"] := by decide
  obtain ⟨hselectable, -, -, -, hunlisted, hhidden, -⟩ := listed_agrees hnames {}
  refine ⟨hlisted, (hselectable "dxc").1.mp (by rw [hlisted]; decide), ?_, ?_, ?_⟩
  · exact (hunlisted "spirv-opt" (by rw [hlisted]; decide)).trans (by decide)
  · exact (hhidden "spirv-as" (by decide)).1
  · exact (hhidden "nothing" (by decide)).1

end Registry

end ShaderChain

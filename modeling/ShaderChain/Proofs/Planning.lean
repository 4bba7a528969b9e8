import ShaderChain.Proofs.Plan

/-!
# Which requests have a plan, and which fault is told of the others

Two things can be wrong with a stage: its tool cannot be asked for (`Registry.Unusable`), or what the
stage before it makes is not handed on to it (`Registry.Unfit`). Stages have a plan exactly if
nothing is wrong with any of them. Else the plan is refused for the first stage with which something
is wrong, and what is wrong with the stage by itself comes first.

The planner looks at the stages from the left. `Registry.planAfter_concat` says what one more stage
at the end changes; it is checked against the tool that was planned last (`planNext_error`,
`planNext_ok`). From this step `Registry.judged` follows by induction on the stages, and the main
statement is `Registry.plan_sound_complete`.
-/

namespace ShaderChain

namespace Registry

variable {r : Registry} {stages ss : List Stage} {stage before : Stage} {e e' : ChainError}
  {i j : Nat}

/-! ## What can be wrong with a stage -/

/-- What is wrong with a stage by itself. A tool that is not offered counts as not known. -/
inductive Unusable (r : Registry) (stage : Stage) : ChainError → Prop
  | unknown (h : ∀ tool, r.lookup stage.tool = some tool → tool.spec.offered = false) :
    Unusable r stage (.unknownTool stage.tool)
  | unavailable {tool : Descriptor} (h : r.lookup stage.tool = some tool)
    (hoffered : tool.spec.offered = true) (hlost : tool.discovered = false) :
    Unusable r stage (.unavailable stage.tool)

/-- What is wrong with a stage after the one before it. -/
inductive Unfit (r : Registry) (before stage : Stage) : ChainError → Prop
  | rejected {a b : Descriptor} {reason : String} (ha : r.lookup before.tool = some a)
    (hb : r.lookup stage.tool = some b)
    (hlink : link a.spec.output b.spec.input = .rejected reason) :
    Unfit r before stage (.incompatible before.tool stage.tool reason)

/-- The stage at position `i` is wrong by itself. -/
def UnusableAt (r : Registry) (stages : List Stage) (i : Nat) (e : ChainError) : Prop :=
  ∃ stage, stages[i]? = some stage ∧ r.Unusable stage e

/-- The stage at position `i` is wrong after the one before it. -/
def UnfitAt (r : Registry) (stages : List Stage) (i : Nat) (e : ChainError) : Prop :=
  ∃ before stage, 0 < i ∧ stages[i - 1]? = some before ∧ stages[i]? = some stage ∧
    r.Unfit before stage e

/-- Something is wrong with the stage at position `i`. -/
def BadAt (r : Registry) (stages : List Stage) (i : Nat) : Prop :=
  ∃ e, r.UnusableAt stages i e ∨ r.UnfitAt stages i e

/-- What is told of the stage at position `i`: what is wrong with it by itself comes first. -/
def ToldAt (r : Registry) (stages : List Stage) (i : Nat) (e : ChainError) : Prop :=
  r.UnusableAt stages i e ∨ (∀ e', ¬ r.UnusableAt stages i e') ∧ r.UnfitAt stages i e

/-- The tools of two stages are known, and what the first one makes may be handed to the second. -/
def Fits (r : Registry) (before stage : Stage) : Prop :=
  ∃ a b, r.lookup before.tool = some a ∧ r.lookup stage.tool = some b ∧
    link a.spec.output b.spec.input = .allowed

/-- A stage is planned with its tool and its flags. -/
def Plans (r : Registry) (stage : Stage) (planned : PlannedStage) : Prop :=
  r.lookup stage.tool = some planned.tool ∧ planned.flags = stage.flags

/-- A stage is wrong by itself exactly if its tool cannot be asked for. -/
theorem unusable_iff : r.Unusable stage e ↔
    ∃ cause, r.selectable stage.tool = .error cause ∧ e = .ofLookup stage.tool cause := by
  unfold selectable
  constructor
  · rintro (hhidden | ⟨hlookup, hoffered, hlost⟩)
    · refine ⟨.notFound, ?_, rfl⟩
      cases hlookup : r.lookup stage.tool with
      | none => rfl
      | some tool => simp [hhidden tool hlookup]
    · exact ⟨.unavailable, by simp [hlookup, hoffered, hlost], rfl⟩
  · rintro ⟨cause, hcause, rfl⟩
    cases hlookup : r.lookup stage.tool with
    | none =>
      rw [hlookup] at hcause
      obtain rfl := Except.error.inj hcause
      exact .unknown fun tool htool => nomatch hlookup.symm.trans htool
    | some tool =>
      simp only [hlookup] at hcause
      split at hcause
      · next hhidden =>
        obtain rfl := Except.error.inj hcause
        refine .unknown fun other hother => ?_
        obtain rfl := Option.some.inj (hlookup.symm.trans hother)
        simpa using hhidden
      · next hoffered =>
        split at hcause
        · cases hcause
        · next hlost =>
          obtain rfl := Except.error.inj hcause
          exact .unavailable hlookup (by simpa using hoffered) (by simpa using hlost)

/-- Nothing is wrong by itself with a stage whose tool can be asked for. -/
theorem not_unusable {tool : Descriptor} (h : r.selectable stage.tool = .ok tool) :
    ∀ e, ¬ r.Unusable stage e := by
  intro e hbad
  obtain ⟨cause, hcause, -⟩ := unusable_iff.mp hbad
  cases h.symm.trans hcause

/-- If nothing is wrong with it by itself, its tool can be asked for. -/
theorem exists_selectable (h : ∀ e, ¬ r.Unusable stage e) :
    ∃ tool, r.selectable stage.tool = .ok tool := by
  cases hsel : r.selectable stage.tool with
  | ok tool => exact ⟨tool, rfl⟩
  | error cause => exact absurd (unusable_iff.mpr ⟨cause, hsel, rfl⟩) (h _)

/-- One thing is wrong with a stage by itself. -/
theorem Unusable.unique (h : r.Unusable stage e) (h' : r.Unusable stage e') : e = e' := by
  obtain ⟨cause, hcause, rfl⟩ := unusable_iff.mp h
  obtain ⟨cause', hcause', rfl⟩ := unusable_iff.mp h'
  obtain rfl := Except.error.inj (hcause.symm.trans hcause')
  rfl

/-- One thing is wrong with it after the one before it. -/
theorem Unfit.unique (h : r.Unfit before stage e) (h' : r.Unfit before stage e') : e = e' := by
  obtain ⟨ha, hb, hlink⟩ := h
  obtain ⟨ha', hb', hlink'⟩ := h'
  obtain rfl := Option.some.inj (ha.symm.trans ha')
  obtain rfl := Option.some.inj (hb.symm.trans hb')
  obtain rfl := Link.rejected.inj (hlink.symm.trans hlink')
  rfl

theorem ToldAt.badAt (h : r.ToldAt stages i e) : r.BadAt stages i :=
  ⟨e, h.imp_right And.right⟩

/-- One thing is told of a stage. -/
theorem ToldAt.unique (h : r.ToldAt stages i e) (h' : r.ToldAt stages i e') : e = e' := by
  rcases h with hown | ⟨hnone, before, stage, -, hbefore, hstage, hunfit⟩
  · rcases h' with hown' | ⟨hnone', -⟩
    · obtain ⟨stage, hstage, hunusable⟩ := hown
      obtain ⟨stage', hstage', hunusable'⟩ := hown'
      obtain rfl := Option.some.inj (hstage.symm.trans hstage')
      exact hunusable.unique hunusable'
    · exact absurd hown (hnone' e)
  · rcases h' with hown' | ⟨-, before', stage', -, hbefore', hstage', hunfit'⟩
    · exact absurd hown' (hnone e')
    · obtain rfl := Option.some.inj (hbefore.symm.trans hbefore')
      obtain rfl := Option.some.inj (hstage.symm.trans hstage')
      exact hunfit.unique hunfit'

/-! ### One more stage -/

theorem unusableAt_append (hj : j < ss.length) :
    r.UnusableAt (ss ++ [stage]) j e ↔ r.UnusableAt ss j e := by
  rw [UnusableAt, UnusableAt, List.getElem?_append_left hj]

theorem unfitAt_append (hj : j < ss.length) :
    r.UnfitAt (ss ++ [stage]) j e ↔ r.UnfitAt ss j e := by
  rw [UnfitAt, UnfitAt, List.getElem?_append_left hj,
    List.getElem?_append_left (Nat.lt_of_le_of_lt (Nat.sub_le j 1) hj)]

/-- One more stage at the end changes nothing for those before it. -/
theorem badAt_append (hj : j < ss.length) : r.BadAt (ss ++ [stage]) j ↔ r.BadAt ss j :=
  exists_congr fun _ => or_congr (unusableAt_append hj) (unfitAt_append hj)

theorem toldAt_append (hj : j < ss.length) :
    r.ToldAt (ss ++ [stage]) j e ↔ r.ToldAt ss j e :=
  or_congr (unusableAt_append hj) (and_congr
    (forall_congr' fun _ => not_congr (unusableAt_append hj)) (unfitAt_append hj))

/-- Only stages that there are can be bad. -/
theorem BadAt.lt_length (h : r.BadAt stages i) : i < stages.length := by
  obtain ⟨e, ⟨stage, hstage, -⟩ | ⟨before, stage, -, -, hstage, -⟩⟩ := h
  · exact (List.getElem?_eq_some_iff.mp hstage).1
  · exact (List.getElem?_eq_some_iff.mp hstage).1

theorem unusableAt_last : r.UnusableAt (ss ++ [stage]) ss.length e ↔ r.Unusable stage e := by
  simp [UnusableAt]

/-- The last stage is looked at after the one that was last before. -/
theorem unfitAt_last : r.UnfitAt (ss ++ [stage]) ss.length e ↔
    ∃ before, ss.getLast? = some before ∧ r.Unfit before stage e := by
  unfold UnfitAt
  rw [List.getElem?_concat_length, List.getLast?_eq_getElem?]
  constructor
  · rintro ⟨before, last, hpos, hbefore, hlast, hunfit⟩
    obtain rfl := Option.some.inj hlast
    rw [List.getElem?_append_left (Nat.sub_lt hpos Nat.one_pos)] at hbefore
    exact ⟨before, hbefore, hunfit⟩
  · rintro ⟨before, hbefore, hunfit⟩
    have hlt := (List.getElem?_eq_some_iff.mp hbefore).1
    have hpos : 0 < ss.length := Nat.zero_lt_of_lt hlt
    exact ⟨before, stage, hpos, (List.getElem?_append_left hlt).trans hbefore, rfl, hunfit⟩

/-! ## Planning from the left -/

/-- Plans one stage after a tool. -/
def planNext (r : Registry) (previous : Option Descriptor) (stage : Stage) :
    Except ChainError PlannedStage :=
  match r.selectable stage.tool with
  | .error cause => .error (.ofLookup stage.tool cause)
  | .ok tool => (checkLink previous tool).map fun () => { tool, flags := stage.flags }

/-- The last stage is planned after the others, and after the tool that was planned last. -/
theorem planAfter_concat (r : Registry) (previous : Option Descriptor) (ss : List Stage)
    (stage : Stage) :
    r.planAfter previous (ss ++ [stage]) = (do
      let plan ← r.planAfter previous ss
      let planned ← r.planNext ((plan.getLast?.map PlannedStage.tool).or previous) stage
      return plan ++ [planned]) := by
  induction ss generalizing previous with
  | nil =>
    show r.planAfter previous [stage] = (do
      let planned ← r.planNext previous stage
      return [planned])
    rw [planAfter, planNext]
    cases r.selectable stage.tool with
    | error cause => rfl
    | ok tool =>
      dsimp only
      cases checkLink previous tool <;> rfl
  | cons first ss ih =>
    rw [List.cons_append, planAfter, planAfter]
    cases r.selectable first.tool with
    | error cause => rfl
    | ok tool =>
      dsimp only
      cases checkLink previous tool with
      | error e => rfl
      | ok u =>
        dsimp only
        rw [ih]
        cases r.planAfter (some tool) ss with
        | error e => rfl
        | ok plan =>
          -- the tool planned last is that of the rest, or of the first stage
          have hlast : ((({ tool, flags := first.flags } : PlannedStage) :: plan).getLast?.map
              PlannedStage.tool).or previous = (plan.getLast?.map PlannedStage.tool).or tool := by
            rw [List.getLast?_cons]
            cases plan.getLast? <;> rfl
          show _ = (do
            let planned ← r.planNext _ stage
            return _)
          rw [hlast]
          show Except.map _ (do
            let planned ← r.planNext _ stage
            return _) = _
          cases r.planNext ((plan.getLast?.map PlannedStage.tool).or tool) stage <;> rfl

/-- Why the next stage is not planned after the last stage before it, if there is one. -/
theorem planNext_error {last : Option Stage}
    (h : r.planNext (last.bind (r.lookup ·.tool)) stage = .error e) :
    r.Unusable stage e ∨ (∀ e', ¬ r.Unusable stage e') ∧
      ∃ before, last = some before ∧ r.Unfit before stage e := by
  unfold planNext at h
  cases hsel : r.selectable stage.tool with
  | error cause =>
    rw [hsel] at h
    obtain rfl := Except.error.inj h
    exact .inl (unusable_iff.mpr ⟨cause, hsel, rfl⟩)
  | ok tool =>
    rw [hsel] at h
    have hlookup := (selectable_eq_ok_iff.mp hsel).1
    refine .inr ⟨not_unusable hsel, ?_⟩
    cases last with
    | none => cases h
    | some before =>
      refine ⟨before, rfl, ?_⟩
      cases ha : r.lookup before.tool with
      | none => simp [ha, checkLink, Except.map] at h
      | some a =>
        cases hlink : link a.spec.output tool.spec.input with
        | allowed => simp [ha, checkLink, hlink, Except.map] at h
        | rejected reason =>
          simp only [Option.bind_some, ha, checkLink, hlink, Except.map] at h
          obtain rfl := Except.error.inj h
          rw [name_of_lookup ha, name_of_lookup hlookup]
          exact .rejected ha hlookup hlink

/-- If the next stage is planned, nothing is wrong with it. -/
theorem planNext_ok {last : Option Stage} {planned : PlannedStage}
    (h : r.planNext (last.bind (r.lookup ·.tool)) stage = .ok planned) :
    r.Plans stage planned ∧ (∀ e, ¬ r.Unusable stage e) ∧
      ∀ before e, last = some before → ¬ r.Unfit before stage e := by
  unfold planNext at h
  cases hsel : r.selectable stage.tool with
  | error cause => simp [hsel] at h
  | ok tool =>
    have hlookup := (selectable_eq_ok_iff.mp hsel).1
    simp only [hsel] at h
    cases hcheck : checkLink (last.bind (r.lookup ·.tool)) tool with
    | error e => simp [hcheck, Except.map] at h
    | ok u =>
      rw [hcheck] at h
      obtain rfl := Except.ok.inj h
      refine ⟨⟨hlookup, rfl⟩, not_unusable hsel, ?_⟩
      rintro before _ rfl ⟨ha, hb, hlink⟩
      obtain rfl := Option.some.inj (hlookup.symm.trans hb)
      simp [ha, checkLink, hlink] at hcheck

/-- What the planner comes to is what the stages deserve: a plan, which ends in the tool of the last
stage, if nothing is wrong with any of them, and else what is told of the first one that is bad. -/
def Judged (r : Registry) (stages : List Stage) : Except ChainError (List PlannedStage) → Prop
  | .ok plan =>
    plan.getLast?.map PlannedStage.tool = stages.getLast?.bind (r.lookup ·.tool) ∧
      ∀ i, ¬ r.BadAt stages i
  | .error e => ∃ i, (∀ j < i, ¬ r.BadAt stages j) ∧ r.ToldAt stages i e

/-- The planner judges stages as they deserve. -/
theorem judged (r : Registry) (stages : List Stage) :
    r.Judged stages (r.planAfter none stages) := by
  -- the induction adds stages at the end, so that what was bad before stays where it is
  induction stages using List.reverseRecOn with
  | nil => exact ⟨rfl, fun i hbad => Nat.not_lt_zero i hbad.lt_length⟩
  | append_singleton ss stage ih =>
    rw [planAfter_concat]
    cases hplan : r.planAfter none ss with
    | error e =>
      rw [hplan] at ih
      obtain ⟨i, hfirst, htold⟩ := ih
      have hi := htold.badAt.lt_length
      exact ⟨i, fun j hj hbad => hfirst j hj ((badAt_append (hj.trans hi)).mp hbad),
        (toldAt_append hi).mpr htold⟩
    | ok plan =>
      rw [hplan] at ih
      obtain ⟨hlast, hgood⟩ := ih
      have hgood' : ∀ j < ss.length, ¬ r.BadAt (ss ++ [stage]) j := fun j hj hbad =>
        hgood j ((badAt_append hj).mp hbad)
      show r.Judged (ss ++ [stage]) (do
        let planned ← r.planNext ((plan.getLast?.map PlannedStage.tool).or none) stage
        return plan ++ [planned])
      rw [Option.or_none, hlast]
      cases hnext : r.planNext (ss.getLast?.bind (r.lookup ·.tool)) stage with
      | error e =>
        refine ⟨ss.length, hgood', ?_⟩
        rcases planNext_error hnext with hunusable | ⟨hnone, hunfit⟩
        · exact .inl (unusableAt_last.mpr hunusable)
        · exact .inr ⟨fun e' hown => hnone e' (unusableAt_last.mp hown), unfitAt_last.mpr hunfit⟩
      | ok planned =>
        obtain ⟨⟨hlookup, -⟩, hnone, hfits⟩ := planNext_ok hnext
        refine ⟨?_, fun i hbad => ?_⟩
        · rw [List.getLast?_concat, List.getLast?_concat]
          exact hlookup.symm
        · have hle : i ≤ ss.length := by
            have hi := hbad.lt_length
            rw [List.length_append] at hi
            exact Nat.le_of_lt_succ hi
          rcases Nat.lt_or_eq_of_le hle with hi | rfl
          · exact hgood' i hi hbad
          · obtain ⟨e, hown | hunfit⟩ := hbad
            · exact hnone e (unusableAt_last.mp hown)
            · obtain ⟨before, hbefore, hunfit⟩ := unfitAt_last.mp hunfit
              exact hfits before e hbefore hunfit

/-! ## Accepted and refused requests -/

theorem planAfter_eq_error_iff : r.planAfter none stages = .error e ↔
    ∃ i, (∀ j < i, ¬ r.BadAt stages j) ∧ r.ToldAt stages i e := by
  have hjudged := r.judged stages
  constructor
  · intro h
    rw [h] at hjudged
    exact hjudged
  · rintro ⟨i, hfirst, htold⟩
    cases hplan : r.planAfter none stages with
    | ok plan =>
      rw [hplan] at hjudged
      exact absurd htold.badAt (hjudged.2 i)
    | error e' =>
      rw [hplan] at hjudged
      obtain ⟨i', hfirst', htold'⟩ := hjudged
      rcases Nat.lt_trichotomy i i' with hlt | rfl | hlt
      · exact absurd htold.badAt (hfirst' i hlt)
      · rw [htold.unique htold']
      · exact absurd htold'.badAt (hfirst i' hlt)

theorem exists_planAfter_iff : (∃ plan, r.planAfter none stages = .ok plan) ↔
    ∀ i, ¬ r.BadAt stages i := by
  have hjudged := r.judged stages
  constructor
  · rintro ⟨plan, hplan⟩
    rw [hplan] at hjudged
    exact hjudged.2
  · intro hgood
    cases hplan : r.planAfter none stages with
    | ok plan => exact ⟨plan, rfl⟩
    | error e =>
      rw [hplan] at hjudged
      obtain ⟨i, -, htold⟩ := hjudged
      exact absurd htold.badAt (hgood i)

/-- Nothing is wrong with any stage exactly if all tools can be asked for and neighbours fit. -/
theorem forall_not_badAt_iff : (∀ i, ¬ r.BadAt stages i) ↔
    (∀ stage ∈ stages, ∃ tool, r.selectable stage.tool = .ok tool) ∧ stages.IsChain r.Fits := by
  constructor
  · intro hgood
    have hselectable : ∀ stage ∈ stages, ∃ tool, r.selectable stage.tool = .ok tool := by
      intro stage hstage
      obtain ⟨i, hi⟩ := List.mem_iff_getElem?.mp hstage
      exact exists_selectable fun e hbad => hgood i ⟨e, .inl ⟨stage, hi, hbad⟩⟩
    refine ⟨hselectable, List.isChain_iff_getElem.mpr fun i hi => ?_⟩
    obtain ⟨a, ha⟩ := hselectable stages[i] (List.getElem_mem _)
    obtain ⟨b, hb⟩ := hselectable stages[i + 1] (List.getElem_mem _)
    have ha := (selectable_eq_ok_iff.mp ha).1
    have hb := (selectable_eq_ok_iff.mp hb).1
    refine ⟨a, b, ha, hb, ?_⟩
    cases hlink : link a.spec.output b.spec.input with
    | allowed => rfl
    | rejected reason =>
      refine absurd ?_ (hgood (i + 1))
      exact ⟨_, .inr ⟨stages[i], stages[i + 1], Nat.succ_pos i,
        List.getElem?_eq_getElem (Nat.lt_of_succ_lt hi), List.getElem?_eq_getElem hi,
        .rejected ha hb hlink⟩⟩
  · rintro ⟨hselectable, hfits⟩ i ⟨e, ⟨stage, hstage, hbad⟩ | hunfit⟩
    · obtain ⟨tool, htool⟩ := hselectable stage (List.mem_of_getElem? hstage)
      exact not_unusable htool e hbad
    · obtain ⟨before, stage, hpos, hbefore, hstage, ha, hb, hlink⟩ := hunfit
      obtain ⟨k, rfl⟩ := Nat.exists_eq_succ_of_ne_zero hpos.ne'
      obtain ⟨hi, rfl⟩ := List.getElem?_eq_some_iff.mp hstage
      obtain ⟨hk, rfl⟩ := List.getElem?_eq_some_iff.mp hbefore
      obtain ⟨a, b, ha', hb', hallowed⟩ := List.isChain_iff_getElem.mp hfits k hi
      obtain rfl := Option.some.inj (ha.symm.trans ha')
      obtain rfl := Option.some.inj (hb.symm.trans hb')
      cases hlink.symm.trans hallowed

/-- A plan consists of the tools of the stages, with their flags. -/
theorem planAfter_plans {previous : Option Descriptor} {plan : List PlannedStage}
    (h : r.planAfter previous stages = .ok plan) : stages.Forall₂ r.Plans plan := by
  induction stages generalizing previous plan with
  | nil =>
    obtain rfl := Except.ok.inj h
    exact .nil
  | cons stage rest ih =>
    obtain ⟨tool, tail, hsel, -, htail, rfl⟩ := planAfter_cons h
    exact .cons ⟨(selectable_eq_ok_iff.mp hsel).1, rfl⟩ (ih htail)

/-- Only the last of stages that follow one another makes a mere status. -/
theorem output_ne_status {plan : List PlannedStage} (h : plan.IsChain Follows) :
    ∀ planned ∈ plan.dropLast, planned.tool.spec.output ≠ .status := by
  induction plan with
  | nil => exact fun _ hmem => nomatch hmem
  | cons first rest ih =>
    cases rest with
    | nil => exact fun _ hmem => nomatch hmem
    | cons second rest =>
      obtain ⟨hfollows, hrest⟩ := List.isChain_cons_cons.mp h
      rw [List.dropLast_cons_cons]
      exact List.forall_mem_cons.mpr ⟨(link_eq_allowed_iff.mp hfollows).2, ih hrest⟩

/-- **Which requests have a plan.** A request has a plan exactly if every tool in it can be asked for
and neighbours fit. The plan then has the tools that were looked up, with the flags of the request,
one for one and in order; each stage after the first takes the kind that the one before it makes, and
no stage but the last makes a mere status. Else the error is that of the first stage with which
something is wrong: if its tool is not known or not offered, that it is unknown, and if it was not
found, that it is unavailable; only if its tool can be asked for, that it is incompatible with the
tool right before it. -/
theorem plan_sound_complete (r : Registry) (request : Request) :
    let stages := request.stages
    ((∃ plan, r.plan request = .ok plan) ↔
      (∀ stage ∈ stages, ∃ tool, r.selectable stage.tool = .ok tool) ∧
        stages.IsChain r.Fits) ∧
    (∀ plan, r.plan request = .ok plan → stages.Forall₂ r.Plans plan ∧
      plan.IsChain (fun a b => b.tool.spec.input = a.tool.spec.output) ∧
      ∀ planned ∈ plan.dropLast, planned.tool.spec.output ≠ .status) ∧
    ∀ e, r.plan request = .error e ↔ ∃ i, (∀ j < i, ¬ r.BadAt stages j) ∧
      (r.UnusableAt stages i e ∨
        (∀ e', ¬ r.UnusableAt stages i e') ∧ r.UnfitAt stages i e) := by
  intro stages
  refine ⟨exists_planAfter_iff.trans forall_not_badAt_iff, fun plan hplan => ?_,
    fun e => planAfter_eq_error_iff⟩
  have hchain : plan.IsChain Follows := planAfter_isChain hplan
  refine ⟨planAfter_plans hplan, hchain.imp fun a b hfollows => ?_, output_ne_status hchain⟩
  exact (link_eq_allowed_iff.mp hfollows).1.symm

/-- A tool that takes source text does not fit behind a compiler; it is told first that the tool was
not found. -/
example :
    let found (spec : Spec) : Option Path := if spec.name = "dxc" then some [0x78] else none
    let r : Registry := { tools := catalog.map fun spec => .of spec (found spec) }
    r.planAfter none [{ tool := "dxc", flags := "" }, { tool := "glslangValidator", flags := "" }] =
      .error (.unavailable "glslangValidator") := by
  rfl

end Registry

end ShaderChain

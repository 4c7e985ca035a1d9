import SystemDetection.Patches.Selection

open effect store systemdetection.patches.memory systemdetection.patches.sigscan

namespace systemdetection.patches

variable {σ : Type} {os : Os σ} {image : ModuleImage} {snapshot : Store UInt8} {before after : World σ}

/-- A write that was validated is the one of its guard, which held then. -/
theorem validated_ok {guard : Guard} {target : Nat} {write : CheckedWrite}
    (hvalidated : CheckedWrite.validated os target guard.expected guard.replacement before =
      (.ok write, after)) :
    write = guard.write target ∧ guard.Held before.memory target ∧ after.memory = before.memory := by
  obtain ⟨state, next, hvalidate, hpure⟩ := Action.bind_eq_ok_iff.mp hvalidated
  have hheld := Guard.held_of_validated (Action.map_err_eq_ok_iff.mp hvalidate)
  cases hpure
  exact ⟨rfl, hheld⟩

theorem single_ok {guard : Guard} {target : Nat} {plan : PatchPlan}
    (hsingle : PatchPlan.single os target guard.expected guard.replacement before = (.ok plan, after)) :
    plan.writes = [guard.write target] ∧ guard.Held before.memory target := by
  obtain ⟨write, next, hvalidated, hplan⟩ := Action.bind_eq_ok_iff.mp hsingle
  obtain ⟨rfl, hheld, _⟩ := validated_ok hvalidated
  exact ⟨PatchPlan.new_eq_ok_iff.mp (Prod.mk.inj hplan).1, hheld⟩

/-- A plan at a fixed RVA has selected its site. -/
theorem fixed_plan_selects {guard : Guard} {scope : ScanScope} {target_rva : Nat} {plan : PatchPlan}
    (hplan : fixed_plan os image guard scope target_rva before = (.ok plan, after)) :
    Selections os image snapshot before [.fixed guard scope target_rva] plan.writes := by
  obtain ⟨target, next, haddress, hsingle⟩ := Action.bind_eq_ok_iff.mp hplan
  rw [Action.lift_apply, Prod.mk.injEq, mapError_eq_ok_iff] at haddress
  obtain ⟨haddress, rfl⟩ := haddress
  obtain ⟨rfl, hscope⟩ := ModuleImage.address_from_rva_ok haddress
  obtain ⟨hwrites, hheld⟩ := single_ok hsingle
  rw [hwrites]
  exact .cons ⟨rfl, hscope, hheld⟩ rfl (.nil before)

section Signatures

variable (hlaid : image.Laid) (hlive : image.Live snapshot)
include hlaid hlive

/-- The search selects the only match that it does not turn down. -/
theorem find_signature_target_ok {recipe : Recipe} {target : Nat}
    (hfind : find_signature_target os image recipe.signature recipe.scope recipe.target_offset
      recipe.expected recipe.replacement before = (.ok target, after)) :
    (Site.unique recipe).Selects os image snapshot before after target ∧ after.memory = before.memory := by
  have hconfined : Confined (fun _ => True) before.memory (find_signature_target os image recipe.signature
      recipe.scope recipe.target_offset recipe.expected recipe.replacement) _ :=
    find_signature_target_confined os hlaid (fun _ _ _ _ => trivial) before.memory recipe.signature
      recipe.scope recipe.target_offset recipe.expected recipe.replacement
  have hmemory := (hconfined before rfl).2.1
  rw [hfind] at hmemory
  refine ⟨?_, hmemory⟩
  obtain ⟨pattern, start, hpattern, hsearch⟩ := Action.bind_eq_ok_iff.mp hfind
  rw [recipe.parses, Action.lift_apply, Prod.mk.injEq] at hpattern
  obtain ⟨hpattern, rfl⟩ := hpattern
  cases hpattern
  dsimp only at hsearch
  split at hsearch
  · cases hsearch
  · obtain ⟨⟨accepted, rejected⟩, last, hmatches, hresult⟩ := Action.bind_eq_ok_iff.mp hsearch
    have hmatched : ∀ start ∈ image.scan recipe.pattern recipe.scope,
        image.Matched snapshot recipe.pattern recipe.scope start :=
      fun start hstart => ((hlaid.mem_scan_iff hlive).mp hstart).2
    match accepted, hresult, validate_matches_ok hlaid hmatched hmatches with
    | [], hresult, _ => cases hresult
    | _ :: _ :: _, hresult, _ => cases hresult
    | [_], hresult, .inl ⟨hnone, _⟩ => cases hnone
    | [_], hresult, .inr ⟨early, start, late, reached, more, hsplit, haccepted, hguarded, hearly, hlate⟩ =>
      cases hresult
      obtain ⟨rfl, rfl⟩ := List.cons.inj haccepted
      exact ⟨early, start, late, reached, hsplit, rfl, hguarded, hearly, hlate rfl⟩

/-- A plan by signature has selected its site. -/
theorem unique_plan_selects {recipe : Recipe} {plan : PatchPlan}
    (hplan : unique_plan os image recipe before = (.ok plan, after)) :
    Selections os image snapshot before [.unique recipe] plan.writes := by
  obtain ⟨target, next, hfind, hsingle⟩ := Action.bind_eq_ok_iff.mp hplan
  obtain ⟨hselects, hmemory⟩ := find_signature_target_ok hlaid hlive hfind
  rw [(single_ok hsingle).1]
  exact .cons hselects hmemory (.nil next)

/-- A known write targets its RVA, where its signature was found or its guard held. -/
theorem known_write_ok {recipe : Recipe} {target_rva : Nat} {write : CheckedWrite}
    (hknown : known_write os image recipe target_rva before = (.ok write, after)) :
    ∃ target, write = recipe.toGuard.write target ∧
      (Site.known recipe target_rva).Selects os image snapshot before after target ∧
      after.memory = before.memory := by
  obtain ⟨pattern, start, hpattern, hknown⟩ := Action.bind_eq_ok_iff.mp hknown
  rw [recipe.parses, Action.lift_apply, Prod.mk.injEq] at hpattern
  obtain ⟨hpattern, rfl⟩ := hpattern
  cases hpattern
  cases hsub : checked_sub target_rva recipe.target_offset with
  | none =>
    rw [hsub] at hknown
    cases hknown
  | some start_rva =>
    rw [hsub] at hknown
    obtain rfl := checked_sub_eq_some_iff.mp hsub
    obtain ⟨expected_start, middle, hstart, hknown⟩ := Action.bind_eq_ok_iff.mp hknown
    rw [Action.lift_apply, Prod.mk.injEq, mapError_eq_ok_iff] at hstart
    obtain ⟨hstart, rfl⟩ := hstart
    obtain ⟨rfl, hscope⟩ := ModuleImage.address_from_rva_ok hstart
    split at hknown
    · cases hknown
    · rename_i hcontext
      rw [not_not, hlaid.mem_scan_iff hlive] at hcontext
      obtain ⟨target, last, htarget, hvalidated⟩ := Action.bind_eq_ok_iff.mp hknown
      rw [Action.lift_apply, Prod.mk.injEq, mapError_eq_ok_iff] at htarget
      obtain ⟨htarget, rfl⟩ := htarget
      obtain ⟨rfl, hinside⟩ := ModuleImage.address_from_rva_ok htarget
      obtain ⟨rfl, hheld, hmemory⟩ := validated_ok hvalidated
      exact ⟨_, rfl, ⟨rfl, image.base + start_rva, by omega, hscope, hcontext.2.2, hinside, hheld⟩, hmemory⟩

/-- A plan of known writes has selected the known sites one after the other. -/
theorem known_plan_selects {first second third : Recipe} {first_rva second_rva third_rva : Nat}
    {plan : PatchPlan} (hplan : known_plan os image first second third first_rva second_rva third_rva
      before = (.ok plan, after)) :
    Selections os image snapshot before
      [.known first first_rva, .known second second_rva, .known third third_rva] plan.writes := by
  obtain ⟨_, next, hfirst, hplan⟩ := Action.bind_eq_ok_iff.mp hplan
  obtain ⟨_, last, hsecond, hplan⟩ := Action.bind_eq_ok_iff.mp hplan
  obtain ⟨_, done, hthird, hplan⟩ := Action.bind_eq_ok_iff.mp hplan
  obtain ⟨_, rfl, hfirst, hnext⟩ := known_write_ok hlaid hlive hfirst
  obtain ⟨_, rfl, hsecond, hlast⟩ := known_write_ok hlaid hlive hsecond
  obtain ⟨_, rfl, hthird, hdone⟩ := known_write_ok hlaid hlive hthird
  rw [PatchPlan.new_eq_ok_iff.mp (Prod.mk.inj hplan).1]
  exact .cons hfirst hnext (.cons hsecond hlast (.cons hthird hdone (.nil done)))

/-- A plan of three signatures has selected their sites one after the other. -/
theorem fallback_plan_selects {first second third : Recipe} {plan : PatchPlan}
    (hplan : fallback_plan os image first second third before = (.ok plan, after)) :
    Selections os image snapshot before [.unique first, .unique second, .unique third] plan.writes := by
  obtain ⟨_, next, hfirst, hplan⟩ := Action.bind_eq_ok_iff.mp hplan
  obtain ⟨_, last, hsecond, hplan⟩ := Action.bind_eq_ok_iff.mp hplan
  obtain ⟨_, done, hthird, hplan⟩ := Action.bind_eq_ok_iff.mp hplan
  obtain ⟨_, _, hfirst_write, hplan⟩ := Action.bind_eq_ok_iff.mp hplan
  obtain ⟨_, _, hsecond_write, hplan⟩ := Action.bind_eq_ok_iff.mp hplan
  obtain ⟨_, _, hthird_write, hplan⟩ := Action.bind_eq_ok_iff.mp hplan
  obtain ⟨hfirst, hnext⟩ := find_signature_target_ok hlaid hlive hfirst
  obtain ⟨hsecond, hlast⟩ := find_signature_target_ok hlaid hlive hsecond
  obtain ⟨hthird, hdone⟩ := find_signature_target_ok hlaid hlive hthird
  obtain ⟨rfl, _⟩ := validated_ok hfirst_write
  obtain ⟨rfl, _⟩ := validated_ok hsecond_write
  obtain ⟨rfl, _⟩ := validated_ok hthird_write
  rw [PatchPlan.new_eq_ok_iff.mp (Prod.mk.inj hplan).1]
  exact .cons hfirst hnext (.cons hsecond hlast (.cons hthird hdone (.nil done)))

/-- Whatever the system answers, the writes of a plan go to targets that the
sites of the patch have selected. -/
theorem Patch.plan_selects {build : DuniaBuild} {patch : Patch} {plan : PatchPlan}
    (hplan : patch.plan os image build before = (.ok plan, after)) :
    Selections os image snapshot before (patch.sites build) plan.writes := by
  cases patch with
  | jackal_tapes =>
    rw [Patch.plan, plan_jackal_tapes_eq] at hplan
    exact unique_plan_selects hlaid hlive hplan
  | devmode_always_on =>
    rw [Patch.plan, plan_devmode_always_on_eq] at hplan
    exact unique_plan_selects hlaid hlive hplan
  | predecessor_tapes =>
    rw [Patch.plan, plan_predecessor_tapes_eq] at hplan
    cases build with
    | Retail => exact fixed_plan_selects hplan
    | Steam => exact unique_plan_selects hlaid hlive hplan
    | Ubisoft => exact unique_plan_selects hlaid hlive hplan
    | Unknown _ => exact unique_plan_selects hlaid hlive hplan
  | machetes =>
    rw [Patch.plan, plan_machetes_eq] at hplan
    exact unique_plan_selects hlaid hlive hplan
  | no_blinking_items =>
    rw [Patch.plan, plan_no_blinking_items_eq] at hplan
    rw [Patch.sites]
    cases hrvas : no_blink_rvas build with
    | some rvas =>
      obtain ⟨mesh_rva, arch_rva, save_rva⟩ := rvas
      rw [hrvas] at hplan
      exact known_plan_selects hlaid hlive hplan
    | none =>
      rw [hrvas] at hplan
      exact fallback_plan_selects hlaid hlive hplan

end Signatures

end systemdetection.patches

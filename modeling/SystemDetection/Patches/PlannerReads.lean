import SystemDetection.Memory.Confined
import SystemDetection.Patches.PlanMeaning

open effect store systemdetection.patches.memory systemdetection.patches.sigscan

namespace systemdetection.patches

variable {σ : Type} (os : Os σ) {permitted : Access → Prop} {image : ModuleImage} (hlaid : image.Laid)
  (hpermitted : ∀ scope address length, image.InScope scope address length →
    permitted ⟨.read, address, length⟩) (memory : Store UInt8)

section Targets

include hlaid hpermitted

/-- The target is read only after its section has been found. -/
theorem validate_match_confined (scope : ScanScope) (target_offset : Nat) (expected replacement : List UInt8)
    (start : Nat) :
    Confined permitted memory (validate_match os image scope target_offset expected replacement start)
      fun verdict => ∀ target, verdict = .ok target → image.InScope scope target expected.length := by
  have hrejected : ∀ reason, Confined permitted memory
      (pure (.error reason) : Action (World σ) PatchError (Except String Nat))
      fun verdict => ∀ target, verdict = .ok target → image.InScope scope target expected.length := by
    intro reason
    refine confined_pure fun target htarget => ?_
    cases htarget
  unfold validate_match
  split
  · exact hrejected _
  · rename_i target htarget
    split
    · exact hrejected _
    · rename_i hcontains
      rw [Bool.not_eq_true', Bool.not_eq_false] at hcontains
      obtain ⟨loaded, hmem, hin, _, hholds⟩ :=
        (ModuleImage.contains_relative_target_iff hlaid).mp hcontains
      have hscope : image.InScope scope target expected.length := ⟨loaded, hmem, hin, hholds⟩
      refine (validate_bytes_confined os memory replacement
        (hpermitted _ _ _ hscope)).attempt.bind fun result _ => ?_
      cases result with
      | ok state =>
        refine confined_pure fun other hother => ?_
        cases hother
        exact hscope
      | error error => exact hrejected _

/-- Judging the matches reads the targets of matches, and accepts targets in the scope. -/
theorem validate_matches_confined (scope : ScanScope) (target_offset : Nat)
    (expected replacement : List UInt8) (accepted : List Nat) (rejected : List String) (starts : List Nat)
    (haccepted : ∀ target ∈ accepted, image.InScope scope target expected.length) :
    Confined permitted memory
      (validate_matches os image scope target_offset expected replacement accepted rejected starts)
      fun lists => ∀ target ∈ lists.1, image.InScope scope target expected.length := by
  induction starts generalizing accepted rejected with
  | nil => exact confined_pure haccepted
  | cons start rest ih =>
    refine (validate_match_confined os hlaid hpermitted memory scope target_offset expected replacement
      start).bind fun verdict hverdict => ?_
    cases verdict with
    | error reason => exact ih accepted _ haccepted
    | ok target =>
      refine ih _ rejected ?_
      rw [List.forall_mem_append, List.forall_mem_singleton]
      exact ⟨haccepted, hverdict target rfl⟩

/-- The search reads the targets of matches, and finds one in the scope. -/
theorem find_signature_target_confined (signature : String) (scope : ScanScope) (target_offset : Nat)
    (expected replacement : List UInt8) :
    Confined permitted memory
      (find_signature_target os image signature scope target_offset expected replacement)
      fun target => image.InScope scope target expected.length := by
  refine (confined_lift _).bind fun pattern _ => ?_
  dsimp only
  split
  · exact confined_throw _ _
  · refine (validate_matches_confined os hlaid hpermitted memory scope target_offset expected replacement
      [] [] _ (by simp)).bind fun lists htargets => ?_
    obtain ⟨accepted, rejected⟩ := lists
    match accepted, htargets with
    | [], _ => exact confined_throw _ _
    | [target], htargets => exact confined_pure (htargets target (by simp))
    | _ :: _ :: _, _ => exact confined_throw _ _

end Targets

section Writes

include hpermitted

theorem validated_confined {scope : ScanScope} {address : Nat} {expected : List UInt8}
    (replacement : List UInt8) (hscope : image.InScope scope address expected.length) :
    Confined permitted memory (CheckedWrite.validated os address expected replacement) fun _ => True :=
  ((validate_bytes_confined os memory replacement (hpermitted _ _ _ hscope)).map_err _).bind
    fun _ _ => confined_pure trivial

theorem single_confined {scope : ScanScope} {address : Nat} {expected : List UInt8}
    (replacement : List UInt8) (hscope : image.InScope scope address expected.length) :
    Confined permitted memory (PatchPlan.single os address expected replacement) fun _ => True :=
  (validated_confined os hpermitted memory replacement hscope).bind
    fun _ _ => (confined_lift _).mono fun _ _ => trivial

theorem fixed_plan_confined (guard : Guard) (scope : ScanScope) (target_rva : Nat) :
    Confined permitted memory (fixed_plan os image guard scope target_rva) fun _ => True := by
  refine (confined_lift _).bind fun target htarget => ?_
  obtain ⟨rfl, hscope⟩ := ModuleImage.address_from_rva_ok (mapError_eq_ok_iff.mp htarget)
  exact single_confined os hpermitted memory guard.replacement hscope

/-- The write at a known RVA reads its target. -/
theorem known_write_confined (recipe : Recipe) (target_rva : Nat) :
    Confined permitted memory (known_write os image recipe target_rva) fun _ => True := by
  refine (confined_lift _).bind fun pattern _ => ?_
  split
  · exact confined_throw _ _
  · refine (confined_lift _).bind fun expected_start _ => ?_
    dsimp only
    split
    · exact confined_throw _ _
    · refine (confined_lift _).bind fun target htarget => ?_
      obtain ⟨rfl, hscope⟩ := ModuleImage.address_from_rva_ok (mapError_eq_ok_iff.mp htarget)
      exact validated_confined os hpermitted memory recipe.replacement hscope

/-- The plan of three known writes reads their targets. -/
theorem known_plan_confined (first second third : Recipe) (first_rva second_rva third_rva : Nat) :
    Confined permitted memory (known_plan os image first second third first_rva second_rva third_rva)
      fun _ => True :=
  (known_write_confined os hpermitted memory first first_rva).bind fun _ _ =>
    (known_write_confined os hpermitted memory second second_rva).bind fun _ _ =>
    (known_write_confined os hpermitted memory third third_rva).bind fun _ _ =>
    (confined_lift _).mono fun _ _ => trivial

end Writes

include hlaid hpermitted

theorem unique_plan_confined (recipe : Recipe) :
    Confined permitted memory (unique_plan os image recipe) fun _ => True :=
  (find_signature_target_confined os hlaid hpermitted memory recipe.signature recipe.scope
    recipe.target_offset recipe.expected recipe.replacement).bind
    fun _ hscope => single_confined os hpermitted memory recipe.replacement hscope

/-- The plan that falls back on signatures reads the targets of their matches. -/
theorem fallback_plan_confined (first second third : Recipe) :
    Confined permitted memory (fallback_plan os image first second third) fun _ => True :=
  have hfind := find_signature_target_confined os hlaid hpermitted memory
  (hfind _ _ _ _ _).bind fun _ hfirst => (hfind _ _ _ _ _).bind fun _ hsecond =>
    (hfind _ _ _ _ _).bind fun _ hthird =>
    (validated_confined os hpermitted memory first.replacement hfirst).bind fun _ _ =>
    (validated_confined os hpermitted memory second.replacement hsecond).bind fun _ _ =>
    (validated_confined os hpermitted memory third.replacement hthird).bind fun _ _ =>
    (confined_lift _).mono fun _ _ => trivial

/-- A planner reads inside the sections of the image only. -/
theorem Patch.plan_confined (build : DuniaBuild) (patch : Patch) :
    Confined permitted memory (patch.plan os image build) fun _ => True := by
  cases patch with
  | jackal_tapes =>
    rw [Patch.plan, plan_jackal_tapes_eq]
    exact unique_plan_confined os hlaid hpermitted memory _
  | devmode_always_on =>
    rw [Patch.plan, plan_devmode_always_on_eq]
    exact unique_plan_confined os hlaid hpermitted memory _
  | predecessor_tapes =>
    rw [Patch.plan, plan_predecessor_tapes_eq]
    cases build with
    | Retail => exact fixed_plan_confined os hpermitted memory _ _ _
    | Steam => exact unique_plan_confined os hlaid hpermitted memory _
    | Ubisoft => exact unique_plan_confined os hlaid hpermitted memory _
    | Unknown _ => exact unique_plan_confined os hlaid hpermitted memory _
  | machetes =>
    rw [Patch.plan, plan_machetes_eq]
    exact unique_plan_confined os hlaid hpermitted memory _
  | no_blinking_items =>
    rw [Patch.plan, plan_no_blinking_items_eq]
    cases no_blink_rvas build with
    | some rvas =>
      obtain ⟨mesh_rva, arch_rva, save_rva⟩ := rvas
      exact known_plan_confined os hpermitted memory _ _ _ _ _ _
    | none => exact fallback_plan_confined os hlaid hpermitted memory _ _ _

end systemdetection.patches

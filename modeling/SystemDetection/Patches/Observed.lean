import SystemDetection.Patches.Containment

open effect store systemdetection.patches.memory systemdetection.patches.sigscan

namespace systemdetection.patches

variable {σ : Type} {os : Os σ} {R : World σ → World σ → Prop} (hwatches : Watches os R) (image : ModuleImage)
include hwatches

theorem guard_relates (address : Nat) (expected replacement : List UInt8) :
    (validate_bytes os address expected replacement).Relates R :=
  validate_bytes_relates hwatches.toQueries address expected replacement fun world => hwatches.read world _ _

/-- Judging the matches makes nothing but queries and reads. -/
theorem validate_matches_relates (scope : ScanScope) (target_offset : Nat) (expected replacement : List UInt8)
    (accepted : List Nat) (rejected : List String) (starts : List Nat) :
    (validate_matches os image scope target_offset expected replacement accepted rejected starts).Relates R := by
  induction starts generalizing accepted rejected with
  | nil => exact Action.relates_pure hwatches.refl _
  | cons start rest ih =>
    have hmatch : (validate_match os image scope target_offset expected replacement start).Relates R := by
      unfold validate_match
      split
      · exact Action.relates_pure hwatches.refl _
      split
      · exact Action.relates_pure hwatches.refl _
      · refine Action.relates_bind hwatches.trans (guard_relates hwatches _ _ _).attempt fun result => ?_
        cases result with
        | ok state => exact Action.relates_pure hwatches.refl _
        | error error => exact Action.relates_pure hwatches.refl _
    refine Action.relates_bind hwatches.trans hmatch fun verdict => ?_
    cases verdict with
    | ok target => exact ih _ _
    | error reason => exact ih _ _

/-- So does the search for a target. -/
theorem find_signature_target_relates (signature : String) (scope : ScanScope) (target_offset : Nat)
    (expected replacement : List UInt8) :
    (find_signature_target os image signature scope target_offset expected replacement).Relates R := by
  refine Action.relates_bind hwatches.trans (Action.relates_lift hwatches.refl _) fun pattern => ?_
  dsimp only
  split
  · exact Action.relates_throw hwatches.refl _
  · refine Action.relates_bind hwatches.trans
      (validate_matches_relates hwatches image scope target_offset expected replacement [] [] _) fun lists => ?_
    rcases lists with ⟨accepted, rejected⟩
    rcases accepted with _ | ⟨target, _ | ⟨other, others⟩⟩
    · exact Action.relates_throw hwatches.refl _
    · exact Action.relates_pure hwatches.refl _
    · exact Action.relates_throw hwatches.refl _

theorem validated_relates (address : Nat) (expected replacement : List UInt8) :
    (CheckedWrite.validated os address expected replacement).Relates R :=
  Action.relates_bind hwatches.trans ((guard_relates hwatches _ _ _).map_err _)
    fun _ => Action.relates_pure hwatches.refl _

theorem single_relates (address : Nat) (expected replacement : List UInt8) :
    (PatchPlan.single os address expected replacement).Relates R :=
  Action.relates_bind hwatches.trans (validated_relates hwatches _ _ _) fun _ => Action.relates_lift hwatches.refl _

theorem unique_plan_relates (recipe : Recipe) : (unique_plan os image recipe).Relates R :=
  Action.relates_bind hwatches.trans (find_signature_target_relates hwatches image _ _ _ _ _)
    fun _ => single_relates hwatches _ _ _

theorem fixed_plan_relates (guard : Guard) (scope : ScanScope) (target_rva : Nat) :
    (fixed_plan os image guard scope target_rva).Relates R :=
  Action.relates_bind hwatches.trans (Action.relates_lift hwatches.refl _) fun _ => single_relates hwatches _ _ _

/-- So does the write at a known RVA. -/
theorem known_write_relates (recipe : Recipe) (target_rva : Nat) :
    (known_write os image recipe target_rva).Relates R := by
  refine Action.relates_bind hwatches.trans (Action.relates_lift hwatches.refl _) fun pattern => ?_
  split
  · exact Action.relates_throw hwatches.refl _
  · refine Action.relates_bind hwatches.trans (Action.relates_lift hwatches.refl _) fun expected_start => ?_
    dsimp only
    split
    · exact Action.relates_throw hwatches.refl _
    · exact Action.relates_bind hwatches.trans (Action.relates_lift hwatches.refl _)
        fun _ => validated_relates hwatches _ _ _

/-- The plan of three known writes makes nothing but queries and reads. -/
theorem known_plan_relates (first second third : Recipe) (first_rva second_rva third_rva : Nat) :
    (known_plan os image first second third first_rva second_rva third_rva).Relates R :=
  Action.relates_bind hwatches.trans (known_write_relates hwatches image first first_rva) fun _ =>
    Action.relates_bind hwatches.trans (known_write_relates hwatches image second second_rva) fun _ =>
    Action.relates_bind hwatches.trans (known_write_relates hwatches image third third_rva) fun _ =>
    Action.relates_lift hwatches.refl _

/-- So does the plan that falls back on signatures. -/
theorem fallback_plan_relates (first second third : Recipe) :
    (fallback_plan os image first second third).Relates R :=
  have hfind := find_signature_target_relates hwatches image
  Action.relates_bind hwatches.trans (hfind _ _ _ _ _) fun _ =>
    Action.relates_bind hwatches.trans (hfind _ _ _ _ _) fun _ =>
    Action.relates_bind hwatches.trans (hfind _ _ _ _ _) fun _ =>
    Action.relates_bind hwatches.trans (validated_relates hwatches _ _ _) fun _ =>
    Action.relates_bind hwatches.trans (validated_relates hwatches _ _ _) fun _ =>
    Action.relates_bind hwatches.trans (validated_relates hwatches _ _ _) fun _ =>
    Action.relates_lift hwatches.refl _

/-- A planner only reads. -/
theorem Patch.plan_relates (build : DuniaBuild) (patch : Patch) : (patch.plan os image build).Relates R := by
  cases patch with
  | jackal_tapes =>
    rw [Patch.plan, plan_jackal_tapes_eq]
    exact unique_plan_relates hwatches image _
  | devmode_always_on =>
    rw [Patch.plan, plan_devmode_always_on_eq]
    exact unique_plan_relates hwatches image _
  | predecessor_tapes =>
    rw [Patch.plan, plan_predecessor_tapes_eq]
    cases build with
    | Retail => exact fixed_plan_relates hwatches image _ _ _
    | Steam | Ubisoft | Unknown => exact unique_plan_relates hwatches image _
  | machetes =>
    rw [Patch.plan, plan_machetes_eq]
    exact unique_plan_relates hwatches image _
  | no_blinking_items =>
    rw [Patch.plan, plan_no_blinking_items_eq]
    cases no_blink_rvas build with
    | some rvas => exact known_plan_relates hwatches image _ _ _ _ _ _
    | none => exact fallback_plan_relates hwatches image _ _ _

/-- Preparing all patches makes nothing but queries and reads. -/
theorem prepare_patches_relates (build : DuniaBuild) (config : PatchConfig) (patches : List Patch) :
    (prepare_patches os image build config patches).Relates R := by
  induction patches with
  | nil => exact Action.relates_pure hwatches.refl _
  | cons patch rest ih =>
    have hpatch : (prepare_patch patch.name (config.enabled patch) (patch.plan os image build)).Relates R := by
      unfold prepare_patch
      split
      · refine Action.relates_bind hwatches.trans (Patch.plan_relates hwatches image build patch).attempt fun result => ?_
        cases result with
        | ok plan => exact Action.relates_pure hwatches.refl _
        | error error => exact Action.relates_pure hwatches.refl _
      · exact Action.relates_pure hwatches.refl _
    refine Action.relates_bind hwatches.trans hpatch fun prepared => ?_
    exact Action.relates_bind hwatches.trans ih fun others => Action.relates_pure hwatches.refl _

end systemdetection.patches

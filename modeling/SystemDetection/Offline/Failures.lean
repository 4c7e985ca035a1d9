import SystemDetection.Effect.Answers
import SystemDetection.Offline.Containment
import SystemDetection.Offline.Validation

open effect effect.Action store systemdetection.patches.memory systemdetection.patches.sigscan

namespace systemdetection.patches.offline

variable {σ : Type} {os : Os σ} {image : ModuleImage} {build : DuniaBuild}

/-- A stop that the caller is told of, not a panic. -/
def Graceful (stop : Stop String) : Prop := ∃ error, stop = .error error

/-- A difference of addresses in order does not wrap. -/
theorem usize_sub_answers {left right : Nat} (hle : right ≤ left) :
    (lift (usize_sub left right) : Action (World σ) (Stop String) Nat).Answers Graceful fun _ => True := by
  have hok : usize_sub left right = (.ok (left - right) : Except (Stop String) Nat) :=
    usize_sub_eq_ok_iff.mpr (by omega)
  rw [hok]
  exact answers_lift nofun fun _ _ => trivial

/-- Bytes that were read are as many as were asked for. -/
theorem read_bytes_length (address length : Nat) :
    (read_bytes os address length).Answers (fun _ => True) fun bytes => bytes.length = length where
  error _ _ _ := trivial
  value _ _ hread := by
    rw [(read_bytes_ok (eq_of_result hread)).1, Store.length_read]

/-- Candidates that lie above the base are described without a panic. -/
theorem describe_candidates_answers {offset : Nat} {starts : List Nat}
    (hstarts : ∀ start ∈ starts, image.base ≤ start) :
    (describe_candidates os image offset starts).Answers Graceful fun _ => True := by
  induction starts with
  | nil => exact answers_pure trivial
  | cons start rest ih =>
    obtain ⟨hstart, hrest⟩ := List.forall_mem_cons.mp hstarts
    unfold describe_candidates
    split
    · exact ih hrest
    · rename_i target htarget
      obtain ⟨rfl, _⟩ := checked_add_eq_some_iff.mp htarget
      refine (read_bytes_length _ _).attempt.bind fun result hresult => ?_
      cases result with
      | error error => exact ih hrest
      | ok bytes =>
        obtain ⟨byte, rfl⟩ := List.length_eq_one_iff.mp (hresult.2 bytes rfl)
        exact (usize_sub_answers hstart).bind fun _ _ => (usize_sub_answers (by omega)).bind fun _ _ =>
          (answers_lift nofun fun _ _ => trivial).bind fun _ _ =>
          (ih hrest).bind fun _ _ => answers_pure trivial

/-- So are the writes of a plan. -/
theorem describe_writes_answers {name : String} {writes : List CheckedWrite}
    (hinside : ∀ write ∈ writes, image.base ≤ write.address) :
    (describe_writes os image name writes).Answers Graceful fun _ => True := by
  induction writes with
  | nil => exact answers_pure trivial
  | cons write rest ih =>
    obtain ⟨hwrite, hrest⟩ := List.forall_mem_cons.mp hinside
    exact (usize_sub_answers hwrite).bind fun _ _ =>
      ((read_bytes_length _ _).map_err fun _ _ => ⟨_, rfl⟩).bind fun _ _ =>
      (ih hrest).bind fun _ _ => answers_pure trivial

/-- The plans that there are go to the image. -/
def PlansInside (image : ModuleImage) (plans : List (String × Except PatchError PatchPlan)) : Prop :=
  ∀ entry ∈ plans, ∀ plan, entry.2 = .ok plan → ∀ write ∈ plan.writes, image.base ≤ write.address

section Laid

variable (hlaid : image.Laid)
include hlaid

/-- Every match lies above the base. -/
theorem scan_from_base {pattern : Pattern} {scope : ScanScope} :
    ∀ start ∈ image.scan pattern scope, image.base ≤ start := by
  intro start hstart
  obtain ⟨loaded, hmem, hfound⟩ := List.mem_flatMap.mp hstart
  have hholds := LoadedSection.holds_of_mem_scan hlaid hmem hfound
  simp only [PeSection.Holds] at hholds
  omega

/-- The diagnosis of a signature never panics, whatever it finds. -/
theorem diagnose_signatures_answers (signatures : List (String × String × Nat)) :
    (diagnose_signatures os image signatures).Answers Graceful fun _ => True := by
  induction signatures with
  | nil => exact answers_pure trivial
  | cons entry rest ih =>
    obtain ⟨name, signature, offset⟩ := entry
    unfold diagnose_signatures
    refine (describe_candidates_answers ?_).bind fun _ _ => ih.bind fun _ _ => answers_pure trivial
    cases Pattern.parse signature with
    | error error => exact List.forall_mem_nil _
    | ok pattern => exact scan_from_base hlaid

/-- Nor do the diagnostics of a failed patch. -/
theorem failure_diagnostics_answers (name : String) :
    (failure_diagnostics os image name).Answers Graceful fun _ => True := by
  unfold failure_diagnostics
  split
  · have hcandidates : (no_blink_diagnostics os image).Answers Graceful fun _ => True :=
      (diagnose_signatures_answers hlaid _).bind fun _ _ => answers_pure trivial
    exact hcandidates.bind fun _ _ => answers_pure trivial
  · exact answers_pure trivial

/-- Collecting plans inside the image panics nowhere. -/
theorem collect_plans_answers {plans : List (String × Except PatchError PatchPlan)}
    (hinside : PlansInside image plans) :
    (collect_plans os image plans).Answers Graceful fun _ => True := by
  induction plans with
  | nil => exact answers_pure trivial
  | cons entry rest ih =>
    obtain ⟨hentry, hrest⟩ := List.forall_mem_cons.mp hinside
    obtain ⟨name, error | plan⟩ := entry
    · exact (failure_diagnostics_answers hlaid name).bind fun _ _ =>
        (ih hrest).bind fun _ _ => answers_pure trivial
    · exact (describe_writes_answers (hentry plan rfl)).bind fun _ _ =>
        (ih hrest).bind fun _ _ => answers_pure trivial

variable {snapshot : Store UInt8} (hlive : image.Live snapshot)
include hlive

/-- The planners panic nowhere, and their plans lie inside the image. -/
theorem plan_all_answers (patches : List Patch) :
    (plan_all os image build patches : Action (World σ) (Stop String) _).Answers Graceful
      (PlansInside image) := by
  induction patches with
  | nil => exact answers_pure (List.forall_mem_nil _)
  | cons patch rest ih =>
    have hplan : (patch.plan os image build).Answers (fun _ => True) fun plan =>
        ∀ write ∈ plan.writes, image.base ≤ write.address := by
      refine ⟨fun _ _ _ => trivial, fun world plan hplan write hmem => ?_⟩
      obtain ⟨site, _, target, rfl, hscope⟩ :=
        (Patch.plan_selects hlaid hlive (eq_of_result hplan)).mem hmem
      exact (hscope.in_image hlaid).1
    exact hplan.attempt.bind fun result hresult => ih.bind fun others hothers =>
      answers_pure (List.forall_mem_cons.mpr ⟨hresult.2, hothers⟩)

end Laid

/-- The first pass over the copy panics nowhere. -/
theorem apply_to_copy_answers (prepared : List PreparedPatch) :
    (apply_to_copy os prepared).Answers Graceful fun _ => True := by
  induction prepared with
  | nil => exact answers_pure trivial
  | cons ready rest ih =>
    have hplan : (ready.plan.apply os).Answers (fun _ => True) fun _ => True :=
      ⟨fun _ _ _ => trivial, fun _ _ _ => trivial⟩
    exact (hplan.map_err fun _ _ => ⟨_, rfl⟩).bind fun _ _ => ih.bind fun _ _ => answers_pure trivial

/-- Nor does the second pass. -/
theorem reapply_to_copy_answers (plans : List (String × Except PatchError PatchPlan)) :
    (reapply_to_copy os plans).Answers Graceful fun _ => True := by
  induction plans with
  | nil => exact answers_pure trivial
  | cons entry rest ih =>
    obtain ⟨name, error | plan⟩ := entry
    · exact answers_throw ⟨_, rfl⟩
    · have hplan : (plan.apply os).Answers (fun _ => True) fun _ => True :=
        ⟨fun _ _ _ => trivial, fun _ _ _ => trivial⟩
      refine (hplan.map_err fun _ _ => ⟨_, rfl⟩).bind fun state _ => ?_
      split
      · exact answers_throw ⟨_, rfl⟩
      · exact ih

/-- From the mapped module on the validation never panics. -/
theorem validate_mapped_answers (hlaid : image.Laid) {snapshot : Store UInt8} (hlive : image.Live snapshot)
    (path : String) (file_size : Nat) :
    (validate_mapped os path build file_size image).Answers Graceful fun _ => True := by
  have hpatched : (patch_mapped os path build image).Answers Graceful fun _ => True := by
    refine (plan_all_answers hlaid hlive Patch.all).bind fun plans hplans => ?_
    refine (collect_plans_answers hlaid hplans).bind fun collected _ => ?_
    obtain ⟨failures, prepared⟩ := collected
    dsimp only
    split
    · exact answers_throw ⟨_, rfl⟩
    · refine (answers_lift (fun stop hstop => ?_) fun _ _ => trivial).bind fun _ _ =>
        apply_to_copy_answers prepared
      cases hcheck : validate_known_rvas build prepared with
      | ok _ =>
        rw [hcheck] at hstop
        cases hstop
      | error error =>
        rw [hcheck] at hstop
        cases hstop
        exact ⟨error, rfl⟩
  exact hpatched.bind fun _ _ => (plan_all_answers hlaid hlive Patch.all).bind fun plans _ =>
    (reapply_to_copy_answers plans).bind fun _ _ => answers_pure trivial

/-- Whatever file is given and whatever the memory calls do, the validation panics
only where the mapping of the file does: its subtractions never wrap, the bytes
that its diagnostics look at are there, and all else that goes wrong is returned. -/
theorem validation_panics_only_in_mapping (os : Os σ) (portex : List UInt8 → Except String PEHeaders)
    (base : Nat) (path : String) (read : Except String (List UInt8)) (world : World σ) (reason : String) :
    (validate_dunia_file os portex base path read world).1 = .error (.panic reason) ↔
      ∃ file, read = .ok file ∧ ModuleImage.from_pe_file portex base file = .error (.panic reason) := by
  cases read with
  | error error =>
    constructor
    · intro hpanics
      cases hpanics
    · rintro ⟨_, hread, _⟩
      cases hread
  | ok file =>
    rw [validate_dunia_file]
    simp only [Except.ok.injEq, exists_eq_left']
    rcases hmapped : ModuleImage.from_pe_file portex base file with (error | cause) | mapped
    · refine iff_of_false (fun hpanics => ?_) (by simp)
      cases hpanics
    · constructor
      · intro hpanics
        cases hpanics
        rfl
      · intro hpanics
        cases hpanics
        rfl
    · refine iff_of_false (fun hpanics => ?_) (by simp)
      obtain ⟨hlaid, hlive⟩ := mapped_image_laid hmapped world.memory
      obtain ⟨error, herror⟩ := (validate_mapped_answers hlaid hlive path file.length).error _ _ hpanics
      cases herror

section Lines

/-- What the diagnostics say of one place of a signature. -/
def candidate_text (base offset : Nat) (memory : Store UInt8) (start : Nat) : String :=
  let target := start + offset
  let byte := upper_hex 2 (memory target).toNat
  s!"start RVA 0x{upper_hex 8 (start - base)} -> target RVA 0x{upper_hex 8 (target - base)} ({byte})"

/-- The texts of all the places of a signature in the image, each of them once. -/
def Candidates (image : ModuleImage) (memory : Store UInt8) (recipe : Recipe) (texts : List String) : Prop :=
  ∃ starts, Lists starts {start | image.Matched memory recipe.pattern recipe.scope start} ∧
    texts = starts.map (candidate_text image.base recipe.target_offset memory)

def SignatureText (image : ModuleImage) (memory : Store UInt8) (entry : String × Recipe) (text : String) :
    Prop :=
  ∃ candidates, Candidates image memory entry.2 candidates ∧
    text = entry.1 ++ " [" ++ ", ".intercalate candidates ++ "]"

/-- The signatures that the diagnostics look for, under the names they give them. -/
def no_blink_recipes : List (String × Recipe) :=
  [("Mesh_Highlight", mesh_highlight_recipe), ("archBlink", arch_blink_recipe),
    ("SaveDisk", save_disk_recipe)]

/-- What is added to the line of a failed patch. -/
def Diagnoses (image : ModuleImage) (memory : Store UInt8) (patch : Patch) (text : String) : Prop :=
  if patch = .no_blinking_items then
    ∃ texts, List.Forall₂ (SignatureText image memory) no_blink_recipes texts ∧
      text = "; candidates: " ++ "; ".intercalate texts
  else
    text = ""

/-- The line of a patch that could not be planned. -/
def FailureLine (image : ModuleImage) (memory : Store UInt8) (verdict : Patch → Except PatchError PatchPlan)
    (patch : Patch) (line : String) : Prop :=
  ∃ error text, verdict patch = .error error ∧ Diagnoses image memory patch text ∧
    line = s!"{patch.name}: {error.to_string}{text}"

variable {usable : σ → Prop} {memory : Store UInt8} (hvalid : image.Valid)
  (hreadable : image.Readable os usable)
include hvalid hreadable

/-- Over readable memory every candidate is described, with the byte it has at its target. -/
theorem describe_candidates_reads {offset : Nat} {starts : List Nat}
    (hinside : ∀ start ∈ starts, ∃ scope, image.InScope scope (start + offset) 1 ∧ image.base ≤ start) :
    Reads usable memory (describe_candidates os image offset starts)
      (.ok (starts.map (candidate_text image.base offset memory))) := by
  induction starts with
  | nil => exact reads_pure _
  | cons start rest ih =>
    obtain ⟨⟨scope, hscope, hlo⟩, hrest⟩ := List.forall_mem_cons.mp hinside
    have hread : Reads usable memory (read_bytes os (start + offset) 1) (.ok [memory (start + offset)]) :=
      (hreadable.in_scope hscope).read_bytes_reads memory (Nat.le_refl _) (Nat.le_refl _)
    have hhi := (hscope.in_image hvalid.toLaid).2
    have hlimit := hvalid.below_top
    have hsub : ∀ {left}, image.base ≤ left →
        usize_sub left image.base = (.ok (left - image.base) : Except (Stop String) Nat) :=
      fun hle => usize_sub_eq_ok_iff.mpr (by omega)
    rw [describe_candidates, checked_add_of_lt (by omega)]
    refine hread.attempt.bind ?_
    dsimp only
    rw [hsub hlo, hsub (show image.base ≤ start + offset by omega)]
    exact (reads_lift _).bind ((reads_lift _).bind ((reads_lift _).bind ((ih hrest).bind (reads_pure _))))

variable (hlive : image.Live memory)
include hlive

/-- Over readable memory every signature has its text, in the order given. -/
theorem diagnose_signatures_reads {recipes : List (String × Recipe)}
    (hdata : ∀ entry ∈ recipes, entry.2.scope = .ReadOnlyData ∧ entry.2.target_offset < entry.2.pattern.len) :
    ∃ texts, List.Forall₂ (SignatureText image memory) recipes texts ∧
      Reads usable memory (diagnose_signatures os image
        (recipes.map fun entry => (entry.1, entry.2.signature, entry.2.target_offset))) (.ok texts) := by
  induction recipes with
  | nil => exact ⟨[], .nil, reads_pure _⟩
  | cons entry rest ih =>
    obtain ⟨name, recipe⟩ := entry
    obtain ⟨⟨hscope, hoffset⟩, hrest⟩ := List.forall_mem_cons.mp hdata
    obtain ⟨others, hothers, hreads⟩ := ih hrest
    have hlists : Lists (image.scan recipe.pattern .ReadOnlyData)
        {start | image.Matched memory recipe.pattern .ReadOnlyData start} :=
      ModuleImage.scan_lists hvalid hlive _ _
    have hinside : ∀ start ∈ image.scan recipe.pattern .ReadOnlyData, ∃ scope,
        image.InScope scope (start + recipe.target_offset) 1 ∧ image.base ≤ start := by
      intro start hstart
      have hmatched : image.Matched memory recipe.pattern .ReadOnlyData start :=
        (hlists.mem_iff start).mp hstart
      exact ⟨_, hmatched.1.sub hoffset, hmatched.1.base_le⟩
    have hcandidates : Candidates image memory recipe ((image.scan recipe.pattern .ReadOnlyData).map
        (candidate_text image.base recipe.target_offset memory)) := by
      refine ⟨_, ?_, rfl⟩
      rwa [show recipe.scope = .ReadOnlyData from hscope]
    refine ⟨_ :: others, .cons ⟨_, hcandidates, rfl⟩ hothers, ?_⟩
    rw [List.map_cons, diagnose_signatures, recipe.parses]
    exact (describe_candidates_reads hvalid hreadable hinside).bind (hreads.bind (reads_pure _))

/-- Over readable memory the diagnostics of a patch describe its signatures. -/
theorem failure_diagnostics_reads (patch : Patch) :
    ∃ text, Diagnoses image memory patch text ∧
      Reads usable memory (failure_diagnostics os image patch.name) (.ok text) := by
  by_cases hitems : patch = .no_blinking_items
  · subst hitems
    have hdata : ∀ entry ∈ no_blink_recipes,
        entry.2.scope = .ReadOnlyData ∧ entry.2.target_offset < entry.2.pattern.len := by
      simp only [no_blink_recipes, List.forall_mem_cons, List.not_mem_nil, IsEmpty.forall_iff, implies_true]
      decide
    obtain ⟨texts, hforall, hreads⟩ : ∃ texts,
        List.Forall₂ (SignatureText image memory) no_blink_recipes texts ∧
        Reads usable memory (diagnose_signatures os image (no_blink_recipes.map fun entry =>
          (entry.1, entry.2.signature, entry.2.target_offset))) (.ok texts) :=
      diagnose_signatures_reads hvalid hreadable hlive hdata
    have hcandidates : Reads usable memory (no_blink_diagnostics os image) (.ok ("; ".intercalate texts)) :=
      hreads.bind (reads_pure _)
    refine ⟨_, ?_, hcandidates.bind (reads_pure _)⟩
    rw [Diagnoses, if_pos rfl]
    exact ⟨texts, hforall, rfl⟩
  · refine ⟨"", by rw [Diagnoses, if_neg hitems], ?_⟩
    have hname : patch.name ≠ "no_blinking_items" := by
      intro hname
      exact hitems (Patch.name_injective hname)
    rw [failure_diagnostics, if_neg hname]
    exact reads_pure _

variable {verdict : Patch → Except PatchError PatchPlan}

omit hvalid hreadable hlive in
theorem plan_all_verdicts
    (hverdict : ∀ patch, Reads usable memory (patch.plan os image build) (verdict patch))
    (patches : List Patch) :
    Reads usable memory (plan_all os image build patches : Action (World σ) (Stop String) _)
      (.ok (patches.map fun patch => (patch.name, verdict patch))) := by
  induction patches with
  | nil => exact reads_pure _
  | cons patch rest ih => exact (hverdict patch).attempt.bind (ih.bind (reads_pure _))

/-- The collected failures are one line for each patch that was not planned, in order. -/
theorem collect_plans_lines (hinside : ∀ patch plan, verdict patch = .ok plan → ∀ write ∈ plan.writes,
      ∃ scope, image.InScope scope write.address write.expected.length)
    (patches : List Patch) :
    ∃ lines prepared, Reads usable memory
        (collect_plans os image (patches.map fun patch => (patch.name, verdict patch)))
        (.ok (lines, prepared)) ∧
      List.Forall₂ (FailureLine image memory verdict) (patches.filter fun patch => !(verdict patch).isOk)
        lines := by
  induction patches with
  | nil => exact ⟨[], [], reads_pure _, .nil⟩
  | cons patch rest ih =>
    obtain ⟨lines, prepared, hreads, hlines⟩ := ih
    cases hverdict : verdict patch with
    | ok plan =>
      obtain ⟨rows, hrows⟩ : ∃ rows, Reads usable memory
          (describe_writes os image patch.name plan.writes) (.ok rows) :=
        describe_writes_reads hreadable patch.name (hinside patch plan hverdict)
      let ready : PreparedPatch := ⟨patch.name, plan, rows.map fun row => row.1, rows.map fun row => row.2.1,
        rows.map fun row => row.2.2⟩
      refine ⟨lines, ready :: prepared, ?_, ?_⟩
      · rw [List.map_cons, hverdict]
        exact hrows.bind (hreads.bind (reads_pure _))
      · rwa [List.filter_cons_of_neg (by simp [hverdict, Except.isOk, Except.toBool])]
    | error error =>
      obtain ⟨text, htext, hdiagnoses⟩ : ∃ text, Diagnoses image memory patch text ∧
          Reads usable memory (failure_diagnostics os image patch.name) (.ok text) :=
        failure_diagnostics_reads hvalid hreadable hlive patch
      refine ⟨s!"{patch.name}: {error.to_string}{text}" :: lines, prepared, ?_, ?_⟩
      · rw [List.map_cons, hverdict]
        exact hdiagnoses.bind (hreads.bind (reads_pure _))
      · rw [List.filter_cons_of_pos (by simp [hverdict, Except.isOk, Except.toBool])]
        exact .cons ⟨error, text, hverdict, htext, rfl⟩ hlines

end Lines

section Planned

variable {portex : List UInt8 → Except String PEHeaders} {base : Nat} {file : List UInt8}
  {mapped : FileMappedModule} (hmapped : ModuleImage.from_pe_file portex base file = .ok mapped)
  {world : World σ} {patch : Patch}
include hmapped

/-- A plan for the mapping writes inside its sections. -/
theorem planned_on_mapping_in_scope {plan : PatchPlan}
    (hplan : planned_on_mapping os world file mapped patch = .ok plan) :
    ∀ write ∈ plan.writes, ∃ scope, mapped.image.InScope scope write.address write.expected.length := by
  intro write hwrite
  obtain ⟨hlaid, hlive⟩ := mapped_image_laid hmapped world.memory
  rw [planned_on_mapping, mapped_image_base hmapped] at hplan
  obtain ⟨site, _, target, rfl, hscope⟩ := (Patch.plan_selects hlaid hlive (eq_of_result hplan)).mem hwrite
  exact ⟨_, hscope⟩

/-- A planner that is called on the mapping again returns what it returned. -/
theorem planned_on_mapping_reads {usable : σ → Prop} (htop : base + mapped.image.size < USIZE_LIMIT)
    (hreadable : mapped.image.Readable os usable) (husable : usable world.os) :
    Reads usable (world.memory.write base mapped.mapping)
      (patch.plan os mapped.image (.from_file_size (some file.length)))
      (planned_on_mapping os world file mapped patch) := by
  obtain ⟨hvalid, hlive⟩ := mapped_image_valid hmapped htop world.memory
  obtain ⟨result, hreads, _⟩ :=
    Patch.plan_yields hvalid hreadable hlive (.from_file_size (some file.length)) patch
  obtain ⟨_, hrun, _⟩ :=
    hreads { world with memory := world.memory.write base mapped.mapping } rfl husable
  rwa [planned_on_mapping, mapped_image_base hmapped, hrun]

end Planned

/-- The error of a failed validation is complete. It has one line for each patch
that could not be planned on the mapping, in the order of the patches, with the
error of its planner; and the line of the items names every place of each of their
signatures once, with the byte that the file has there. -/
theorem failed_validation_lists_failures (os : Os σ) (usable : σ → Prop)
    (portex : List UInt8 → Except String PEHeaders) (base : Nat) (path : String) (file : List UInt8)
    (mapped : FileMappedModule) (hmapped : ModuleImage.from_pe_file portex base file = .ok mapped)
    (world : World σ) (hreads : MappingReads os usable mapped) (husable : usable world.os)
    (hfails : ∃ patch error, planned_on_mapping os world file mapped patch = .error error) :
    let verdict := planned_on_mapping os world file mapped
    let build := DuniaBuild.from_file_size (some file.length)
    ∃ lines, (validate_dunia_file os portex base path (.ok file) world).1 =
        .error (.error (s!"static validation failed for {path} ({build.to_string}):\n" ++
          "\n".intercalate lines)) ∧
      List.Forall₂ (FailureLine mapped.image (world.memory.write base mapped.mapping) verdict)
        (Patch.all.filter fun patch => !(verdict patch).isOk) lines := by
  intro verdict build
  obtain ⟨htop, hreadable⟩ := hreads
  obtain rfl : mapped.image.base = base := mapped_image_base hmapped
  obtain ⟨hvalid, hlive⟩ := mapped_image_valid hmapped htop world.memory
  let start : World σ := { world with memory := world.memory.write mapped.image.base mapped.mapping }
  have hverdict : ∀ patch, Reads usable start.memory (patch.plan os mapped.image build) (verdict patch) :=
    fun _ => planned_on_mapping_reads hmapped htop hreadable husable
  obtain ⟨planned, hplanned, hplannedMemory, hplannedUsable⟩ :=
    plan_all_verdicts hverdict Patch.all start rfl husable
  obtain ⟨lines, prepared, hreads, hlines⟩ :
      ∃ lines prepared, Reads usable start.memory (collect_plans os mapped.image (Patch.all.map fun patch =>
          (patch.name, verdict patch))) (.ok (lines, prepared)) ∧
        List.Forall₂ (FailureLine mapped.image start.memory verdict)
          (Patch.all.filter fun patch => !(verdict patch).isOk) lines :=
    collect_plans_lines hvalid hreadable hlive (fun _ _ => planned_on_mapping_in_scope hmapped) Patch.all
  obtain ⟨described, hcollect, _⟩ := hreads planned hplannedMemory hplannedUsable
  have hnonempty : ¬ lines.isEmpty := by
    obtain ⟨patch, error, hfailed⟩ := hfails
    have hmem : patch ∈ Patch.all.filter fun patch => !(verdict patch).isOk := by
      have hall : patch ∈ Patch.all := by cases patch <;> decide
      exact List.mem_filter.mpr ⟨hall, by simp [verdict, hfailed, Except.isOk, Except.toBool]⟩
    obtain ⟨line, hline, _⟩ := mem_of_forall₂ hlines.flip hmem
    simpa using List.ne_nil_of_mem hline
  refine ⟨lines, ?_, hlines⟩
  have hpatched : ∃ world', patch_mapped os path build mapped.image start =
      (.error (.error (s!"static validation failed for {path} ({build.to_string}):\n" ++
        "\n".intercalate lines)), world') := by
    rw [patch_mapped, make_plans, Action.bind_of_ok hplanned, Action.bind_of_ok hcollect]
    dsimp only
    rw [if_pos hnonempty]
    exact ⟨_, rfl⟩
  obtain ⟨world', hpatch⟩ := hpatched
  rw [validate_dunia_file, hmapped]
  dsimp only
  rw [Action.bind_of_ok (show allocate mapped.image.base mapped.mapping world = (.ok (), start) from rfl),
    validate_mapped, Action.bind_of_error hpatch]

/-- The sample file with another byte where the first of the items is patched. -/
def damaged_file : List UInt8 := sample_file.set 0x9B 0x20

def damaged_mapped : FileMappedModule where
  image := ⟨0x2_0000, 0x100, [⟨⟨".text", 0x10, 0x87, true, true, false⟩, sample_code.set 5 0x14⟩,
    ⟨⟨".rdata", 0xA0, 0x37, false, true, false⟩, sample_data.set 4 0x20⟩]⟩
  mapping := sample_mapped.mapping.set 0xA4 0x20

/-- The damaged file is refused with the one line of its items. -/
theorem failed_validation_lists_failures_on_sample :
    ∃ error text, Diagnoses damaged_mapped.image (Store.write (fun _ => 0) 0x2_0000 damaged_mapped.mapping)
        .no_blinking_items text ∧
      (validate_dunia_file page_table (fun _ => .ok sample_file_headers) 0x2_0000 "Dunia.dll"
        (.ok damaged_file) sample_heap_world).1 =
        .error (.error ("static validation failed for Dunia.dll (unknown build (file size 206)):\n" ++
          s!"no_blinking_items: {PatchError.to_string error}{text}")) := by
  have hmapped : ModuleImage.from_pe_file (fun _ => .ok sample_file_headers) 0x2_0000 damaged_file =
      .ok damaged_mapped := eq_ok_of_toOption (by decide +kernel)
  let verdict := planned_on_mapping page_table sample_heap_world damaged_file damaged_mapped
  have hfailed : (Patch.all.filter fun patch => !(verdict patch).isOk) = [.no_blinking_items] := by
    decide +kernel
  have hitems : ∃ error, verdict .no_blinking_items = .error error := by
    have hmem : Patch.no_blinking_items ∈ Patch.all.filter fun patch => !(verdict patch).isOk := by
      rw [hfailed]
      exact List.mem_singleton_self _
    cases hverdict : verdict .no_blinking_items with
    | error error => exact ⟨error, rfl⟩
    | ok plan => simp [hverdict, Except.isOk, Except.toBool] at hmem
  obtain ⟨lines, hresult, hlines⟩ := failed_validation_lists_failures page_table mapping_pages
    (fun _ => .ok sample_file_headers) 0x2_0000 "Dunia.dll" damaged_file damaged_mapped hmapped
    sample_heap_world (mapping_reads_of_pages hmapped rfl) sample_heap_pages ⟨_, hitems⟩
  rw [hfailed] at hlines
  obtain ⟨line, rest, ⟨error, text, _, htext, rfl⟩, hrest, rfl⟩ := List.forall₂_cons_left_iff.mp hlines
  cases hrest
  refine ⟨error, text, htext, hresult.trans ?_⟩
  have hbuild : (DuniaBuild.from_file_size (some damaged_file.length)).to_string =
      "unknown build (file size 206)" := by decide +kernel
  rw [hbuild]
  rfl

end systemdetection.patches.offline

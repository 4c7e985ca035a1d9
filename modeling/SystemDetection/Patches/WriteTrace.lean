import SystemDetection.Memory.WriteCases
import SystemDetection.Patches.FaultyRun
import SystemDetection.Patches.Observed

open effect store systemdetection.patches.memory systemdetection.patches.sigscan

namespace systemdetection

variable {σ : Type}

/-- The raw writes made so far. -/
def World.writes (world : World σ) : List Access := world.accesses.filter (·.kind = .write)

theorem World.writes_read (world : World σ) (address length : Nat) :
    World.writes { world with accesses := world.accesses ++ [⟨.read, address, length⟩] } = world.writes := by
  simp [World.writes, List.filter_append]

/-- Nothing was written in between. -/
def World.SameWrites (before after : World σ) : Prop := after.writes = before.writes

namespace patches

variable {os : Os σ} {world world' : World σ}

/-- No call of the system is a raw write. -/
theorem sameWrites_calls (os : Os σ) : Calls os World.SameWrites where
  refl _ := rfl
  trans _ _ _ hleft hright := Eq.trans hright hleft
  query _ _ := rfl
  refused _ _ _ _ _ _ := rfl
  protect _ _ _ _ := rfl
  flush _ _ _ := rfl

theorem sameWrites_watches (os : Os σ) : Watches os World.SameWrites where
  toQueries := (sameWrites_calls os).toQueries
  read := World.writes_read

/-- A checked write makes one raw write or none: one if it is reported as applied,
none if it was applied before. -/
theorem write_checked_writes {address : Nat} {expected replacement : List UInt8}
    {result : Except MemoryError WriteState}
    (hwrite : write_checked os address expected replacement world = (result, world')) :
    (world'.writes = world.writes ∧ result ≠ .ok .Applied) ∨
      (world'.writes = world.writes ++ [⟨.write, address, replacement.length⟩] ∧
        expected.length = replacement.length ∧ result ≠ .ok .AlreadyApplied) := by
  have hobserves := (sameWrites_calls os).toObserves
  rcases write_checked_cases hwrite with
    ⟨rfl, hvalid⟩ | ⟨⟨error, rfl⟩, huntouched, _⟩ | ⟨_, copied, hcopies, hfinish⟩
  · exact .inl ⟨(validate_bytes_relates hobserves.toQueries address expected replacement
      fun world => world.writes_read address _).of_eq hvalid, by simp⟩
  · exact .inl ⟨huntouched _ hobserves fun world => world.writes_read address _, by simp⟩
  · refine .inr ⟨?_, hcopies.guard.2.1, ?_⟩
    · have hfinished : world'.writes = copied.writes := (finish_write_relates (sameWrites_calls os) address
        replacement _ fun world => world.writes_read address _).of_eq hfinish
      obtain ⟨guarded, protection, queried, unlocked, hguard, hregion, hprotect, rfl⟩ := hcopies.steps
      have hguarded : guarded.writes = world.writes :=
        (validate_bytes_relates hobserves.toQueries address expected replacement fun world =>
          world.writes_read address _).of_eq hguard
      have hqueried : queried.writes = guarded.writes :=
        (writable_protection_relates hobserves.toQueries address replacement.length).of_eq hregion
      have hunlocked : unlocked.writes = queried.writes := by
        rw [virtual_protect_apply, Prod.mk.injEq] at hprotect
        rw [← hprotect.2]
        rfl
      rw [hfinished, ← hguarded, ← hqueried, ← hunlocked]
      simp [World.writes, List.filter_append]
    · rintro rfl
      obtain h | ⟨error, h⟩ := (finish_write_cases hfinish).1 <;> cases h

/-- The raw write that a checked write makes, and that its rollback makes again. -/
def CheckedWrite.access (self : CheckedWrite) : Access := ⟨.write, self.address, self.replacement.length⟩

/-- An undo makes one raw write at most, at the target. -/
theorem CheckedWrite.rollback_writes (os : Os σ) (write : CheckedWrite) (world : World σ) :
    (write.rollback os world).2.writes = world.writes ∨
      (write.rollback os world).2.writes = world.writes ++ [write.access] := by
  rcases hwrite : write_checked os write.address write.replacement write.expected world with ⟨result, world'⟩
  rw [CheckedWrite.rollback, Action.map_err_apply, hwrite]
  obtain ⟨hquiet, _⟩ | ⟨hmade, hlengths, _⟩ := write_checked_writes hwrite
  · exact .inl hquiet
  · rw [← hlengths] at hmade
    exact .inr hmade

/-- A rollback makes a part of the writes that it undoes, in its order. -/
theorem rollback_all_writes {writes : List CheckedWrite} {errors : List PatchError}
    (hrollback : rollback_all os writes world = (.ok errors, world')) :
    ∃ undone : List CheckedWrite, undone.Sublist writes ∧
      world'.writes = world.writes ++ undone.map CheckedWrite.access := by
  induction writes generalizing world errors with
  | nil =>
    cases hrollback
    exact ⟨[], .slnil, by simp⟩
  | cons write rest ih =>
    obtain ⟨result, middle, hresult, hrollback⟩ := Action.bind_eq_ok_iff.mp hrollback
    obtain ⟨others, final, hothers, hrollback⟩ := Action.bind_eq_ok_iff.mp hrollback
    have hfinal : final = world' := by
      cases result with
      | error error =>
        cases hrollback
        rfl
      | ok state =>
        cases hrollback
        rfl
    subst hfinal
    obtain ⟨undone, hsublist, hrest⟩ := ih hothers
    have hwrites := write.rollback_writes os world
    rw [Action.attempt_apply, Prod.mk.injEq] at hresult
    rw [hresult.2] at hwrites
    obtain hquiet | hmade := hwrites
    · exact ⟨undone, hsublist.cons write, by rw [hrest, hquiet]⟩
    · exact ⟨write :: undone, hsublist.cons_cons write, by simp [hrest, hmade]⟩

/-- The writes that succeeded made one raw write each where they were applied. -/
theorem Forward.writes {writes now : List CheckedWrite} (hforward : Forward os world writes now world') :
    now.Sublist writes ∧ world'.writes = world.writes ++ now.map CheckedWrite.access := by
  induction hforward with
  | nil world => exact ⟨.slnil, by simp⟩
  | @applied world next reached write writes now hwrite _ ih =>
    obtain ⟨_, hnot⟩ | ⟨hmade, _⟩ := write_checked_writes (Action.map_err_eq_ok_iff.mp hwrite)
    · exact absurd rfl hnot
    · refine ⟨ih.1.cons_cons write, ?_⟩
      rw [ih.2, hmade, List.map_cons, List.append_assoc]
      rfl
  | @already world next reached write writes now hwrite _ ih =>
    obtain ⟨hquiet, _⟩ | ⟨_, _, hnot⟩ := write_checked_writes (Action.map_err_eq_ok_iff.mp hwrite)
    · exact ⟨ih.1.cons write, by rw [ih.2, hquiet]⟩
    · exact absurd rfl hnot

/-- The raw writes of a plan that fails: some of its writes in their order, then the one
that failed if it got that far, and then the first ones again in the reverse order, as
far as they could be undone. -/
def PatchPlan.Undoes (plan : PatchPlan) (made : List Access) : Prop :=
  ∃ completed torn undone : List CheckedWrite, (completed ++ torn).Sublist plan.writes ∧ torn.length ≤ 1 ∧
    undone.Sublist completed.reverse ∧ made = (completed ++ torn ++ undone).map CheckedWrite.access

/-- A plan that fails has made a part of its writes and then undone a part of these. -/
theorem PatchPlan.apply_undoes {plan : PatchPlan} {error : PatchError}
    (happly : plan.apply os world = (.error error, world')) :
    ∃ made, world'.writes = world.writes ++ made ∧ plan.Undoes made := by
  rcases apply_loop_cases 0 0 [] plan.writes happly with ⟨_, _, hok⟩ |
    ⟨done, write, rest, now, reached, failed, cause, errors, hwrites, hforward, hfail, hrollback, _⟩
  · cases hok
  · obtain ⟨hnow, hreached⟩ := hforward.writes
    obtain ⟨undone, hundone, hundid⟩ := rollback_all_writes hrollback
    rw [List.nil_append] at hundone
    obtain ⟨_, hwrite, _⟩ := Action.map_err_eq_error_iff.mp hfail
    obtain ⟨hquiet, _⟩ | ⟨hmade, _⟩ := write_checked_writes hwrite
    · refine ⟨_, ?_, now, [], undone, ?_, by simp, hundone, rfl⟩
      · rw [hundid, hquiet, hreached]
        simp
      · rw [hwrites, List.append_nil]
        exact hnow.trans (List.sublist_append_left done _)
    · refine ⟨_, ?_, now, [write], undone, ?_, by simp, hundone, rfl⟩
      · rw [hundid, hmade, hreached]
        simp [CheckedWrite.access]
      · rw [hwrites]
        exact hnow.append ((List.nil_sublist rest).cons_cons write)

/-- A plan that succeeds is reported as applied unless it wrote nothing. -/
theorem PatchPlan.apply_writes {plan : PatchPlan} {state : WriteState}
    (happly : plan.apply os world = (.ok state, world')) :
    ∃ completed : List CheckedWrite, completed.Sublist plan.writes ∧
      world'.writes = world.writes ++ completed.map CheckedWrite.access ∧
      (state = .AlreadyApplied ↔ completed = []) := by
  rcases apply_loop_cases 0 0 [] plan.writes happly with
    ⟨now, hforward, hstate⟩ | ⟨_, _, _, _, _, _, _, _, _, _, _, _, herror⟩
  · obtain ⟨hnow, hmade⟩ := hforward.writes
    refine ⟨now, hnow, hmade, ?_⟩
    have hpositive := List.length_pos_iff.mpr plan.writes_ne_nil
    cases hstate
    cases now with
    | nil => simp [plan.writes_ne_nil]
    | cons write now => simp
  · cases herror

/-- The raw writes that are made for a patch with this outcome, by one of the given plans. -/
def PatchOutcome.Journals (self : PatchOutcome) (planned : PatchPlan → Prop) (made : List Access) : Prop :=
  match self.status with
  | .Disabled | .AlreadyApplied => made = []
  | .Applied => ∃ plan, planned plan ∧ ∃ completed : List CheckedWrite, completed.Sublist plan.writes ∧
      completed ≠ [] ∧ made = completed.map CheckedWrite.access
  | .Failed _ => made = [] ∨ ∃ plan, planned plan ∧ plan.Undoes made

/-- A journal remains one when more plans are admitted. -/
theorem PatchOutcome.Journals.imp {outcome : PatchOutcome} {planned planned' : PatchPlan → Prop}
    {made : List Access} (hjournals : outcome.Journals planned made) (himp : ∀ plan, planned plan → planned' plan) :
    outcome.Journals planned' made := by
  unfold PatchOutcome.Journals at hjournals ⊢
  cases hstatus : outcome.status with
  | Disabled | AlreadyApplied => rwa [hstatus] at hjournals
  | Applied =>
    rw [hstatus] at hjournals
    obtain ⟨plan, hplanned, hcompleted⟩ := hjournals
    exact ⟨plan, himp plan hplanned, hcompleted⟩
  | Failed reason =>
    rw [hstatus] at hjournals
    obtain hnone | ⟨plan, hplanned, hundoes⟩ := hjournals
    · exact .inl hnone
    · exact .inr ⟨plan, himp plan hplanned, hundoes⟩

/-- The outcome of the patch, with the raw writes made for it. -/
def Journaled (name : String) (planned : PatchPlan → Prop) : PatchOutcome × List Access → Prop
  | (outcome, made) => outcome.name = name ∧ outcome.Journals planned made

def PreparedPatch.name : PreparedPatch → String
  | .Disabled name | .Ready name _ | .Failed name _ => name

/-- Applying a prepared patch appends its journal to the log. -/
theorem PreparedPatch.apply_journals (os : Os σ) (prepared : PreparedPatch) (world : World σ) :
    ∃ outcome next made, prepared.apply os world = (.ok outcome, next) ∧ next.writes = world.writes ++ made ∧
      Journaled prepared.name (· ∈ prepared.plans) (outcome, made) := by
  cases prepared with
  | Disabled name => exact ⟨_, world, [], rfl, by simp, rfl, rfl⟩
  | Failed name error => exact ⟨_, world, [], rfl, by simp, rfl, .inl rfl⟩
  | Ready name plan =>
    have hmem : plan ∈ (PreparedPatch.Ready name plan).plans := List.mem_singleton_self plan
    rcases happly : plan.apply os world with ⟨error | state, next⟩
    · obtain ⟨made, hmade, hundoes⟩ := PatchPlan.apply_undoes happly
      refine ⟨⟨name, .Failed error.to_string⟩, next, made, ?_, hmade, rfl, .inr ⟨plan, hmem, hundoes⟩⟩
      rw [PreparedPatch.apply, Action.bind_of_ok (Action.attempt_of_eq happly)]
      rfl
    · obtain ⟨completed, hsublist, hmade, hstate⟩ := PatchPlan.apply_writes happly
      cases state with
      | Applied =>
        refine ⟨⟨name, .Applied⟩, next, _, ?_, hmade, rfl, plan, hmem, completed, hsublist, ?_, rfl⟩
        · rw [PreparedPatch.apply, Action.bind_of_ok (Action.attempt_of_eq happly)]
          rfl
        · simpa using hstate
      | AlreadyApplied =>
        refine ⟨⟨name, .AlreadyApplied⟩, next, _, ?_, hmade, rfl, ?_⟩
        · rw [PreparedPatch.apply, Action.bind_of_ok (Action.attempt_of_eq happly)]
          rfl
        · rw [hstate.mp rfl]
          rfl

/-- A pass over the patches appends their journals one after the other. -/
theorem apply_patches_journals (os : Os σ) (prepared : List PreparedPatch) (world : World σ) :
    ∃ outcomes next traces, apply_patches os prepared world = (.ok outcomes, next) ∧
      next.writes = world.writes ++ traces.flatten ∧ traces.length = outcomes.length ∧
      List.Forall₂ (fun ready => Journaled ready.name (· ∈ ready.plans)) prepared (outcomes.zip traces) := by
  induction prepared generalizing world with
  | nil => exact ⟨[], world, [], rfl, by simp, rfl, .nil⟩
  | cons ready rest ih =>
    obtain ⟨outcome, middle, made, happly, hmade, hjournals⟩ := ready.apply_journals os world
    obtain ⟨outcomes, next, traces, hothers, htraces, hlength, hforall⟩ := ih middle
    refine ⟨outcome :: outcomes, next, made :: traces, ?_, ?_, by simp [hlength], .cons hjournals hforall⟩
    · rw [apply_patches, Action.bind_of_ok happly, Action.bind_of_ok hothers]
      rfl
    · rw [htraces, hmade, List.flatten_cons, List.append_assoc]

/-- A run that ends before any plan is made writes nothing. -/
theorem fail_enabled_journals (planned : Patch → PatchPlan → Prop) (config : PatchConfig) (reason : String)
    {before after : World σ} (hwrites : after.writes = before.writes) :
    ∃ traces, after.writes = before.writes ++ traces.flatten ∧
      traces.length = (PatchReport.new.fail_enabled config reason).outcomes.length ∧
      List.Forall₂ (fun patch => Journaled patch.name (planned patch)) Patch.all
        ((PatchReport.new.fail_enabled config reason).outcomes.zip traces) := by
  refine ⟨Patch.all.map fun _ => [], by simpa [Patch.all] using hwrites, rfl, ?_⟩
  rw [PatchReport.fail_enabled, List.zip_map', List.forall₂_map_right_iff, List.forall₂_same]
  intro patch _
  refine ⟨rfl, ?_⟩
  cases henabled : config.enabled patch with
  | false => simp [PatchOutcome.Journals]
  | true => simp [PatchOutcome.Journals]

/-- What a run writes, under any failures of the system: for each patch in its turn some
writes of its plan in their order, undone in the reverse order if the patch is reported as
failed; and nothing for a patch that is disabled or was applied before. -/
theorem run_journals (os : Os σ) (dunia : Except String LoadedModule) (config : PatchConfig) (world : World σ) :
    ∃ report world' traces, run os dunia config world = (.ok report, world') ∧
      world'.writes = world.writes ++ traces.flatten ∧ traces.length = report.outcomes.length ∧
      List.Forall₂ (fun patch => Journaled patch.name (PlannedIn os dunia config world patch)) Patch.all
        (report.outcomes.zip traces) := by
  have hwatches := sameWrites_watches os
  cases dunia with
  | error error =>
    obtain ⟨traces, hjournals⟩ := fail_enabled_journals (PlannedIn os (.error error) config world) config
      s!"Dunia.dll is not loaded: {error}" (Eq.refl world.writes)
    exact ⟨_, world, traces, rfl, hjournals⟩
  | ok module =>
    obtain ⟨error, loaded, hload⟩ | ⟨image, loaded, hload⟩ := ModuleImage.from_module_cases os module world
    · obtain ⟨traces, hjournals⟩ := fail_enabled_journals (PlannedIn os (.ok module) config world) config
        s!"could not inspect Dunia.dll: {error.to_string}" ((from_module_relates hwatches module).of_eq hload)
      refine ⟨_, loaded, traces, ?_, hjournals⟩
      rw [run, Action.bind_of_ok (Action.attempt_of_eq hload)]
      rfl
    · obtain ⟨prepared, planned, hprepare, hforall⟩ :=
        prepare_patches_cases os image (.from_file_size module.file_size) config Patch.all loaded
      obtain ⟨outcomes, world', traces, happly, hwrites, hlength, hjournals⟩ :=
        apply_patches_journals os prepared planned
      obtain ⟨report, rfl, hrun⟩ := run_of_stages hload hprepare happly
      refine ⟨report, world', traces, hrun, ?_, hlength, (forall₂_join hforall.flip hjournals).imp ?_⟩
      · have hloaded : loaded.writes = world.writes := (from_module_relates hwatches module).of_eq hload
        have hplanned : planned.writes = loaded.writes :=
          (prepare_patches_relates hwatches image _ config Patch.all).of_eq hprepare
        rw [hwrites, hplanned, hloaded]
      · rintro patch ⟨outcome, made⟩ ⟨ready, _, ⟨early, late, hsplit, hready⟩, hname, hmade⟩
        cases hready with
        | disabled hdisabled => exact ⟨hname, hmade.imp fun plan hplan => by cases hplan⟩
        | failed henabled _ => exact ⟨hname, hmade.imp fun plan hplan => by cases hplan⟩
        | ready henabled hplan =>
          refine ⟨hname, hmade.imp fun plan hmem => ?_⟩
          obtain rfl := List.mem_singleton.mp hmem
          exact ⟨module, image, loaded, early, late, _, rfl, hload, hsplit, hplan⟩

end patches

end systemdetection

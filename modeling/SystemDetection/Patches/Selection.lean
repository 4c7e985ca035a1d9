import SystemDetection.Patches.PlannerReads

open effect store systemdetection.patches.memory systemdetection.patches.sigscan

namespace systemdetection.patches

variable {σ : Type}

/-- The target holds one of the two byte strings. -/
def Guard.Held (guard : Guard) (memory : Store UInt8) (target : Nat) : Prop :=
  memory.read target guard.expected.length = guard.expected ∨
    memory.read target guard.expected.length = guard.replacement

/-- A match in the snapshot whose target lies in the section of the match and
is guarded in memory. The two differ once memory has been patched. -/
structure Recipe.Guarded (recipe : Recipe) (image : ModuleImage) (snapshot memory : Store UInt8)
    (start : Nat) : Prop where
  fits : recipe.Fits image start
  matches_at : recipe.pattern.MatchesAt snapshot start
  held : recipe.toGuard.Held memory (start + recipe.target_offset)

/-- The round of the search that judges one match. -/
def Recipe.judge (os : Os σ) (image : ModuleImage) (recipe : Recipe) (start : Nat) :
    Action (World σ) PatchError (Except String Nat) :=
  validate_match os image recipe.scope recipe.target_offset recipe.expected recipe.replacement start

/-- The matches are judged one after the other, and none of them has a guarded
target that the system lets the search read in its turn. -/
inductive TurnsDown (os : Os σ) (image : ModuleImage) (snapshot : Store UInt8) (recipe : Recipe) :
    World σ → List Nat → World σ → Prop where
  | nil (world : World σ) : TurnsDown os image snapshot recipe world [] world
  | cons {world last : World σ} {start : Nat} {rest : List Nat}
      (hrefused : recipe.Guarded image snapshot world.memory start →
        ∃ error, (read_bytes os (start + recipe.target_offset) recipe.expected.length world).1 =
          .error error)
      (hrest : TurnsDown os image snapshot recipe (recipe.judge os image start world).2 rest last) :
      TurnsDown os image snapshot recipe world (start :: rest) last

/-- How the target of a site is selected between two worlds, whatever the system
answers: as the only guarded target that the matches of a signature have, or at
a fixed RVA whose bytes, and whose signature if it has one, are there. -/
def Site.Selects (os : Os σ) (image : ModuleImage) (snapshot : Store UInt8) (before after : World σ)
    (target : Nat) : Site → Prop
  | .unique recipe => ∃ early start late reached,
    image.scan recipe.pattern recipe.scope = early ++ start :: late ∧
    target = start + recipe.target_offset ∧
    recipe.Guarded image snapshot before.memory start ∧
    TurnsDown os image snapshot recipe before early reached ∧
    TurnsDown os image snapshot recipe (recipe.judge os image start reached).2 late after
  | .known recipe target_rva => target = image.base + target_rva ∧ ∃ start,
    target = start + recipe.target_offset ∧
    image.InScope recipe.scope start recipe.pattern.len ∧
    recipe.pattern.MatchesAt snapshot start ∧
    image.InScope recipe.scope target recipe.expected.length ∧
    recipe.toGuard.Held before.memory target
  | .fixed guard scope target_rva => target = image.base + target_rva ∧
    image.InScope scope target guard.expected.length ∧ guard.Held before.memory target

/-- The targets of the sites are selected in order, each from where the one
before it has left the system, and written with the bytes of their guards. -/
inductive Selections (os : Os σ) (image : ModuleImage) (snapshot : Store UInt8) :
    World σ → List Site → List CheckedWrite → Prop where
  | nil (world : World σ) : Selections os image snapshot world [] []
  | cons {before after : World σ} {site : Site} {sites : List Site} {target : Nat}
      {writes : List CheckedWrite} (hselects : site.Selects os image snapshot before after target)
      (hmemory : after.memory = before.memory)
      (hrest : Selections os image snapshot after sites writes) :
      Selections os image snapshot before (site :: sites) (site.guard.write target :: writes)

/-- A selected target lies in the scope of its site. -/
theorem Site.Selects.in_scope {os : Os σ} {image : ModuleImage} {snapshot : Store UInt8}
    {before after : World σ} {target : Nat} {site : Site}
    (hselects : site.Selects os image snapshot before after target) :
    image.InScope site.scope target site.guard.expected.length := by
  cases site with
  | unique recipe =>
    obtain ⟨_, start, _, _, _, rfl, ⟨⟨loaded, hmem, hin, _, hholds⟩, _, _⟩, _⟩ := hselects
    exact ⟨loaded, hmem, hin, hholds⟩
  | known recipe target_rva =>
    obtain ⟨_, _, _, _, _, hscope, _⟩ := hselects
    exact hscope
  | fixed guard scope target_rva => exact hselects.2.1

/-- Every write of a selection was selected by one of its sites. -/
theorem Selections.mem {os : Os σ} {image : ModuleImage} {snapshot : Store UInt8} {before : World σ}
    {sites : List Site} {writes : List CheckedWrite}
    (hselections : Selections os image snapshot before sites writes) {write : CheckedWrite}
    (hmem : write ∈ writes) :
    ∃ site ∈ sites, ∃ target, write = site.guard.write target ∧
      image.InScope site.scope target site.guard.expected.length := by
  induction hselections with
  | nil world => cases hmem
  | @cons before after site sites target writes hselects hmemory hrest ih =>
    obtain rfl | hrest := List.mem_cons.mp hmem
    · exact ⟨site, List.mem_cons_self, target, rfl, hselects.in_scope⟩
    · obtain ⟨other, hother, hsite⟩ := ih hrest
      exact ⟨other, List.mem_cons_of_mem _ hother, hsite⟩

/-- A target whose bytes pass the guard holds one of its byte strings. -/
theorem Guard.held_of_validated {os : Os σ} {guard : Guard} {target : Nat} {state : WriteState}
    {world next : World σ}
    (hvalidate : validate_bytes os target guard.expected guard.replacement world = (.ok state, next)) :
    guard.Held world.memory target ∧ next.memory = world.memory := by
  obtain ⟨_, hlengths, hguarded, hmemory⟩ := validate_bytes_ok hvalidate
  refine ⟨?_, hmemory⟩
  cases state with
  | AlreadyApplied =>
    refine .inr ?_
    rw [hlengths]
    exact hguarded
  | Applied => exact .inl hguarded.1

section Search

variable {os : Os σ} {image : ModuleImage} (hlaid : image.Laid) {snapshot : Store UInt8} {recipe : Recipe}
include hlaid

/-- Judging a match changes no memory. -/
theorem Recipe.judge_memory (start : Nat) (world : World σ) :
    (recipe.judge os image start world).2.memory = world.memory := by
  have hjudge : Confined (fun _ => True) world.memory (recipe.judge os image start) _ :=
    validate_match_confined os hlaid (fun _ _ _ _ => trivial) world.memory recipe.scope
      recipe.target_offset recipe.expected recipe.replacement start
  exact (hjudge world rfl).2.1

/-- The target that a match is accepted for is its own, and its guard held. -/
theorem Recipe.judge_accepts {start target : Nat} {world next : World σ}
    (hmatched : image.Matched snapshot recipe.pattern recipe.scope start)
    (hjudge : recipe.judge os image start world = (.ok (.ok target), next)) :
    target = start + recipe.target_offset ∧ recipe.Guarded image snapshot world.memory start := by
  obtain ⟨⟨loaded, hmem, hin, hholds⟩, hmatches⟩ := hmatched
  unfold Recipe.judge validate_match at hjudge
  cases hsum : checked_add start recipe.target_offset with
  | none =>
    rw [hsum] at hjudge
    cases hjudge
  | some sum =>
    rw [hsum] at hjudge
    dsimp only at hjudge
    obtain ⟨rfl, _⟩ := checked_add_eq_some_iff.mp hsum
    cases hcontains : image.contains_relative_target start (start + recipe.target_offset)
        recipe.expected.length recipe.scope with
    | false =>
      rw [hcontains] at hjudge
      cases hjudge
    | true =>
      rw [hcontains] at hjudge
      obtain ⟨other, hother, _, hfirst, htarget⟩ :=
        (ModuleImage.contains_relative_target_iff hlaid).mp hcontains
      obtain rfl := hlaid.section_unique hother hmem hfirst (hholds.first recipe.pattern.len_pos)
      obtain ⟨result, middle, hvalidate, hjudge⟩ := Action.bind_eq_ok_iff.mp hjudge
      rw [Action.attempt_apply, Prod.mk.injEq, Except.ok.injEq] at hvalidate
      obtain ⟨hresult, rfl⟩ := hvalidate
      cases result with
      | error error => cases hjudge
      | ok state =>
        cases hjudge
        have hheld := (Guard.held_of_validated (Action.eq_of_result hresult)).1
        exact ⟨rfl, ⟨other, hother, hin, hholds, htarget⟩, hmatches, hheld⟩

/-- A guarded match is rejected only when its target is not read. -/
theorem Recipe.judge_rejects {start : Nat} {reason : String} {world next : World σ}
    (hjudge : recipe.judge os image start world = (.ok (.error reason), next))
    (hguarded : recipe.Guarded image snapshot world.memory start) :
    ∃ error, (read_bytes os (start + recipe.target_offset) recipe.expected.length world).1 =
      .error error := by
  obtain ⟨⟨loaded, hmem, hin, hholds, htarget⟩, _, hheld⟩ := hguarded
  have hlength : recipe.expected.length ≠ 0 := by
    rw [recipe.lengths]
    exact fun hzero => recipe.nonempty (List.length_eq_zero_iff.mp hzero)
  unfold Recipe.judge validate_match at hjudge
  cases hsum : checked_add start recipe.target_offset with
  | none =>
    have := checked_add_eq_none_iff.mp hsum
    exact read_bytes_overflow os hlength (by omega) world
  | some sum =>
    obtain ⟨rfl, _⟩ := checked_add_eq_some_iff.mp hsum
    have hcontains : image.contains_relative_target start (start + recipe.target_offset)
        recipe.expected.length recipe.scope = true :=
      (ModuleImage.contains_relative_target_iff hlaid).mpr
        ⟨loaded, hmem, hin, hholds.first recipe.pattern.len_pos, htarget⟩
    rw [hsum] at hjudge
    dsimp only at hjudge
    rw [hcontains] at hjudge
    obtain ⟨result, middle, hvalidate, hjudge⟩ := Action.bind_eq_ok_iff.mp hjudge
    rw [Action.attempt_apply, Prod.mk.injEq, Except.ok.injEq] at hvalidate
    cases result with
    | ok state => cases hjudge
    | error error => exact validate_bytes_refused os recipe.nonempty recipe.lengths hheld hvalidate.1

/-- The loop accepts nothing and turns every match down, or it accepts a first match. -/
theorem validate_matches_ok {starts accepted accepted' : List Nat} {rejected rejected' : List String}
    {world last : World σ}
    (hmatched : ∀ start ∈ starts, image.Matched snapshot recipe.pattern recipe.scope start)
    (hloop : validate_matches os image recipe.scope recipe.target_offset recipe.expected
      recipe.replacement accepted rejected starts world = (.ok (accepted', rejected'), last)) :
    (accepted' = accepted ∧ TurnsDown os image snapshot recipe world starts last) ∨
    ∃ early start late reached more, starts = early ++ start :: late ∧
      accepted' = accepted ++ (start + recipe.target_offset) :: more ∧
      recipe.Guarded image snapshot world.memory start ∧
      TurnsDown os image snapshot recipe world early reached ∧
      (more = [] →
        TurnsDown os image snapshot recipe (recipe.judge os image start reached).2 late last) := by
  induction starts generalizing accepted rejected world with
  | nil =>
    cases hloop
    exact .inl ⟨rfl, .nil _⟩
  | cons start rest ih =>
    rw [List.forall_mem_cons] at hmatched
    obtain ⟨verdict, next, hjudge, hrest⟩ := Action.bind_eq_ok_iff.mp hloop
    change recipe.judge os image start world = (.ok verdict, next) at hjudge
    have hnext : (recipe.judge os image start world).2 = next := by rw [hjudge]
    have hmemory : next.memory = world.memory := by rw [← hnext, Recipe.judge_memory hlaid]
    cases verdict with
    | ok target =>
      obtain ⟨rfl, hguarded⟩ := Recipe.judge_accepts hlaid hmatched.1 hjudge
      refine .inr ⟨[], start, rest, world, ?_⟩
      obtain ⟨rfl, hturned⟩ | ⟨_, _, _, _, more, _, rfl, _⟩ := ih hmatched.2 hrest
      · exact ⟨[], rfl, by simp, hguarded, .nil world, fun _ => by rwa [hnext]⟩
      · exact ⟨_ :: more, rfl, by rw [List.append_assoc, List.singleton_append], hguarded, .nil world, nofun⟩
    | error reason =>
      have hrefused : recipe.Guarded image snapshot world.memory start → _ :=
        Recipe.judge_rejects hlaid hjudge
      obtain ⟨hsame, hturned⟩ | ⟨early, first, late, reached, more, hsplit, haccepted, hguarded,
        hearly, hlate⟩ := ih hmatched.2 hrest
      · exact .inl ⟨hsame, .cons hrefused (by rwa [hnext])⟩
      · refine .inr ⟨start :: early, first, late, reached, more, by rw [hsplit, List.cons_append],
          haccepted, by rwa [← hmemory], .cons hrefused (by rwa [hnext]), hlate⟩

end Search

end systemdetection.patches

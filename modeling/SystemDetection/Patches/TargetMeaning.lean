import SystemDetection.Memory.Granting
import SystemDetection.Patches.Target
import SystemDetection.Sigscan.Readable

open effect store systemdetection.patches.memory systemdetection.patches.sigscan

namespace systemdetection.patches

variable {σ : Type}

/-- What one round decides when memory is readable. -/
def match_verdict (image : ModuleImage) (memory : Store UInt8) (scope : ScanScope)
    (target_offset : Nat) (expected replacement : List UInt8) (start : Nat) : Except String Nat :=
  match checked_add start target_offset with
  | none => .error s!"match 0x{upper_hex 8 start}: target address overflow"
  | some target =>
    if !image.contains_relative_target start target expected.length scope then
      .error s!"match 0x{upper_hex 8 start}: target 0x{upper_hex 8 target} leaves its matched PE section"
    else
      match classify_bytes target expected replacement (memory.read target expected.length) with
      | .ok _ => .ok target
      | .error error => .error error.to_string

/-- The reason for which a verdict rejects. -/
def rejection : Except String Nat → Option String
  | .ok _ => none
  | .error reason => some reason

/-- What `find_signature_target` decides when memory is readable. -/
def target_resolution (image : ModuleImage) (memory : Store UInt8) (signature : String)
    (pattern : Pattern) (scope : ScanScope) (target_offset : Nat) (expected replacement : List UInt8) :
    Except PatchError Nat :=
  let raw_matches := image.scan pattern scope
  let verdict := match_verdict image memory scope target_offset expected replacement
  if raw_matches.isEmpty then
    .error (.SignatureNotFound signature scope)
  else
    match raw_matches.filterMap fun start => (verdict start).toOption with
    | [target] => .ok target
    | [] => .error (.NoValidatedTarget signature raw_matches.length
        (raw_matches.filterMap fun start => rejection (verdict start)))
    | targets => .error (.AmbiguousTarget signature targets)

/-- A target passes with its old bytes or with its new ones. -/
theorem classify_bytes_isOk_iff (address : Nat) {expected replacement actual : List UInt8} :
    (∃ state, classify_bytes address expected replacement actual = .ok state) ↔
      actual = expected ∨ actual = replacement := by
  unfold classify_bytes
  split
  · simp [*]
  · split <;> simp [*]

section Meaning

variable {os : Os σ} {usable : σ → Prop} {image : ModuleImage} {memory : Store UInt8}
  {pattern : Pattern} {scope : ScanScope} {target_offset : Nat} {expected replacement : List UInt8}

/-- Over readable memory a match is judged by the bytes at its target. -/
theorem validate_match_reads (hvalid : image.Valid)
    (hreadable : image.Readable os usable)
    (hnonempty : replacement ≠ []) (hlength : expected.length = replacement.length) (start : Nat) :
    Reads usable memory (validate_match os image scope target_offset expected replacement start)
      (.ok (match_verdict image memory scope target_offset expected replacement start)) := by
  unfold validate_match match_verdict
  cases checked_add start target_offset with
  | none => exact reads_pure _
  | some target =>
    dsimp only
    cases hcontains : image.contains_relative_target start target expected.length scope with
    | false => exact reads_pure _
    | true =>
      obtain ⟨loaded, hmem, hscope, _, hholds⟩ :=
        (ModuleImage.contains_relative_target_iff hvalid.toLaid).mp hcontains
      have htarget : Readable os usable target (target + expected.length) :=
        hreadable.in_scope ⟨loaded, hmem, hscope, hholds⟩
      refine ((htarget.validate_bytes_reads memory (Nat.le_refl _) (Nat.le_refl _) hnonempty hlength).attempt).bind ?_
      cases classify_bytes target expected replacement (memory.read target expected.length) with
      | ok state => exact reads_pure _
      | error error => exact reads_pure _

/-- So are all the matches, in their order. -/
theorem validate_matches_reads (hvalid : image.Valid)
    (hreadable : image.Readable os usable)
    (hnonempty : replacement ≠ []) (hlength : expected.length = replacement.length)
    (accepted : List Nat) (rejected : List String) (starts : List Nat) :
    let verdict := match_verdict image memory scope target_offset expected replacement
    Reads usable memory
      (validate_matches os image scope target_offset expected replacement accepted rejected starts)
      (.ok (accepted ++ starts.filterMap fun start => (verdict start).toOption,
        rejected ++ starts.filterMap fun start => rejection (verdict start))) := by
  dsimp only
  induction starts generalizing accepted rejected with
  | nil =>
    simp only [List.filterMap_nil, List.append_nil]
    exact reads_pure _
  | cons start rest ih =>
    refine (validate_match_reads hvalid hreadable hnonempty hlength start).bind ?_
    cases hverdict : match_verdict image memory scope target_offset expected replacement start with
    | ok target =>
      simpa [List.filterMap_cons, hverdict, Except.toOption, rejection] using ih (accepted ++ [target]) rejected
    | error reason =>
      simpa [List.filterMap_cons, hverdict, Except.toOption, rejection] using ih accepted (rejected ++ [reason])

/-- On readable memory `find_signature_target` is a function of the bytes. -/
theorem find_signature_target_reads (hvalid : image.Valid)
    (hreadable : image.Readable os usable)
    (hnonempty : replacement ≠ []) (hlength : expected.length = replacement.length)
    {signature : String} (hparse : Pattern.parse signature = .ok pattern) :
    Reads usable memory
      (find_signature_target os image signature scope target_offset expected replacement)
      (target_resolution image memory signature pattern scope target_offset expected replacement) := by
  have hpattern : Reads usable memory
      (Action.lift ((Pattern.parse signature).mapError PatchError.Scan) : Action (World σ) _ _)
      (.ok pattern) := by
    rw [hparse]
    exact reads_lift _
  refine hpattern.bind ?_
  dsimp only
  unfold target_resolution
  dsimp only
  split
  · exact reads_throw _
  · refine (validate_matches_reads hvalid hreadable hnonempty hlength [] [] _).bind ?_
    simp only [List.nil_append]
    generalize List.filterMap _ _ = accepted
    obtain _ | ⟨target, _ | ⟨second, rest⟩⟩ := accepted
    · exact reads_throw _
    · exact reads_pure _
    · exact reads_throw _

/-- A match is accepted exactly when it is a candidate: the section found for
its start and its target is the one that holds the whole match. -/
theorem match_verdict_eq_ok_iff (hvalid : image.Valid) {start target : Nat}
    (hmatched : image.Matched memory pattern scope start) :
    match_verdict image memory scope target_offset expected replacement start = .ok target ↔
      target = start + target_offset ∧
        image.Candidate memory pattern scope target_offset expected replacement start := by
  obtain ⟨⟨loaded, hmem, hscope, hholds⟩, hmatch⟩ := hmatched
  have hfirst := hholds.first pattern.len_pos
  unfold match_verdict
  constructor
  · intro hverdict
    cases hsum : checked_add start target_offset with
    | none => simp [hsum] at hverdict
    | some sum =>
      obtain ⟨rfl, _⟩ := checked_add_eq_some_iff.mp hsum
      cases hcontains : image.contains_relative_target start (start + target_offset) expected.length scope with
      | false => simp [hsum, hcontains] at hverdict
      | true =>
        obtain ⟨other, hother, _, hotherFirst, htarget⟩ :=
          (ModuleImage.contains_relative_target_iff hvalid.toLaid).mp hcontains
        obtain rfl := hvalid.section_unique hother hmem hotherFirst hfirst
        cases hclassify : classify_bytes (start + target_offset) expected replacement
          (memory.read (start + target_offset) expected.length) with
        | error error => simp [hsum, hcontains, hclassify] at hverdict
        | ok state =>
          have htargetEq : target = start + target_offset := by
            simpa [hsum, hcontains, hclassify, eq_comm] using hverdict
          exact ⟨htargetEq, ⟨other, hother, hscope, hholds, htarget⟩, hmatch,
            (classify_bytes_isOk_iff _).mp ⟨state, hclassify⟩⟩
  · rintro ⟨rfl, ⟨other, hother, hotherScope, hotherHolds, htarget⟩, _, hguarded⟩
    have hfits : start + target_offset < USIZE_LIMIT := by
      have := hvalid.in_bounds other hother
      have := hvalid.below_top
      have := htarget.2
      omega
    have hcontains : image.contains_relative_target start (start + target_offset)
        expected.length scope = true :=
      (ModuleImage.contains_relative_target_iff hvalid.toLaid).mpr
        ⟨other, hother, hotherScope, hotherHolds.first pattern.len_pos, htarget⟩
    obtain ⟨state, hclassify⟩ := (classify_bytes_isOk_iff (start + target_offset)).mpr hguarded
    simp [checked_add_of_lt hfits, hcontains, hclassify]

/-- The verdict accepts by the guard at the target alone. -/
theorem match_verdict_congr {left right : Store UInt8} {start : Nat}
    (hguard : (left.read (start + target_offset) expected.length = expected ∨
        left.read (start + target_offset) expected.length = replacement) ↔
      (right.read (start + target_offset) expected.length = expected ∨
        right.read (start + target_offset) expected.length = replacement)) :
    (match_verdict image left scope target_offset expected replacement start).toOption =
      (match_verdict image right scope target_offset expected replacement start).toOption := by
  unfold match_verdict
  cases hsum : checked_add start target_offset with
  | none => rfl
  | some sum =>
    obtain ⟨rfl, _⟩ := checked_add_eq_some_iff.mp hsum
    dsimp only
    cases image.contains_relative_target start (start + target_offset) expected.length scope with
    | false => rfl
    | true =>
      rw [← classify_bytes_isOk_iff (start + target_offset),
        ← classify_bytes_isOk_iff (start + target_offset)] at hguard
      cases hleft : classify_bytes (start + target_offset) expected replacement
        (left.read (start + target_offset) expected.length) with
      | ok state =>
        obtain ⟨_, hright⟩ := hguard.mp ⟨state, hleft⟩
        simp [hright, Except.toOption]
      | error error =>
        cases hright : classify_bytes (start + target_offset) expected replacement
          (right.read (start + target_offset) expected.length) with
        | ok state =>
          obtain ⟨_, hother⟩ := hguard.mpr ⟨state, hright⟩
          rw [hleft] at hother
          cases hother
        | error other => simp [Except.toOption]

/-- Over two memories that guard the same matches a signature resolves alike. -/
theorem target_resolution_ok_congr {left right : Store UInt8} {signature : String}
    (hguards : ∀ start ∈ image.scan pattern scope,
      (left.read (start + target_offset) expected.length = expected ∨
        left.read (start + target_offset) expected.length = replacement) ↔
      (right.read (start + target_offset) expected.length = expected ∨
        right.read (start + target_offset) expected.length = replacement)) (target : Nat) :
    target_resolution image left signature pattern scope target_offset expected replacement = .ok target ↔
      target_resolution image right signature pattern scope target_offset expected replacement =
        .ok target := by
  have haccepted : ((image.scan pattern scope).filterMap fun start =>
        (match_verdict image left scope target_offset expected replacement start).toOption) =
      (image.scan pattern scope).filterMap fun start =>
        (match_verdict image right scope target_offset expected replacement start).toOption :=
    List.filterMap_congr fun start hstart => match_verdict_congr (hguards start hstart)
  unfold target_resolution
  dsimp only
  rw [haccepted]
  split
  · rfl
  · split <;> simp

/-- A match that is accepted is accepted at its own offset. -/
theorem match_verdict_target {start target : Nat}
    (hverdict : (match_verdict image memory scope target_offset expected replacement start).toOption =
      some target) :
    target = start + target_offset := by
  unfold match_verdict at hverdict
  split at hverdict
  · cases hverdict
  · rename_i sum hsum
    obtain ⟨rfl, _⟩ := checked_add_eq_some_iff.mp hsum
    split at hverdict
    · cases hverdict
    · split at hverdict
      · exact (Option.some.inj hverdict).symm
      · cases hverdict

theorem match_verdict_injective (image : ModuleImage) (memory : Store UInt8) (scope : ScanScope)
    (target_offset : Nat) (expected replacement : List UInt8) (left right target : Nat)
    (hleft : (match_verdict image memory scope target_offset expected replacement left).toOption = some target)
    (hright : (match_verdict image memory scope target_offset expected replacement right).toOption =
      some target) : left = right := by
  have hfirst := match_verdict_target hleft
  have hsecond := match_verdict_target hright
  omega

/-- The loop accepts the target of every candidate once and nothing else. -/
theorem accepted_lists (hvalid : image.Valid) (hlive : image.Live memory) (pattern : Pattern)
    (scope : ScanScope) (target_offset : Nat) (expected replacement : List UInt8) :
    Lists ((image.scan pattern scope).filterMap fun start =>
        (match_verdict image memory scope target_offset expected replacement start).toOption)
      ((· + target_offset) ''
        image.candidates memory pattern scope target_offset expected replacement) := by
  have hlists := (ModuleImage.scan_lists hvalid hlive pattern scope).filterMap
    (match_verdict_injective image memory scope target_offset expected replacement)
  convert hlists using 1
  ext target
  constructor
  · rintro ⟨start, hcandidate, rfl⟩
    refine ⟨start, hcandidate.matched, ?_⟩
    rw [(match_verdict_eq_ok_iff hvalid hcandidate.matched).mpr ⟨rfl, hcandidate⟩]
    rfl
  · rintro ⟨start, hmatched, hverdict⟩
    cases hresult : match_verdict image memory scope target_offset expected replacement start with
    | error reason => simp [hresult, Except.toOption] at hverdict
    | ok sum =>
      obtain rfl : sum = target := by simpa [hresult, Except.toOption] using hverdict
      obtain ⟨rfl, hcandidate⟩ := (match_verdict_eq_ok_iff hvalid hmatched).mp hresult
      exact ⟨start, hcandidate, rfl⟩

/-- The four ways in which a signature is resolved, by the number of candidates. -/
theorem target_resolution_cases (hvalid : image.Valid) (hlive : image.Live memory) (signature : String)
    (pattern : Pattern) (scope : ScanScope) (target_offset : Nat) (expected replacement : List UInt8) :
    let candidates := image.candidates memory pattern scope target_offset expected replacement
    let resolution :=
      target_resolution image memory signature pattern scope target_offset expected replacement
    ((∀ start, ¬ image.Matched memory pattern scope start) ∧ candidates = ∅ ∧
      resolution = .error (.SignatureNotFound signature scope)) ∨
    ((∃ start, image.Matched memory pattern scope start) ∧ candidates = ∅ ∧
      ∃ raw_matches reasons, resolution = .error (.NoValidatedTarget signature raw_matches reasons)) ∨
    (∃ start, candidates = {start} ∧ resolution = .ok (start + target_offset)) ∨
    (candidates.Nontrivial ∧ ∃ addresses, Lists addresses ((· + target_offset) '' candidates) ∧
      resolution = .error (.AmbiguousTarget signature addresses)) := by
  have hscan := ModuleImage.scan_lists hvalid hlive pattern scope
  have haccepted := accepted_lists hvalid hlive pattern scope target_offset expected replacement
  dsimp only
  unfold target_resolution
  by_cases hraw : image.scan pattern scope = []
  · have hnone : ∀ start, ¬ image.Matched memory pattern scope start :=
      Set.eq_empty_iff_forall_notMem.mp (hscan.eq_nil_iff.mp hraw)
    refine .inl ⟨hnone, Set.eq_empty_iff_forall_notMem.mpr fun start hcandidate => ?_, by simp [hraw]⟩
    exact hnone start hcandidate.matched
  · have hsome : ∃ start, image.Matched memory pattern scope start := by
      obtain ⟨start, hmem⟩ := List.exists_mem_of_ne_nil _ hraw
      exact ⟨start, (hscan.mem_iff start).mp hmem⟩
    simp only [List.isEmpty_iff, hraw, ↓reduceIte]
    generalize (image.scan pattern scope).filterMap (fun start =>
      (match_verdict image memory scope target_offset expected replacement start).toOption) = accepted
      at haccepted ⊢
    match accepted with
    | [] =>
      have hempty := Set.image_eq_empty.mp (haccepted.eq_nil_iff.mp rfl)
      exact .inr (.inl ⟨hsome, hempty, _, _, rfl⟩)
    | [target] =>
      have hsingle := haccepted.eq_singleton_iff.mp rfl
      obtain ⟨start, hstart, rfl⟩ := hsingle.ge rfl
      refine .inr (.inr (.inl ⟨start, ?_, rfl⟩))
      apply Set.eq_singleton_iff_unique_mem.mpr
      refine ⟨hstart, fun other hother => ?_⟩
      have hsame : other + target_offset = start + target_offset := hsingle.le ⟨other, hother, rfl⟩
      omega
    | first :: second :: rest =>
      have hmany := Set.nontrivial_of_image _ _ (haccepted.nontrivial_iff.mp ⟨by simp, by simp⟩)
      exact .inr (.inr (.inr ⟨hmany, _, haccepted, rfl⟩))

/-- A signature is resolved exactly when one candidate stands in the image. -/
theorem target_resolution_ok_iff (hvalid : image.Valid) (hlive : image.Live memory)
    {signature : String} {target : Nat} :
    target_resolution image memory signature pattern scope target_offset expected replacement = .ok target ↔
      ∃ start, image.candidates memory pattern scope target_offset expected replacement = {start} ∧
        target = start + target_offset := by
  rcases target_resolution_cases hvalid hlive signature pattern scope target_offset expected replacement with
    ⟨_, hnone, hresult⟩ | ⟨_, hnone, _, _, hresult⟩ | ⟨start, hone, hresult⟩ | ⟨hmany, _, _, hresult⟩
  · simp [hnone, hresult]
  · simp [hnone, hresult]
  · simp [hone, hresult, eq_comm]
  · rw [hresult]
    simp only [reduceCtorEq, false_iff]
    rintro ⟨start, hone, _⟩
    rw [hone] at hmany
    exact Set.not_nontrivial_singleton hmany

end Meaning

/-- The meaning of `find_signature_target` on a valid, live and readable image.
It resolves to the target of the only candidate, reports the targets of all
candidates without repetition when there are several, and otherwise tells a
signature that stands nowhere from one whose matches have no guarded target. -/
theorem find_signature_target_meaning (os : Os σ) (usable : σ → Prop) (image : ModuleImage)
    (hvalid : image.Valid) (hreadable : image.Readable os usable)
    (signature : String) (pattern : Pattern) (hparse : Pattern.parse signature = .ok pattern)
    (scope : ScanScope) (target_offset : Nat) (expected replacement : List UInt8)
    (hnonempty : replacement ≠ []) (hlength : expected.length = replacement.length)
    (world : World σ) (hlive : image.Live world.memory) (husable : usable world.os) :
    let result :=
      (find_signature_target os image signature scope target_offset expected replacement world).1
    let candidates := image.candidates world.memory pattern scope target_offset expected replacement
    (∀ target, result = .ok target ↔
      ∃ start, candidates = {start} ∧ target = start + target_offset) ∧
    ((∃ addresses, result = .error (.AmbiguousTarget signature addresses)) ↔ candidates.Nontrivial) ∧
    (∀ signature' addresses, result = .error (.AmbiguousTarget signature' addresses) →
      signature' = signature ∧ Lists addresses ((· + target_offset) '' candidates)) ∧
    (result = .error (.SignatureNotFound signature scope) ↔
      ∀ start, ¬ image.Matched world.memory pattern scope start) ∧
    ((∃ raw_matches reasons, result = .error (.NoValidatedTarget signature raw_matches reasons)) ↔
      candidates = ∅ ∧ ∃ start, image.Matched world.memory pattern scope start) := by
  obtain ⟨world', hrun, _⟩ := find_signature_target_reads hvalid hreadable hnonempty hlength hparse
    world rfl husable
  dsimp only
  rw [hrun]
  refine ⟨fun target => target_resolution_ok_iff hvalid hlive, ?_⟩
  rcases target_resolution_cases hvalid hlive signature pattern scope target_offset expected replacement with
    ⟨hunmatched, hnone, hresult⟩ | ⟨hmatched, hnone, _, _, hresult⟩ | ⟨start, hone, hresult⟩ |
    ⟨hmany, _, hlists, hresult⟩
  · rw [hresult]
    simp [hnone, hunmatched]
  · rw [hresult]
    simp [hnone, hmatched]
  · have hmatched : image.Matched world.memory pattern scope start :=
      ModuleImage.Candidate.matched (hone.ge rfl)
    rw [hresult]
    simp [hone]
    exact ⟨start, hmatched⟩
  · obtain ⟨start, hcandidate⟩ := hmany.nonempty
    have hmatched : image.Matched world.memory pattern scope start := hcandidate.matched
    rw [hresult]
    simp [hmany, hmany.nonempty.ne_empty, hlists]
    exact ⟨start, hmatched⟩

/-- Two matches of one pattern, of which only the second holds a guarded byte. -/
def matched_bytes : List UInt8 := [0x80, 0x7E, 0x99, 0x80, 0x7E, 0x0A]

/-- They lie in one executable page. -/
def matched_world : World PageMap where
  memory := Store.write (fun _ => 0) 0x11000 matched_bytes
  os := mapped_pages 0x11000 0x1000 PAGE_EXECUTE_READ
  accesses := []

theorem find_signature_target_of_second_match :
    (ModuleImage.for_test_section 0x10000 0x1000 matched_bytes .Code).candidates
      (Store.write (fun _ => 0) 0x11000 matched_bytes) ⟨[some 0x80, some 0x7E, none], by simp⟩
      .Code 2 [0x0A] [0x14] = {0x11003} := by
  have hfound : (find_signature_target page_table (.for_test_section 0x10000 0x1000 matched_bytes .Code)
      "80 7E ??" .Code 2 [0x0A] [0x14] matched_world).1.toOption = some 0x11005 := by
    decide +kernel
  have hpage : Readable page_table (Mapped 0x11000 0x1000 PAGE_EXECUTE_READ) 0x11000 (0x11000 + 0x1000) :=
    mapped_readable page_table_granting execute_read_accessible (by decide)
  have hreadable : (ModuleImage.for_test_section 0x10000 0x1000 matched_bytes .Code).Readable page_table
      (Mapped 0x11000 0x1000 PAGE_EXECUTE_READ) := by
    intro loaded hmem
    obtain rfl := List.mem_singleton.mp hmem
    exact hpage.mono (by decide) (by decide)
  have hmeaning := find_signature_target_meaning page_table (Mapped 0x11000 0x1000 PAGE_EXECUTE_READ)
    (.for_test_section 0x10000 0x1000 matched_bytes .Code)
    (ModuleImage.for_test_section_valid (by decide)) hreadable "80 7E ??"
    ⟨[some 0x80, some 0x7E, none], by simp⟩ (by rfl) .Code 2 [0x0A] [0x14] (by simp) rfl matched_world
    (ModuleImage.for_test_section_live _) (mapped_pages_mapped (by decide))
  rcases hresult : (find_signature_target page_table (.for_test_section 0x10000 0x1000 matched_bytes .Code)
      "80 7E ??" .Code 2 [0x0A] [0x14] matched_world).1 with error | target
  · rw [hresult] at hfound
    cases hfound
  · rw [hresult] at hfound
    obtain ⟨start, hone, htarget⟩ := (hmeaning.1 target).mp hresult
    obtain rfl : target = 0x11005 := Option.some.inj hfound
    obtain rfl : start = 0x11003 := by omega
    exact hone

end systemdetection.patches

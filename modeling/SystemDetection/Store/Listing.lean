import Mathlib.Data.List.Nodup
import Mathlib.Data.Set.Subsingleton

namespace store

variable {α β : Type}

/-- The list names every member of the set once and nothing else. -/
structure Lists (list : List α) (members : Set α) : Prop where
  nodup : list.Nodup
  mem_iff : ∀ element, element ∈ list ↔ element ∈ members

theorem Lists.eq_nil_iff {list : List α} {members : Set α} (hlists : Lists list members) :
    list = [] ↔ members = ∅ := by
  rw [List.eq_nil_iff_forall_not_mem, Set.eq_empty_iff_forall_notMem]
  exact forall_congr' fun element => not_congr (hlists.mem_iff element)

/-- A listing has one entry exactly when its set has one element. -/
theorem Lists.eq_singleton_iff {list : List α} {members : Set α} (hlists : Lists list members)
    {element : α} : list = [element] ↔ members = {element} := by
  constructor
  · rintro rfl
    ext other
    rw [← hlists.mem_iff, List.mem_singleton, Set.mem_singleton_iff]
  · rintro rfl
    have hmem : ∀ other, other ∈ list ↔ other = element := hlists.mem_iff
    cases hlist : list with
    | nil => simp [hlist] at hmem
    | cons first rest =>
      have hnodup := hlists.nodup
      rw [hlist] at hmem hnodup
      obtain rfl : first = element := (hmem first).mp (by simp)
      have hrest : rest = [] := by
        apply List.eq_nil_iff_forall_not_mem.mpr
        intro other hother
        obtain rfl : other = first := (hmem other).mp (by simp [hother])
        exact (List.nodup_cons.mp hnodup).1 hother
      rw [hrest]

/-- At least two elements are listed exactly when the set has two. -/
theorem Lists.nontrivial_iff {list : List α} {members : Set α} (hlists : Lists list members) :
    (list ≠ [] ∧ ∀ element, list ≠ [element]) ↔ members.Nontrivial := by
  rw [← Set.not_subsingleton_iff, Set.subsingleton_iff_eq_empty_or_singleton, not_or, not_exists]
  simp only [ne_eq, hlists.eq_nil_iff, hlists.eq_singleton_iff]

/-- Selecting and mapping the members, without sending two of them to one image. -/
theorem Lists.filterMap {list : List α} {members : Set α} (hlists : Lists list members)
    {f : α → Option β}
    (hinjective : ∀ left right image, f left = some image → f right = some image → left = right) :
    Lists (list.filterMap f) {image | ∃ element ∈ members, f element = some image} where
  nodup := hlists.nodup.filterMap fun left right image hleft hright =>
    hinjective left right image hleft hright
  mem_iff image := by
    rw [List.mem_filterMap]
    exact exists_congr fun element => and_congr_left' (hlists.mem_iff element)

/-- What is on the right of two related lists has a partner on the left. -/
theorem mem_of_forall₂ {α β : Type} {R : α → β → Prop} {left : List α} {right : List β}
    (hforall : List.Forall₂ R left right) {found : β} (hfound : found ∈ right) :
    ∃ partner ∈ left, R partner found := by
  induction hforall with
  | nil => cases hfound
  | @cons partner first left right hrelated _ ih =>
    cases hfound with
    | head => exact ⟨partner, by simp, hrelated⟩
    | tail _ hfound =>
      obtain ⟨other, hother, hrelated'⟩ := ih hfound
      exact ⟨other, by simp [hother], hrelated'⟩

/-- Two lists related to a third are related to each other. -/
theorem forall₂_join {α β γ : Type} {R : α → β → Prop} {S : α → γ → Prop} {keys : List α} {left : List β}
    {right : List γ} (hleft : List.Forall₂ R keys left) (hright : List.Forall₂ S keys right) :
    List.Forall₂ (fun first second => ∃ key ∈ keys, R key first ∧ S key second) left right := by
  induction hleft generalizing right with
  | nil =>
    cases hright
    exact .nil
  | @cons key first keys left hfirst _ ih =>
    cases hright with
    | cons hsecond hrest =>
      refine .cons ⟨key, by simp, hfirst, hsecond⟩ ((ih hrest).imp ?_)
      rintro _ _ ⟨other, hother, hboth⟩
      exact ⟨other, by simp [hother], hboth⟩

/-- What holds of two elements because of their partners holds throughout the list. -/
theorem pairwise_of_forall₂ {α β : Type} {R : α → β → Prop} {S : α → α → Prop} {T : β → β → Prop}
    {left : List α} {right : List β} (hforall : List.Forall₂ R left right) (hleft : left.Pairwise S)
    (hpair : ∀ first first' second second', S first first' → R first second → R first' second' →
      T second second') : right.Pairwise T := by
  induction hforall with
  | nil => exact .nil
  | @cons first second left right hrelated hrest ih =>
    obtain ⟨hfirst, hothers⟩ := List.pairwise_cons.mp hleft
    refine .cons (fun second' hmem => ?_) (ih hothers)
    obtain ⟨first', hmem', hrelated'⟩ := mem_of_forall₂ hrest hmem
    exact hpair first first' second second' (hfirst first' hmem') hrelated hrelated'

/-- A traversal succeeds with the images of the elements, in order. -/
theorem mapM_eq_some_iff {transform : α → Option β} {list : List α} {images : List β} :
    list.mapM transform = some images ↔
      List.Forall₂ (fun element image => transform element = some image) list images := by
  induction list generalizing images with
  | nil => simp [eq_comm]
  | cons first rest ih =>
    simp only [List.mapM_cons, Option.bind_eq_bind, Option.bind_eq_some_iff, Option.pure_def, Option.some.injEq,
      List.forall₂_cons_left_iff, ih]
    constructor
    · rintro ⟨image, hfirst, others, hrest, rfl⟩
      exact ⟨image, others, hfirst, hrest, rfl⟩
    · rintro ⟨image, others, hfirst, hrest, rfl⟩
      exact ⟨image, hfirst, others, hrest, rfl⟩

/-- A list has a related one exactly when each element has a related one. -/
theorem exists_forall₂_iff {R : α → β → Prop} {list : List α} :
    (∃ images, List.Forall₂ R list images) ↔ ∀ element ∈ list, ∃ image, R element image := by
  induction list with
  | nil => simp
  | cons first rest ih =>
    rw [List.forall_mem_cons, ← ih]
    simp only [List.forall₂_cons_left_iff]
    constructor
    · rintro ⟨_, image, others, hfirst, hrest, rfl⟩
      exact ⟨⟨image, hfirst⟩, others, hrest⟩
    · rintro ⟨⟨image, hfirst⟩, others, hrest⟩
      exact ⟨_, image, others, hfirst, hrest, rfl⟩

end store

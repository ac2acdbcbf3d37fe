import ServerPages.Path

/-!
# Segments of paths

No segment of a path is empty or holds a slash, and the text of joined segments is split at
the slashes where they were joined, so the canonical form of a path keeps its segments and
nothing else of it. A path names a view exactly if it has a segment and all its segments are
file names.
-/

namespace ServerPages

namespace Text

variable {separator : Char}

theorem not_mem_of_mem_splitAt {chars part : List Char}
    (member : part ∈ splitAt separator chars) : separator ∉ part := by
  induction chars generalizing part with
  | nil =>
      rw [splitAt, List.mem_singleton] at member
      simp [member]
  | cons c rest ih =>
      simp only [splitAt] at member
      split at member
      · rcases List.mem_cons.mp member with rfl | later
        · exact List.not_mem_nil
        · exact ih later
      · rename_i different
        cases parts : splitAt separator rest with
        | nil => exact absurd parts (splitAt_ne_nil separator rest)
        | cons first others =>
            rw [parts] at ih member
            rcases List.mem_cons.mp member with rfl | later
            · rw [List.mem_cons, not_or]
              exact ⟨Ne.symm different, ih List.mem_cons_self⟩
            · exact ih (List.mem_cons_of_mem _ later)

/-- A text is split at a separator into what its two sides are split into. -/
theorem splitAt_append_separator (before after : List Char) :
    splitAt separator (before ++ separator :: after) =
      splitAt separator before ++ splitAt separator after := by
  induction before with
  | nil => simp [splitAt]
  | cons c before ih =>
      simp only [List.cons_append, splitAt, ih]
      split
      · rfl
      · cases parts : splitAt separator before with
        | nil => exact absurd parts (splitAt_ne_nil separator before)
        | cons first others => rfl

end Text

namespace Path

open Text

theorem toList_join (parts : List String) :
    (join parts).toList = joinWith '/' (parts.map String.toList) := by
  induction parts with
  | nil => rfl
  | cons part parts ih =>
      cases parts with
      | nil => simp [join, joinWith]
      | cons next parts =>
          rw [join] at ih ⊢
          rw [String.intercalate_cons_cons, String.toList_append, String.toList_append, ih]
          simp [joinWith]

/-- The last of joined segments may be joined to a text alone. -/
theorem join_concat_append (earlier : List String) (last more : String) :
    join (earlier ++ [last]) ++ more = join (earlier ++ [last ++ more]) := by
  induction earlier with
  | nil => simp [join]
  | cons part earlier ih =>
      cases earlier with
      | nil => simp [join, String.append_assoc]
      | cons next earlier =>
          simp only [join, List.cons_append, String.intercalate_cons_cons] at ih ⊢
          rw [String.append_assoc, ih]

variable {path segment view : String}

theorem of_mem_segments (member : segment ∈ segments path) :
    segment ≠ "" ∧ '/' ∉ segment.toList := by
  obtain ⟨part, kept, rfl⟩ := List.mem_map.mp member
  obtain ⟨among, solid⟩ := List.mem_filter.mp kept
  rw [String.toList_ofList]
  refine ⟨fun empty => ?_, not_mem_of_mem_splitAt among⟩
  have none : part = [] := String.ofList_injective empty
  rw [none] at solid
  cases solid

/-! ## Canonical forms -/

/-- Segments are found again after they are joined. -/
theorem segments_join {parts : List String}
    (solid : ∀ part ∈ parts, part ≠ "" ∧ '/' ∉ part.toList) : segments (join parts) = parts := by
  rw [segments, toList_join]
  by_cases present : parts = []
  · subst present
    rfl
  · have split :
        splitAt '/' (joinWith '/' (parts.map String.toList)) = parts.map String.toList := by
      refine splitAt_joinWith (by simpa using present) fun chars member => ?_
      obtain ⟨part, among, rfl⟩ := List.mem_map.mp member
      exact (solid part among).2
    have kept : ∀ chars ∈ parts.map String.toList, (!chars.isEmpty) = true := by
      intro chars member
      obtain ⟨part, among, rfl⟩ := List.mem_map.mp member
      simpa using (solid part among).1
    rw [split, List.filter_eq_self.mpr kept, List.map_map]
    simp [Function.comp_def]

theorem segments_routeKey (path : String) : segments (routeKey path) = segments path :=
  segments_join fun _ member => of_mem_segments member

theorem routeKey_routeKey (path : String) : routeKey (routeKey path) = routeKey path :=
  congrArg join (segments_routeKey path)

/-- Paths have one canonical form exactly if they have the same segments. -/
theorem routeKey_eq_iff {other : String} :
    routeKey path = routeKey other ↔ segments path = segments other := by
  refine ⟨fun same => ?_, congrArg join⟩
  rw [← segments_routeKey path, same, segments_routeKey]

/-! ## Names of views -/

theorem viewName?_eq_some_iff :
    viewName? path = some view ↔
      segments path ≠ [] ∧ (∀ segment ∈ segments path, isFileName segment = true) ∧
        view = routeKey path := by
  have refused : ((segments path).isEmpty || !(segments path).all isFileName) = true ↔
      ¬ (segments path ≠ [] ∧ ∀ segment ∈ segments path, isFileName segment = true) := by
    rw [Bool.or_eq_true, List.isEmpty_iff, Bool.not_eq_true', ← Bool.not_eq_true,
      List.all_eq_true, Decidable.not_and_iff_not_or_not, Decidable.not_not]
  unfold viewName?
  dsimp only
  by_cases fits : segments path ≠ [] ∧ ∀ segment ∈ segments path, isFileName segment = true
  · rw [if_neg (fun broken => refused.mp broken fits), Option.some.injEq, ← and_assoc,
      and_iff_right fits]
    exact eq_comm
  · rw [if_pos (refused.mpr fits), ← and_assoc]
    exact ⟨(nomatch ·), fun found => absurd found.1 fits⟩

theorem isFileName_ne_true_iff :
    ¬ isFileName segment = true ↔
      segment = "." ∨ segment = ".." ∨ '\\' ∈ segment.toList ∨ '\x00' ∈ segment.toList := by
  simp [isFileName, Decidable.or_iff_not_imp_left]

theorem viewName?_eq_none_iff :
    viewName? path = none ↔ segments path = [] ∨
      ∃ segment ∈ segments path, segment = "." ∨ segment = ".." ∨
        '\\' ∈ segment.toList ∨ '\x00' ∈ segment.toList := by
  simp only [← isFileName_ne_true_iff]
  constructor
  · intro none
    by_cases empty : segments path = []
    · exact Or.inl empty
    · refine Or.inr (Classical.byContradiction fun named => ?_)
      have all : ∀ segment ∈ segments path, isFileName segment = true := fun segment member =>
        Decidable.not_not.mp fun misfit => named ⟨segment, member, misfit⟩
      cases none.symm.trans (viewName?_eq_some_iff.mpr ⟨empty, all, rfl⟩)
  · intro misfit
    refine Option.eq_none_iff_forall_ne_some.mpr fun view found => ?_
    obtain ⟨present, named, _⟩ := viewName?_eq_some_iff.mp found
    rcases misfit with empty | ⟨segment, member, misfit⟩
    · exact present empty
    · exact misfit (named segment member)

end Path

end ServerPages

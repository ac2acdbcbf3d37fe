import ServerPages.Proofs.Path
import ServerPages.Views.Basic

/-!
# Views that stay in their directory

The file of a view that a path names has the components of the directory of views, and one
name for each segment of the path. No segment leads upwards or back to the root, so no path
leads out of the directory.
-/

namespace ServerPages

open Text

namespace FileName

variable {name directory extension : String} {names : List String}

/-- A name that is itself the component of a file name. -/
structure Plain (name : String) : Prop where
  solid : name ≠ ""
  flat : '/' ∉ name.toList
  notCurrent : name ≠ "."
  notParent : name ≠ ".."

/-- File names that start neither at the root nor at the current directory. -/
structure Relative (name : String) : Prop where
  notAbsolute : isAbsolute name = false
  notCurrent : (splitAt '/' name.toList).head? ≠ some ['.']

theorem components_of_relative (relative : Relative name) :
    components name = (splitAt '/' name.toList).filterMap Component.ofPart? := by
  simp [components, relative.notAbsolute, relative.notCurrent]

/-- What a file name starts with decides where it starts. -/
theorem relative_of_splitAt {part : List Char} {parts : List (List Char)}
    (split : splitAt '/' name.toList = part :: parts) (solid : part ≠ [])
    (notCurrent : part ≠ ['.']) : Relative name where
  notAbsolute := by
    cases chars : name.toList with
    | nil => simp [isAbsolute, chars]
    | cons c rest =>
        have different : c ≠ '/' := by
          rintro rfl
          rw [chars, splitAt, if_pos rfl] at split
          exact solid (List.cons.inj split).1.symm
        simp [isAbsolute, chars, different]
  notCurrent := by
    rw [split]
    exact fun same => notCurrent (Option.some.inj same)

/-! ## Directories -/

/-- What follows a slash has its components after those of what is in front. -/
theorem components_slash (before after : List Char) :
    components (String.ofList (before ++ '/' :: after)) =
      components (String.ofList (before ++ ['/'])) ++
        (splitAt '/' after).filterMap Component.ofPart? := by
  have absolute : isAbsolute (String.ofList (before ++ '/' :: after)) =
      isAbsolute (String.ofList (before ++ ['/'])) := by
    cases before <;> simp [isAbsolute]
  have start : (splitAt '/' before ++ splitAt '/' after).head? =
      (splitAt '/' before ++ [[]]).head? := by
    cases parts : splitAt '/' before with
    | nil => exact absurd parts (splitAt_ne_nil _ _)
    | cons part parts => rfl
  have nothing : [([] : List Char)].filterMap Component.ofPart? = [] := rfl
  simp only [components, absolute, String.toList_ofList, splitAt_append_separator, splitAt, start,
    List.filterMap_append, nothing, List.append_nil, List.append_assoc]

/-- A slash at the end of a file name counts for nothing, unless it is the root. -/
theorem components_slash_end {before : List Char} (solid : before ≠ []) :
    components (String.ofList (before ++ ['/'])) = components (String.ofList before) := by
  have absolute : isAbsolute (String.ofList (before ++ ['/'])) =
      isAbsolute (String.ofList before) := by
    cases before with
    | nil => exact absurd rfl solid
    | cons => simp [isAbsolute]
  have start : (splitAt '/' before ++ [[]]).head? = (splitAt '/' before).head? := by
    cases parts : splitAt '/' before with
    | nil => exact absurd parts (splitAt_ne_nil _ _)
    | cons part parts => rfl
  have nothing : [([] : List Char)].filterMap Component.ofPart? = [] := rfl
  simp only [components, absolute, String.toList_ofList, splitAt_append_separator, splitAt, start,
    List.filterMap_append, nothing, List.append_nil]

/-- Seen from a directory, a relative file name has the directory's components in front. -/
theorem components_append (relative : Relative name) (directory : String) :
    components (append directory name) = components directory ++ components name := by
  rw [append, if_neg (Bool.eq_false_iff.mp relative.notAbsolute),
    components_of_relative relative]
  by_cases ends : directory.toList.getLast? = some '/'
  · obtain ⟨before, chars⟩ := List.getLast?_eq_some_iff.mp ends
    have same : directory = String.ofList (before ++ ['/']) := by
      rw [← chars, String.ofList_toList]
    have whole : directory ++ name = String.ofList (before ++ '/' :: name.toList) := by
      rw [← String.toList_inj]
      simp [same]
    rw [if_pos (Or.inr ends), whole, components_slash, ← same]
  · by_cases empty : directory.isEmpty = true
    · obtain rfl : directory = "" := String.isEmpty_iff.mp empty
      rw [if_pos (Or.inl empty), String.empty_append, components_of_relative relative]
      rfl
    · have solid : directory.toList ≠ [] := fun none => empty <| String.isEmpty_iff.mpr <|
        String.toList_inj.mp (none.trans String.toList_empty.symm)
      have whole : directory ++ "/" ++ name =
          String.ofList (directory.toList ++ '/' :: name.toList) := by
        rw [← String.toList_inj]
        simp
      rw [if_neg (not_or.mpr ⟨empty, ends⟩), whole, components_slash,
        components_slash_end solid, String.ofList_toList]

/-! ## Joined names -/

theorem Plain.ofPart? (plain : Plain name) :
    Component.ofPart? name.toList = some (.normal name) := by
  have different {part : List Char} (other : name ≠ String.ofList part) : name.toList ≠ part :=
    fun same => other (by rw [← same, String.ofList_toList])
  rw [Component.ofPart?, if_neg, if_neg (different plain.notParent), String.ofList_toList]
  exact not_or.mpr ⟨different plain.solid, different plain.notCurrent⟩

theorem splitAt_join (present : names ≠ []) (plain : ∀ name ∈ names, Plain name) :
    splitAt '/' (Path.join names).toList = names.map String.toList := by
  rw [Path.toList_join, splitAt_joinWith (by simpa using present)]
  intro part member
  obtain ⟨name, among, rfl⟩ := List.mem_map.mp member
  exact (plain name among).flat

theorem relative_join (plain : ∀ name ∈ names, Plain name) : Relative (Path.join names) := by
  cases names with
  | nil => exact ⟨rfl, by decide⟩
  | cons name names =>
      have first := plain name List.mem_cons_self
      have split := splitAt_join (List.cons_ne_nil name names) plain
      refine relative_of_splitAt split (fun none => first.solid ?_) fun current =>
        first.notCurrent ?_
      · rw [← String.ofList_toList (s := name), none]
      · rw [← String.ofList_toList (s := name), current]

theorem components_join (plain : ∀ name ∈ names, Plain name) :
    components (Path.join names) = names.map .normal := by
  rw [components_of_relative (relative_join plain)]
  by_cases present : names = []
  · subst present
    rfl
  · rw [splitAt_join present plain, List.filterMap_map]
    clear present
    induction names with
    | nil => rfl
    | cons name names ih =>
        obtain ⟨first, others⟩ := List.forall_mem_cons.mp plain
        rw [List.filterMap_cons_some (b := .normal name) first.ofPart?, ih others, List.map_cons]

/-- The extension of joined names is that of the last. -/
theorem hasExtension_join {earlier : List String} {last : String}
    (plain : ∀ name ∈ earlier ++ [last], Plain name) (extension : String) :
    hasExtension (Path.join (earlier ++ [last])) extension = hasExtension last extension := by
  have alone : components last = [.normal last] := by
    have single : components (Path.join [last]) = [last].map .normal :=
      components_join fun name member => plain name (List.mem_append_right _ member)
    rwa [Path.join, String.intercalate_singleton] at single
  have same : last? (Path.join (earlier ++ [last])) = last? last := by
    unfold last?
    rw [components_join plain, alone, List.map_append]
    simp
  rw [hasExtension, hasExtension, extension?, extension?, same]

/-- A plain name with an extension is plain. -/
theorem Plain.extend (plain : Plain name) (flat : '/' ∉ extension.toList) :
    Plain (name ++ "." ++ extension) := by
  have solid : name.toList ≠ [] := fun none => plain.solid <|
    String.toList_inj.mp (none.trans String.toList_empty.symm)
  have chars : (name ++ "." ++ extension).toList = name.toList ++ '.' :: extension.toList := by
    simp
  refine ⟨?_, ?_, ?_, ?_⟩
  · intro empty
    rw [empty] at chars
    simp at chars
  · rw [chars]
    simp [plain.flat, flat]
  · intro current
    rw [current] at chars
    have lengths := congrArg List.length chars
    have some := List.length_pos_iff.mpr solid
    simp at lengths
    omega
  · intro parent
    rw [parent] at chars
    cases text : name.toList with
    | nil => exact solid text
    | cons c rest =>
        rw [text] at chars
        obtain ⟨rfl, after⟩ := List.cons.inj (show ['.', '.'] = c :: _ from chars)
        cases rest with
        | nil => exact plain.notCurrent (by rw [← String.ofList_toList (s := name), text])
        | cons d rest =>
            have lengths := congrArg List.length after
            simp at lengths

end FileName

/-- The segments of a path that names a view are plain. -/
theorem Path.plain_of_viewName? {path view segment : String} (found : viewName? path = some view)
    (member : segment ∈ segments path) : FileName.Plain segment := by
  obtain ⟨solid, flat⟩ := of_mem_segments member
  have named := (viewName?_eq_some_iff.mp found).2.1 segment member
  rw [isFileName] at named
  simp only [Bool.and_eq_true, bne_iff_ne] at named
  exact ⟨solid, flat, named.1.1.1, named.1.1.2⟩

theorem not_mem_withoutPoints {c : Char} {text : String} (absent : c ∉ text.toList) :
    c ∉ (withoutPoints text).toList := by
  rw [withoutPoints, String.toList_ofList]
  exact fun member => absent (List.dropWhile_sublist _ |>.subset member)

namespace ViewFiles

open FileName

/-- No path leads out of the directory of views: one that names a view names its canonical form,
and the file of that view has the components of the directory and one name for each segment, the
last with the extension of views unless it has it already. A path names no view exactly if it has
no segments or one that is no file name. -/
theorem path_confined {extension : String} (flat : '/' ∉ extension.toList)
    (directory path : String) :
    (∀ view, Path.viewName? path = some view →
      view = Path.routeKey path ∧
      ∃ earlier last, Path.segments path = earlier ++ [last] ∧
        components ((ViewFiles.of directory extension).path view) =
          components directory ++ (earlier ++
            [if hasExtension last (withoutPoints extension) then last
              else last ++ "." ++ withoutPoints extension]).map .normal) ∧
    (Path.viewName? path = none ↔ Path.segments path = [] ∨
      ∃ segment ∈ Path.segments path, segment = "." ∨ segment = ".." ∨
        '\\' ∈ segment.toList ∨ '\x00' ∈ segment.toList) := by
  refine ⟨fun view found => ?_, Path.viewName?_eq_none_iff⟩
  obtain ⟨present, _, same⟩ := Path.viewName?_eq_some_iff.mp found
  obtain ⟨earlier, last, split⟩ : ∃ earlier last, Path.segments path = earlier ++ [last] :=
    ⟨_, _, (List.dropLast_concat_getLast present).symm⟩
  have plain : ∀ name ∈ earlier ++ [last], Plain name := fun name member =>
    Path.plain_of_viewName? found (split ▸ member)
  refine ⟨same, earlier, last, split, ?_⟩
  rw [same, Path.routeKey, split, ViewFiles.path, fileName, ViewFiles.of,
    hasExtension_join plain]
  split
  · rw [components_append (relative_join plain), components_join plain]
  · rw [String.append_assoc, Path.join_concat_append, ← String.append_assoc]
    have extended : ∀ name ∈ earlier ++ [last ++ "." ++ withoutPoints extension], Plain name := by
      intro name member
      rcases List.mem_append.mp member with before | here
      · exact plain name (List.mem_append_left _ before)
      · obtain rfl := List.mem_singleton.mp here
        exact (plain last (List.mem_append_right _ List.mem_cons_self)).extend
          (not_mem_withoutPoints flat)
    rw [components_append (relative_join extended), components_join extended]

/-- A path with blank segments, and an extension that the last segment does not have. -/
theorem path_confined_docs :
    '/' ∉ ".html".toList ∧ Path.viewName? "//docs/intro.htm/" = some "docs/intro.htm" ∧
      components ((ViewFiles.of "./views" ".html").path "docs/intro.htm") =
        [.current, .normal "views", .normal "docs", .normal "intro.htm.html"] := by
  have named : Path.viewName? "//docs/intro.htm/" = some "docs/intro.htm" := by decide
  refine ⟨by decide, named, ?_⟩
  obtain ⟨earlier, last, split, path⟩ :=
    ((path_confined (show '/' ∉ ".html".toList by decide) "./views" _).1 _ named).2
  have segments : Path.segments "//docs/intro.htm/" = ["docs"] ++ ["intro.htm"] := by decide
  obtain ⟨rfl, same⟩ := List.append_inj' (segments.symm.trans split) rfl
  cases same
  rw [path]
  decide

end ViewFiles

end ServerPages

import ServerPages.Markup.Construction.Formatting
import ServerPages.Proofs.Forest.Links
import ServerPages.Proofs.Markup.Attributes

/-!
# Trees without repeated attributes

While a tree is under construction each of its elements has attributes of a name once at most. To
see that this stays so, the tags that are kept for later have to be looked at as well: those of
formatting elements, which may be opened again, and the tokens that were met in a table.
-/

namespace ServerPages.Markup

def Part.Once : Part → Prop
  | .element _ _ attributes _ => Markup.Once attributes
  | _ => True

theorem Part.once_document : Part.document.Once := trivial

theorem Part.once_doctype (name : String) : (Part.doctype name).Once := trivial

theorem Part.once_text (content : String) : (Part.text content).Once := trivial

theorem Part.once_comment (content : String) : (Part.comment content).Once := trivial

def Formatting.Distinct : Formatting → Prop
  | .marker => True
  | .element _ data => data.Distinct

/-- What the rules keep of a tree and of what is remembered with it. -/
structure Tidied (forest : Forest Part) (formatting : List Formatting) (pending : List Token) :
    Prop where
  parts : forest.All fun _ => Part.Once
  formatting : ∀ entry ∈ formatting, entry.Distinct
  pending : ∀ token ∈ pending, token.Distinct

namespace Construction

/-- No element of the tree repeats an attribute, and no tag that is kept for later does. -/
def Tidy (b : Construction) : Prop :=
  Tidied b.forest b.formatting b.tableText

variable {b : Construction} {tag : Tag}

theorem tidy_start (context : Option String) : (start context).Tidy where
  parts := .single Part.once_document
  formatting := nofun
  pending := nofun

namespace Tidy

theorem withForest {forest : Forest Part} (tidy : b.Tidy) (parts : forest.All fun _ => Part.Once) :
    Tidy { b with forest } :=
  { tidy with parts }

theorem withFormatting {formatting : List Formatting} (tidy : b.Tidy)
    (distinct : ∀ entry ∈ formatting, entry.Distinct) : Tidy { b with formatting } :=
  { tidy with formatting := distinct }

theorem ite {condition : Prop} [Decidable condition] {yes no : Construction} (first : yes.Tidy)
    (rest : no.Tidy) : (if condition then yes else no).Tidy := by
  split
  · exact first
  · exact rest

/-! ## Insertion -/

theorem put (tidy : b.Tidy) (place : Place) (id : NodeId) : (b.put place id).Tidy := by
  cases place with
  | last parent => exact tidy.withForest (tidy.parts.attachLast parent id)
  | before sibling => exact tidy.withForest (tidy.parts.attachBefore sibling id)

theorem extendText {next : Construction} {id : Option NodeId} {content : String} (tidy : b.Tidy)
    (extended : b.extendText? id content = some next) : next.Tidy := by
  unfold extendText? at extended
  rw [Option.bind_eq_bind, Option.bind_eq_some_iff] at extended
  obtain ⟨text, _, extended⟩ := extended
  split at extended
  · cases extended
    exact tidy.withForest (tidy.parts.setKind text (Part.once_text _))
  · cases extended

theorem putText (tidy : b.Tidy) (place : Place) (content : String) :
    (b.putText place content).Tidy := by
  unfold Construction.putText
  dsimp only
  split
  · rename_i extended
    exact tidy.extendText extended
  · exact (tidy.withForest (tidy.parts.create (Part.once_text content))).put place _

theorem appendText (tidy : b.Tidy) (run : List Char) : (b.appendText run).Tidy :=
  tidy.putText _ _

theorem putComment (tidy : b.Tidy) (place : Place) (content : String) :
    (b.putComment place content).Tidy :=
  (tidy.withForest (tidy.parts.create (Part.once_comment content))).put place _

theorem create (tidy : b.Tidy) (vocabulary : Vocabulary) (name : String)
    {attributes : List Attribute} (once : Once attributes) :
    (b.create vocabulary name attributes).2.Tidy := by
  unfold Construction.create
  split
  · exact tidy.withForest ((tidy.parts.create Part.once_document).create once)
  · exact tidy.withForest (tidy.parts.create once)

theorem insert (tidy : b.Tidy) (opened : Bool) (vocabulary : Vocabulary) (name : String)
    {attributes : List Attribute} (once : Once attributes) :
    (b.insert opened vocabulary name attributes).2.Tidy :=
  have added := (tidy.create vocabulary name once).put b.place
    (b.create vocabulary name attributes).1
  .ite added added

theorem openTag (tidy : b.Tidy) (distinct : tag.Distinct) : (b.openTag tag).2.Tidy :=
  tidy.insert true .html tag.name (distinct.once .html)

theorem openFor (tidy : b.Tidy) (distinct : tag.Distinct) : (b.openFor tag).Tidy :=
  tidy.openTag distinct

theorem addFor (tidy : b.Tidy) (distinct : tag.Distinct) : (b.addFor tag).Tidy :=
  tidy.insert false .html tag.name (distinct.once .html)

theorem openImplied (tidy : b.Tidy) (name : String) : (b.openImplied name).Tidy :=
  tidy.openFor (Tag.distinct_opening name)

theorem createTop (tidy : b.Tidy) {attributes : List (String × String)}
    (distinct : (attributes.map (·.1)).Nodup) : (b.createTop attributes).Tidy := by
  have top : Tag.Distinct ⟨false, "html", false, attributes⟩ := distinct
  have once := top.once .html
  exact (tidy.create .html "html" once).put (.last Forest.root) _

theorem addMissing (tidy : b.Tidy) (id : NodeId) (distinct : tag.Distinct) :
    (b.addMissing id tag).Tidy := by
  unfold Construction.addMissing
  split
  · rename_i known
    exact tidy.withForest (tidy.parts.setKind id ((tidy.parts _ _ known).append_missing distinct))
  · exact tidy

theorem openText (tidy : b.Tidy) (distinct : tag.Distinct) (content : Content) :
    (b.openText tag content).1.Tidy :=
  tidy.openFor distinct

theorem endParagraph (tidy : b.Tidy) : b.endParagraph.Tidy :=
  .ite tidy tidy

end Tidy

/-! ## Formatting elements -/

namespace Tidy

theorem forget (tidy : b.Tidy) (id : NodeId) : (b.forget id).Tidy :=
  tidy.withFormatting fun entry member => tidy.formatting entry (List.mem_of_mem_eraseP member)

theorem mark (tidy : b.Tidy) : b.mark.Tidy :=
  tidy.withFormatting (List.forall_mem_cons.mpr ⟨trivial, tidy.formatting⟩)

theorem unmark (tidy : b.Tidy) : b.unmark.Tidy :=
  tidy.withFormatting fun entry member =>
    tidy.formatting entry ((List.dropWhile_sublist _).mem (List.mem_of_mem_tail member))

theorem openFormatting (tidy : b.Tidy) (distinct : tag.Distinct) :
    (b.openFormatting tag).Tidy := by
  have remembers {next : Construction} (tidy : next.Tidy) :
      Tidy { (next.openTag tag).2 with
        formatting := .element (next.openTag tag).1 tag :: (next.openTag tag).2.formatting } :=
    (tidy.openTag distinct).withFormatting
      (List.forall_mem_cons.mpr ⟨distinct, (tidy.openTag distinct).formatting⟩)
  unfold Construction.openFormatting
  dsimp only
  split
  · split
    · exact remembers (tidy.forget _)
    · exact remembers tidy
  · exact remembers tidy

theorem reconstruct (tidy : b.Tidy) : b.reconstruct.Tidy := by
  unfold Construction.reconstruct
  extract_lets waits closed kept reopen
  have all (entry : Formatting) (member : entry ∈ closed.reverse) : entry.Distinct :=
    tidy.formatting entry ((List.takeWhile_sublist waits).mem (List.mem_reverse.mp member))
  have start : b.Tidy ∧ ∀ entry ∈ kept, entry.Distinct :=
    ⟨tidy, fun entry member => tidy.formatting entry ((List.dropWhile_sublist waits).mem member)⟩
  -- a tag that is opened again takes the place of the element that it stood for
  have reopened : (closed.reverse.foldl reopen (b, kept)).1.Tidy ∧
      ∀ entry ∈ (closed.reverse.foldl reopen (b, kept)).2, entry.Distinct := by
    refine List.foldlRecOn (motive := fun state : Construction × List Formatting =>
      state.1.Tidy ∧ ∀ entry ∈ state.2, entry.Distinct) closed.reverse reopen start ?_
    intro state ⟨tidy, distinct⟩ entry member
    cases entry with
    | marker => exact ⟨tidy, distinct⟩
    | element id tag =>
        have named : tag.Distinct := all _ member
        exact ⟨tidy.openTag named, List.forall_mem_cons.mpr ⟨named, distinct⟩⟩
  exact reopened.1.withFormatting reopened.2

theorem closeOther (tidy : b.Tidy) (name : String) : (b.closeOther name).Tidy := by
  unfold Construction.closeOther
  dsimp only
  split
  · exact .ite tidy tidy
  · exact tidy

/-! ## Overlapping elements -/

/-- A successor of an entry is as distinct as the entry. -/
theorem distinct_replaced {formatting : List Formatting}
    (distinct : ∀ entry ∈ formatting, entry.Distinct) (id : NodeId) {successor : Formatting}
    (new : successor.Distinct) :
    ∀ entry ∈ formatting.map fun entry => if entry.isOf id then successor else entry,
      entry.Distinct := by
  refine List.forall_mem_map.mpr fun entry member => ?_
  split
  · exact new
  · exact distinct entry member

theorem moveChildren (tidy : b.Tidy) (source target : NodeId) :
    (b.moveChildren source target).Tidy :=
  tidy.withForest <| List.foldlRecOn (b.forest.children source) _ tidy.parts
    fun _ parts child _ => (parts.detach child).attachLast target child

theorem splitStep {split : Split} (tidy : split.state.Tidy) (block id : NodeId) :
    (split.step block id).state.Tidy := by
  unfold Split.step
  dsimp only
  split
  · rename_i tag found
    have distinct : tag.Distinct := tidy.formatting _ (List.mem_of_find?_eq_some found)
    split
    · exact tidy.forget id
    · have copied := tidy.create .html tag.name (distinct.once .html)
      exact (copied.withForest ((copied.parts.detach _).attachLast _ _)).withFormatting
        (distinct_replaced copied.formatting id distinct)
  · exact tidy

theorem distinct_succeed {formatting : List Formatting}
    (distinct : ∀ entry ∈ formatting, entry.Distinct) (id : NodeId) (bookmark : Option NodeId)
    {successor : Formatting} (new : successor.Distinct) :
    ∀ entry ∈ succeed formatting id bookmark successor, entry.Distinct := by
  unfold succeed
  split
  · exact distinct_replaced distinct id new
  · intro entry member
    obtain ⟨old, among, here⟩ := List.mem_flatMap.mp (List.mem_of_mem_eraseP member)
    split at here
    · rcases List.mem_pair.mp here with rfl | rfl
      · exact new
      · exact distinct _ among
    · cases List.mem_singleton.mp here
      exact distinct _ among

/-- The tag of a formatting element that is looked for by its name. -/
theorem distinct_of_findSome (tidy : b.Tidy) {name : String} {id : NodeId}
    (found : (b.sinceMarker.findSome? fun
      | .element id tag => if tag.name = name then some (id, tag) else none
      | .marker => none) = some (id, tag)) : tag.Distinct := by
  obtain ⟨entry, among, here⟩ := List.exists_of_findSome?_eq_some found
  have distinct := tidy.formatting entry ((List.takeWhile_sublist _).mem among)
  split at here
  · split at here
    · cases here
      exact distinct
    · cases here
  · cases here

theorem adoptOnce (tidy : b.Tidy) (name : String) : (b.adoptOnce name).1.Tidy := by
  unfold Construction.adoptOnce
  extract_lets found
  cases known : found with
  | none => exact tidy.closeOther name
  | some pair =>
    obtain ⟨id, tag⟩ := pair
    have distinct := tidy.distinct_of_findSome known
    dsimp -zeta only
    split
    · exact tidy.forget id
    · split
      · exact tidy
      · extract_lets above below
        split
        · rename_i block ancestor _ _
          extract_lets higher between split opened detached placed
          have apart : split.state.Tidy :=
            List.foldlRecOn (motive := fun split : Split => split.state.Tidy) between _ tidy
              fun _ tidy id _ => tidy.splitStep block id
          have moved : placed.Tidy :=
            (apart.withForest (apart.parts.detach split.last)).put _ split.last
          have filled := (moved.create .html tag.name (distinct.once .html)).moveChildren block
            (placed.create .html tag.name (Vocabulary.html.attributes tag.attributes)).1
          exact (filled.withForest (filled.parts.attachLast block _)).withFormatting
            (distinct_succeed filled.formatting id split.bookmark distinct)
        · exact tidy.forget id

theorem adopt (name : String) (times : Nat) (tidy : b.Tidy) : (adopt name times b).Tidy := by
  induction times generalizing b with
  | zero => exact tidy
  | succ times ih =>
      have once := tidy.adoptOnce name
      rw [Construction.adopt]
      split
      · rename_i split
        rw [split] at once
        exact ih once
      · rename_i split
        rw [split] at once
        exact once

theorem closeFormatting (tidy : b.Tidy) (name : String) : (b.closeFormatting name).Tidy := by
  unfold Construction.closeFormatting
  split
  · exact .ite tidy (adopt name 8 tidy)
  · exact tidy

end Tidy

end Construction

end ServerPages.Markup

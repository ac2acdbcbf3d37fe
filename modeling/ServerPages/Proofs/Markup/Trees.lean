import ServerPages.Markup.Parser
import ServerPages.Proofs.Markup.TidyRules

/-!
# Parsed trees repeat no attribute

Tokens of a text are tags of different attributes, so that the tree which they lead to is tidy,
and with it the trees that are read from it.
-/

namespace ServerPages.Markup

/-! ## Reading a text -/

theorem tidy_feed {progress : Progress} (tidy : progress.tree.Tidy) {token : Token}
    (distinct : token.Distinct) : (progress.feed token).tree.Tidy := by
  have accepted := tidy.accept distinct
  cases token <;> exact accepted

theorem tidy_consume (steps : Nat) {progress : Progress} (tidy : progress.tree.Tidy)
    (chars : List Char) : (progress.consume steps chars).Tidy := by
  have plain : Token.endOfInput.Distinct := trivial
  induction steps generalizing progress chars with
  | zero => exact tidy_feed tidy plain
  | succ steps ih =>
      cases chars with
      | nil => exact tidy_feed tidy plain
      | cons c rest =>
          have scanned := distinct_scan progress.content progress.element
            progress.tree.foreignLabel?.isSome (c :: rest)
          refine ih ?_ _
          exact List.foldlRecOn (motive := fun progress : Progress => progress.tree.Tidy) _ _ tidy
            fun _ tidy token member => tidy_feed tidy (scanned token member)

/-- A text is read by its characters, however they are given. -/
theorem construct_of_toList {text : String} {chars : List Char} (given : text.toList = chars)
    (start : Construction) (content : Content) :
    construct start content text =
      Progress.consume (normalize chars).length ⟨start, content, none⟩ (normalize chars) := by
  rw [← given]
  rfl

/-- The tree that a text leads to is as tidy as its start. -/
theorem tidy_construct {start : Construction} (tidy : start.Tidy) (content : Content)
    (text : String) : (construct start content text).Tidy :=
  @tidy_consume _ ⟨start, content, none⟩ tidy _

/-! ## Trees -/

namespace Tree

mutual

/-- No element of the tree repeats an attribute. -/
def Tidy : Tree → Prop
  | .element _ _ attributes contents children =>
      Once attributes ∧ AllTidy contents ∧ AllTidy children
  | _ => True

def AllTidy : List Tree → Prop
  | [] => True
  | tree :: trees => Tidy tree ∧ AllTidy trees

end

theorem allTidy_iff {trees : List Tree} : AllTidy trees ↔ ∀ tree ∈ trees, tree.Tidy := by
  induction trees with
  | nil => simp [AllTidy]
  | cons tree trees ih => rw [AllTidy, List.forall_mem_cons, ih]

end Tree

theorem allTidy_treesOf {forest : Forest Part} (parts : forest.All fun _ => Part.Once)
    (height : Nat) (ids : List NodeId) : Tree.AllTidy (treesOf forest height ids) := by
  induction height generalizing ids with
  | zero => exact trivial
  | succ height ih =>
      refine Tree.allTidy_iff.mpr fun tree member => ?_
      obtain ⟨id, _, made⟩ := List.mem_filterMap.mp member
      split at made
      · cases made
        trivial
      · rename_i known
        cases made
        exact ⟨parts id _ known, ih _, ih _⟩
      · cases made
        trivial
      · cases made
        trivial
      · cases made
      · cases made

theorem allTidy_parseDocument (text : String) : Tree.AllTidy (parseDocument text) :=
  allTidy_treesOf (tidy_construct (Construction.tidy_start none) .markup text).parts _ _

theorem allTidy_parseFragment (context text : String) :
    Tree.AllTidy (parseFragment context text) := by
  have start : ((Construction.start (some context)).createTop []).Tidy :=
    (Construction.tidy_start (some context)).createTop List.nodup_nil
  unfold parseFragment
  extract_lets top moded forest
  have tidy : moded.Tidy := start
  split
  · exact allTidy_treesOf (tidy_construct tidy (contentOf context) text).parts _ _
  · trivial

end ServerPages.Markup

import ServerPages.Proofs.Binding.Steps
import ServerPages.Proofs.Document.Decoding
import ServerPages.Proofs.Document.Injection
import ServerPages.Proofs.Document.Operations
import ServerPages.Proofs.Markup.ScriptText

/-!
# Scripts between their tags

The script of a page is one element with one text. Nothing in the text closes it, since the
generated code has no closing tag in it, and the shared script has no tag at all. The closing tag
that is written behind the text counts unless the generated code leaves the script open.
-/

namespace ServerPages

open Markup

/-! ## The shared script -/

namespace Assets

/-- There are no tags in a text, and no two dashes in a row. -/
def isTame : List Char → Bool
  | [] => true
  | '-' :: '-' :: _ => false
  | c :: rest => c != '<' && isTame rest

theorem isTame_sound (chars : List Char) (tame : isTame chars = true) :
    '<' ∉ chars ∧ ¬ EndsComment chars := by
  fun_induction isTame chars with
  | case1 => exact ⟨List.not_mem_nil, by decide⟩
  | case2 => cases tame
  | case3 c rest apart ih =>
      obtain ⟨plain, others⟩ : c ≠ '<' ∧ isTame rest = true := by simpa using tame
      obtain ⟨closed, endless⟩ := ih others
      refine ⟨by simp [plain.symm, closed], fun inside => ?_⟩
      rcases List.infix_cons_iff.mp inside with start | later
      · obtain ⟨rfl, next⟩ := List.cons_prefix_cons.mp start
        obtain ⟨more, rfl⟩ := next
        exact apart _ rfl rfl
      · exact endless later

def TameLines (lines : List String) : Prop :=
  ∀ line ∈ lines, isTame line.toList = true

theorem tameLines_nil : TameLines [] := fun _ member => absurd member List.not_mem_nil

theorem tameLines_cons {chars : List Char} {lines : List String} (first : isTame chars = true)
    (others : TameLines lines) : TameLines (String.ofList chars :: lines) := by
  refine List.forall_mem_cons.mpr ⟨?_, others⟩
  rwa [String.toList_ofList]

/-- Line by line, since each is taken as the list of its characters. -/
theorem tameLines_scriptLines : TameLines scriptLines := by
  unfold scriptLines
  repeat refine tameLines_cons rfl ?_
  exact tameLines_nil

theorem toList_ofLines (lines : List String) :
    (ofLines lines).toList = lines.flatMap fun line => line.toList ++ ['\n'] := by
  rw [ofLines, String.toList_join, List.flatMap_map]
  simp

theorem ofLines_calm {lines : List String} (tame : TameLines lines) :
    '<' ∉ (ofLines lines).toList ∧ ¬ EndsComment (ofLines lines).toList := by
  rw [toList_ofLines]
  induction lines with
  | nil => exact ⟨List.not_mem_nil, by decide⟩
  | cons line lines ih =>
      obtain ⟨first, others⟩ := List.forall_mem_cons.mp tame
      obtain ⟨closed, endless⟩ := isTame_sound _ first
      obtain ⟨closedLater, endlessLater⟩ := ih others
      rw [List.flatMap_cons, List.append_assoc, List.singleton_append]
      refine ⟨by simp [closed, closedLater], fun inside => ?_⟩
      rcases (infix_append_cons_iff (by decide) (by decide) _ _).mp inside with here | later
      · exact endless here
      · exact endlessLater later

end Assets

namespace ClientCode

/-! ## The generated code -/

theorem escapeClosing_cons {c : Char} {rest : List Char}
    (plain : ¬ (c = '<' ∧ rest.head? = some '/')) :
    escapeClosing (c :: rest) = c :: escapeClosing rest := by
  rw [escapeClosing]
  rintro more rfl rfl
  exact plain ⟨rfl, rfl⟩

theorem head?_escapeClosing (chars : List Char) :
    (escapeClosing chars).head? = chars.head? := by
  fun_cases escapeClosing chars <;> rfl

theorem not_closing_escapeClosing (chars : List Char) :
    ¬ ['<', '/'] <:+: escapeClosing chars := by
  fun_induction escapeClosing chars with
  | case1 => decide
  | case2 rest ih => simpa [List.infix_cons_iff, List.cons_prefix_cons] using ih
  | case3 c rest other ih =>
      rw [List.infix_cons_iff]
      rintro (here | later)
      · obtain ⟨rfl, more, start⟩ := List.cons_prefix_cons.mp here
        have slash : rest.head? = some '/' := by
          rw [← head?_escapeClosing, ← start]
          rfl
        obtain ⟨tail, rfl⟩ := List.head?_eq_some_iff.mp slash
        exact other tail rfl rfl
      · exact ih later

theorem escapeClosing_concat (chars : List Char) :
    escapeClosing (chars ++ [';']) = escapeClosing chars ++ [';'] := by
  fun_induction escapeClosing chars with
  | case1 => rfl
  | case2 rest ih => simp only [List.cons_append, escapeClosing, ih]
  | case3 c rest other ih =>
      rw [List.cons_append, escapeClosing_cons, ih, List.cons_append]
      rintro ⟨rfl, slash⟩
      cases rest with
      | nil => cases slash
      | cons d rest =>
          obtain rfl : d = '/' := by simpa using slash
          exact other rest rfl rfl

theorem not_closing_render (code : ClientCode) : ¬ ['<', '/'] <:+: code.render.toList := by
  rw [render, String.toList_ofList]
  exact not_closing_escapeClosing _

/-- The generated code ends with the call of its function. -/
theorem exists_toList_render (code : ClientCode) :
    ∃ front, code.render.toList = front ++ [';'] := by
  have last : "\x7d)();".toList = "\x7d)()".toList ++ [';'] := by decide
  rw [render, String.toList_ofList, String.toList_append, last, ← List.append_assoc,
    escapeClosing_concat]
  exact ⟨_, rfl⟩

/-- The script of a page has no closing tags, and leaves itself open where the generated code
does. -/
theorem script_withAssets (code : ClientCode) :
    ¬ ['<', '/'] <:+: (code.withAssets .shared).script.toList ∧
      (LeavesOpen (code.withAssets .shared).script.toList ↔ LeavesOpen code.render.toList) := by
  obtain ⟨closed, endless⟩ := Assets.ofLines_calm Assets.tameLines_scriptLines
  obtain ⟨front, split⟩ := exists_toList_render code
  have whole : (code.withAssets .shared).script.toList =
      code.render.toList ++ '\n' :: (Assets.ofLines Assets.scriptLines).toList := by
    have shown : (code.withAssets .shared).script =
      code.render ++ "\n" ++ Assets.ofLines Assets.scriptLines := rfl
    simp [shown]
  generalize (Assets.ofLines Assets.scriptLines).toList = shared at whole closed endless
  rw [whole]
  constructor
  · rw [infix_append_cons_iff (by decide) (by decide)]
    rintro (inside | inside)
    · exact not_closing_render code inside
    · exact closed (inside.subset List.mem_cons_self)
  · have calm : '<' ∉ '\n' :: shared := by simp [closed]
    rw [split, List.append_assoc, List.singleton_append, leavesOpen_append_calm calm,
      leavesOpen_append_calm List.not_mem_nil (by decide)]
    exact fun ends => endless ((endsComment_cons_of_ne (by decide)).mp ends)

theorem script_ne_empty (code : ClientCode) : (code.withAssets .shared).script ≠ "" := by
  intro empty
  obtain ⟨front, split⟩ := exists_toList_render code
  have shown : (code.withAssets .shared).script =
    code.render ++ "\n" ++ Assets.ofLines Assets.scriptLines := rfl
  have none := congrArg String.toList (shown.symm.trans empty)
  simp [split] at none

end ClientCode

/-! ## The written element -/

namespace Document

variable {doc : Document} {script : NodeId} {content : String}

/-- A script is written as its text between its tags. -/
theorem HoldsScript.outerHtml (holds : HoldsScript doc script content) (wf : doc.WellFormed) :
    doc.outerHtml script = "<script>" ++ content ++ "</script>" := by
  have depicts : doc.Depicts script (.element ⟨"script", []⟩ [.raw content]) := by
    refine ⟨holds.element, ?_⟩
    rw [holds.children]
    exact ⟨holds.text, trivial⟩
  have filled : isVoid "script" = false := by decide +kernel
  have opening : Element.openingChars ⟨"script", []⟩ = "<script>".toList := by decide
  have closing : Element.closingChars ⟨"script", []⟩ = "</script>".toList := by decide
  rw [outerHtml_eq wf depicts, Subtree.chars_element, filled, opening, closing]
  simp only [Bool.false_eq_true, if_false, Subtree.listChars_cons, Subtree.listChars_nil,
    Subtree.chars_raw, List.append_nil, String.ofList_append, String.ofList_toList,
    String.append_assoc]

end Document

namespace Binding

theorem exists_of_fst_eq {α β : Type} {pair : α × β} {first : α} (same : pair.1 = first) :
    ∃ second, pair = (first, second) :=
  ⟨pair.2, Prod.ext same rfl⟩

/-- The script of a page that was bound is put into its document as one element, and read from
there to the end of its text at least. It ends at the closing tag that is written behind the text
if and only if the generated code has no comment with an opening script tag and without an end. -/
theorem script_ends_iff {doc after : Document} (reached : doc.Reachable) {callable : List String}
    {code : ClientCode} (bound : (Document.bind callable).runFrom doc = (.ok code, after)) :
    ∃ final script,
      (Document.inject (code.withAssets .shared)).runFrom after = (.ok (), final) ∧
      final.InTree script ∧
      final.outerHtml script = "<script>" ++ (code.withAssets .shared).script ++ "</script>" ∧
      ∀ rest, let text := (code.withAssets .shared).script.toList
        text <+: (scriptText (some "script") .plain 0 (text ++ (closingScript ++ rest))).1 ∧
          (scriptText (some "script") .plain 0 (text ++ (closingScript ++ rest)) =
            (text, closingScript ++ rest) ↔ ¬ LeavesOpen code.render.toList) := by
  have rooted := reached.rooted
  obtain ⟨_, _, _, _, frame, _⟩ := exists_of_bind rooted.wellFormed (fun _ _ _ => True) trivial
    (fun _ _ _ _ _ _ _ _ _ _ => trivial) bound
  have sound := rooted.sound
  have top : after.takesChildren Document.root = true :=
    (frame.takes _ (Document.has_of_takesChildren sound.top)).trans sound.top
  obtain ⟨plain, leaves⟩ := code.script_withAssets
  have written := code.script_ne_empty
  obtain ⟨final, injected, ext, holds⟩ :=
    Document.exists_inject_script frame.wellFormed top (code.withAssets .shared)
  have script := holds written
  refine ⟨final, _, injected, Document.inTree_of_within_root script.within,
    script.outerHtml ext.wellFormed, fun rest => ?_⟩
  obtain ⟨kept, ends⟩ := scriptText_closingScript plain rest
  exact ⟨kept, ends.trans (not_congr leaves)⟩

/-- The name of a method may open a script within a comment; the closing tag then does not
count. -/
theorem script_ends_comment :
    let doc := Document.parse "<p>Hello</p>"
    let code : ClientCode := ⟨["<!--<script>"], [], []⟩
    ∃ after final script,
      (Document.bind ["<!--<script>"]).runFrom doc = (.ok code, after) ∧
      (Document.inject (code.withAssets .shared)).runFrom after = (.ok (), final) ∧
      final.outerHtml script = "<script>" ++ (code.withAssets .shared).script ++ "</script>" ∧
      ∀ rest, let text := (code.withAssets .shared).script.toList
        scriptText (some "script") .plain 0 (text ++ (closingScript ++ rest)) ≠
          (text, closingScript ++ rest) := by
  intro doc code
  have opens : LeavesOpen code.render.toList := by decide +kernel
  have ok : ((Document.bind ["<!--<script>"]).runFrom doc).1 = .ok code := by decide +kernel
  obtain ⟨after, bound⟩ :
      ∃ after, (Document.bind ["<!--<script>"]).runFrom doc = (.ok code, after) :=
    exists_of_fst_eq ok
  obtain ⟨final, script, injected, _, written, reads⟩ := script_ends_iff (.parse _) bound
  exact ⟨after, final, script, bound, injected, written,
    fun rest ends => (reads rest).2.mp ends opens⟩

end Binding

end ServerPages

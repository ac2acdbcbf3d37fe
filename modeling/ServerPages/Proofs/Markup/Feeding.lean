import ServerPages.Proofs.Markup.Insertion

/-!
# Taking written markup

How a construction takes tokens one by one, and how a text is taken piece by piece: the runs of
characters that it is read in are put together again, and a line feed at its start is kept unless
one is to be dropped.
-/

namespace ServerPages.Markup

open Subtree (ShownAt ShownAll StartsAt ofText)

namespace Construction

variable {b next : Construction} {token : Token} {top : NodeId} {below : List NodeId}
  {setting : Setting} {mode : Mode} {path : List Label} {parent : Option String}

def applied (b : Construction) (token : Token) : Construction × Reply :=
  if b.isForeign token then b.ruleForeign token else b.rule b.mode token

theorem process_of_done (done : b.applied token = (next, .done)) (steps : Nat) :
    process (steps + 1) b token = (next, none) := by
  unfold applied at done
  rw [process, done]

theorem process_of_read {content : Content} (reads : b.applied token = (next, .read content))
    (steps : Nat) : process (steps + 1) b token = (next, some content) := by
  unfold applied at reads
  rw [process, reads]

theorem process_of_again (again : b.applied token = (next, .again)) (steps : Nat) :
    process (steps + 1) b token = process steps next token := by
  unfold applied at again
  rw [process, again]

/-- A line feed in front of the next characters counts. -/
def attend (b : Construction) : Construction :=
  { b with dropLineFeed := false }

theorem patience_eq (b : Construction) : ∃ more, b.patience = more + 16 :=
  ⟨_, rfl⟩

theorem accept_tag (tag : Tag) :
    b.accept (.tag tag) = process b.attend.patience b.attend (.tag tag) := rfl

theorem accept_comment (content : String) :
    b.accept (.comment content) = process b.attend.patience b.attend (.comment content) := rfl

theorem accept_tag_of_done {tag : Tag} (done : b.attend.applied (.tag tag) = (next, .done)) :
    b.accept (.tag tag) = (next, none) := by
  rw [accept_tag]
  exact process_of_done done _

theorem accept_comment_of_done {content : String}
    (done : b.attend.applied (.comment content) = (next, .done)) :
    b.accept (.comment content) = (next, none) := by
  rw [accept_comment]
  exact process_of_done done _

/-! ## Characters -/

def IsRun (run : List Char) (token : Token) : Prop :=
  token = .blank run ∨ token = .text run

/-- Characters are added where the construction stands. -/
def TakesRuns (b : Construction) : Prop :=
  ∀ run token, IsRun run token →
    ∃ framesetOk, b.applied token = ({ b with framesetOk }.appendText run, .done)

/-- Characters are taken as they are, unless a line feed at their start is to be dropped. -/
theorem accept_chars {run : List Char} (isRun : IsRun run token) (nonempty : run ≠ [])
    (kept : b.dropLineFeed = true → run.head? ≠ some '\n') :
    b.accept token = process b.attend.patience b.attend token := by
  have trimmed : (if b.dropLineFeed then withoutLineFeed run else run) = run := by
    split
    · rename_i drops
      unfold withoutLineFeed
      split
      · exact absurd rfl (kept drops)
      · rfl
    · rfl
  have some : run.isEmpty = false := List.isEmpty_eq_false_iff.mpr nonempty
  rcases isRun with rfl | rfl
  · unfold accept
    simp only [trimmed, some, Bool.false_eq_true, if_false]
    rfl
  · unfold accept
    simp only [trimmed, some, Bool.false_eq_true, if_false]
    rfl

theorem accept_run {run : List Char} (takes : b.attend.TakesRuns) (isRun : IsRun run token)
    (nonempty : run ≠ []) (kept : b.dropLineFeed = true → run.head? ≠ some '\n') :
    ∃ framesetOk, b.accept token = ({ b.attend with framesetOk }.appendText run, none) := by
  obtain ⟨framesetOk, done⟩ := takes run token isRun
  exact ⟨framesetOk, (accept_chars isRun nonempty kept).trans (process_of_done done _)⟩

def acceptAll (b : Construction) (tokens : List Token) : Construction :=
  tokens.foldl (fun b token => (b.accept token).1) b

def runOf : Token → List Char
  | .blank run => run
  | .text run => run
  | _ => []

end Construction

def AreRuns (tokens : List Token) : Prop :=
  ∀ token ∈ tokens, ∃ run, run ≠ [] ∧ Construction.IsRun run token

open Construction in
theorem runs_ofChars {chars : List Char} (clean : '\x00' ∉ chars) :
    AreRuns (Token.ofChars chars) ∧ (Token.ofChars chars).flatMap runOf = chars := by
  induction chars with
  | nil => exact ⟨nofun, rfl⟩
  | cons c chars ih =>
      rw [List.mem_cons, not_or] at clean
      obtain ⟨runs, whole⟩ := ih clean.2
      change AreRuns (Token.consChar c (Token.ofChars chars)) ∧
        (Token.consChar c (Token.ofChars chars)).flatMap runOf = c :: chars
      unfold Token.consChar
      rw [if_neg (Ne.symm clean.1)]
      split
      · split
        · rename_i run rest same
          rw [same] at runs whole
          refine ⟨List.forall_mem_cons.mpr ⟨⟨c :: run, List.cons_ne_nil _ _, .inl rfl⟩,
            (List.forall_mem_cons.mp runs).2⟩, ?_⟩
          exact congrArg (c :: ·) whole
        · refine ⟨List.forall_mem_cons.mpr ⟨⟨[c], List.cons_ne_nil _ _, .inl rfl⟩, runs⟩, ?_⟩
          exact congrArg (c :: ·) whole
      · split
        · rename_i run rest same
          rw [same] at runs whole
          refine ⟨List.forall_mem_cons.mpr ⟨⟨c :: run, List.cons_ne_nil _ _, .inr rfl⟩,
            (List.forall_mem_cons.mp runs).2⟩, ?_⟩
          exact congrArg (c :: ·) whole
        · refine ⟨List.forall_mem_cons.mpr ⟨⟨[c], List.cons_ne_nil _ _, .inr rfl⟩, runs⟩, ?_⟩
          exact congrArg (c :: ·) whole

namespace Construction

variable {b next : Construction} {token : Token} {top : NodeId} {below : List NodeId}
  {label : Label} {setting : Setting} {mode : Mode} {path : List Label} {parent : Option String}

theorem Stands.withFramesetOk (stands : b.Stands setting mode path) (framesetOk : Bool) :
    Stands setting mode path { b.attend with framesetOk } :=
  stands.moved { stands.idle with } stands.mode rfl rfl rfl rfl

theorem Stands.attend (stands : b.Stands setting mode path) :
    b.attend.Stands setting mode path :=
  stands.withFramesetOk b.framesetOk

theorem Stands.top_label? (stands : b.Stands setting mode (label :: path))
    (stack : b.stack = top :: below) : b.label? top = some label := by
  have labelled := stands.labelled
  rw [stack] at labelled
  exact (labelled_cons.mp labelled).1

theorem Stands.exists_stack (stands : b.Stands setting mode (label :: path)) :
    ∃ top below, b.stack = top :: below := by
  have labelled := stands.labelled
  cases stack : b.stack with
  | nil =>
      rw [stack] at labelled
      cases labelled
  | cons top below => exact ⟨top, below, rfl⟩

/-- Nodes are added to the latest open element, unless that is a template. -/
theorem Stands.putsIn (stands : b.Stands setting mode (label :: path))
    (stack : b.stack = top :: below) (plain : label ≠ (.html, "template")) : b.PutsIn top :=
  ⟨top, below, stack, insideOf_eq (stands.top_label? stack) plain⟩

theorem Stands.place (stands : b.Stands setting mode path) (puts : b.PutsIn top) :
    b.place = .last top :=
  place_eq stands.idle puts

/-! ## Texts -/

theorem shownAt_ofText {forest : Forest Part} {bound : Nat} {id : NodeId} {content : String} :
    ShownAt Part.shape forest parent bound id (ofText parent content) ↔
      bound ≤ id.index ∧ forest.kind? id = some (.text content) := by
  unfold ofText
  split
  · rename_i raw
    have same : ofText parent content = .raw content := if_pos raw
    constructor
    · rintro ⟨part, start⟩
      obtain ⟨rfl, _⟩ := start.starts
      exact ⟨start.late, start.known⟩
    · rintro ⟨late, known⟩
      exact ⟨_, late, known, ⟨rfl, same⟩, nofun⟩
  · rename_i plain
    have same : ofText parent content = .text content := if_neg plain
    constructor
    · rintro ⟨part, start⟩
      obtain ⟨rfl, _⟩ := start.starts
      exact ⟨start.late, start.known⟩
    · rintro ⟨late, known⟩
      exact ⟨_, late, known, ⟨rfl, same⟩, nofun⟩

theorem builds_text {forest : Forest Part} (inside : forest.Has top) (content : String) :
    Builds parent top [ofText parent content] forest (forest.sprout top (.text content)) :=
  ⟨[⟨forest.size⟩], Forest.grownAt_sprout _ inside,
    shownAt_ofText.mpr ⟨Nat.le_refl _, Forest.kind?_sprout_new _ _⟩, trivial⟩

/-- The first run of a text makes a node of its own. -/
theorem reads_firstRun (stands : b.Stands setting mode (label :: path))
    (puts : b.PutsIn top)
    (apart : ∀ id content, ¬ b.EndsInText top id content) (run : List Char) (framesetOk : Bool) :
    Reads setting parent top [ofText parent (String.ofList run)] b
      ({ b.attend with framesetOk }.appendText run) := by
  have place : Construction.place { b.attend with framesetOk } = .last top :=
    (stands.withFramesetOk framesetOk).place puts
  rw [appendText_eq place apart]
  exact .leaf (builds_text (stands.has_spot puts) _) { stands.idle with } rfl rfl rfl rfl rfl rfl

/-- A further run goes on with the text. -/
theorem reads_nextRun {middle : Construction} {content : String}
    (stands : b.Stands setting mode (label :: path)) (puts : b.PutsIn top)
    (reads : Reads setting parent top [ofText parent content] b middle) (run : List Char)
    (framesetOk : Bool) :
    Reads setting parent top [ofText parent (content ++ String.ofList run)] b
      ({ middle.attend with framesetOk }.appendText run) := by
  have stands' := stands.after reads
  obtain ⟨ids, grown, shown⟩ := reads.builds
  have puts' : middle.PutsIn top := stands.putsIn_after puts reads
  have place : Construction.place { middle.attend with framesetOk } = .last top :=
    (stands'.withFramesetOk framesetOk).place puts'
  match ids, shown with
  | [id], ⟨here, _⟩ =>
      obtain ⟨late, known⟩ := shownAt_ofText.mp here
      have new : ¬ b.forest.Has id := Nat.not_lt.mpr late
      have ends : middle.EndsInText top id content :=
        ⟨by rw [grown.here, List.getLast?_append, List.getLast?_singleton]; rfl, known⟩
      have ends' : EndsInText { middle.attend with framesetOk } top id content := ends
      rw [appendText_extend place ends']
      refine ⟨{ reads.idle with }, reads.mode, reads.stack, reads.form, reads.fades, nofun, [id],
        grown.setKind new _, shownAt_ofText.mpr ⟨late, ?_⟩, trivial⟩
      exact Forest.kind?_setKind_self (Forest.has_of_kind? known) _

theorem reads_moreRuns {middle : Construction} {content : String}
    (stands : b.Stands setting mode (label :: path)) (puts : b.PutsIn top)
    (speaks : ∀ {trees : List Subtree} {later : Construction},
      Reads setting parent top trees b later → later.attend.TakesRuns)
    (reads : Reads setting parent top [ofText parent content] b middle) {tokens : List Token}
    (runs : AreRuns tokens) :
    Reads setting parent top [ofText parent (content ++ String.ofList (tokens.flatMap runOf))] b
      (middle.acceptAll tokens) := by
  induction tokens generalizing middle content with
  | nil =>
      rw [List.flatMap_nil, String.ofList_nil, String.append_empty]
      exact reads
  | cons token tokens ih =>
      obtain ⟨⟨run, nonempty, isRun⟩, others⟩ := List.forall_mem_cons.mp runs
      have attends : middle.dropLineFeed = true → run.head? ≠ some '\n' := fun drops =>
        absurd (reads.lineFeed drops).1 (List.cons_ne_nil _ _)
      obtain ⟨framesetOk, accepted⟩ :=
        accept_run (speaks reads) isRun nonempty attends
      have next := ih (reads_nextRun stands puts reads run framesetOk)
        others
      have same : runOf token = run := by
        rcases isRun with rfl | rfl <;> rfl
      rw [List.flatMap_cons, same, String.ofList_append, ← String.append_assoc]
      have first : (middle.accept token).1 =
          { middle.attend with framesetOk }.appendText run := by rw [accepted]
      rw [acceptAll, List.foldl_cons, first]
      exact next

/-- A text is read whole, whatever runs it is taken in. -/
theorem reads_text (stands : b.Stands setting mode (label :: path)) (puts : b.PutsIn top)
    (speaks : ∀ {trees : List Subtree} {later : Construction},
      Reads setting parent top trees b later → later.attend.TakesRuns)
    (apart : ∀ id content, ¬ b.EndsInText top id content) {content : List Char}
    (nonempty : content ≠ []) (kept : b.dropLineFeed = true → content.head? ≠ some '\n')
    {tokens : List Token} (runs : AreRuns tokens) (whole : tokens.flatMap runOf = content) :
    Reads setting parent top [ofText parent (String.ofList content)] b (b.acceptAll tokens) := by
  cases tokens with
  | nil => exact absurd whole.symm nonempty
  | cons token tokens =>
      obtain ⟨⟨run, some, isRun⟩, others⟩ := List.forall_mem_cons.mp runs
      have same : runOf token = run := by
        rcases isRun with rfl | rfl <;> rfl
      rw [List.flatMap_cons, same] at whole
      have attends : b.dropLineFeed = true → run.head? ≠ Option.some '\n' := fun drops => by
        have first := kept drops
        obtain ⟨c, rest, rfl⟩ := List.exists_cons_of_ne_nil some
        rw [← whole] at first
        exact first
      obtain ⟨framesetOk, accepted⟩ := accept_run (speaks (.nil stands.idle top)) isRun some attends
      have first : (b.accept token).1 = { b.attend with framesetOk }.appendText run := by
        rw [accepted]
      rw [acceptAll, List.foldl_cons, first, ← whole, String.ofList_append]
      exact reads_moreRuns stands puts speaks
        (reads_firstRun stands puts apart _ _) others

end Construction

end ServerPages.Markup

import Mathlib.Data.List.Infix
import Mathlib.Data.List.TakeWhile
import ServerPages.Markup.Token.RawText

/-!
# Where the text of a script ends

A text without closing tags is never left before its end. What decides whether the closing tag that
follows it counts is whether some comment in it has an opening script tag and no end.
-/

namespace ServerPages.Markup

/-! ## Comments that leave a script open -/

def EndsComment (text : List Char) : Prop :=
  ['-', '-', '>'] <:+: text

def OpensScript (text : List Char) : Prop :=
  ∃ tail ∈ text.tails, tail.head? = some '<' ∧ nameAt? tail.tail = some "script"

/-- There is a comment in a text that has an opening script tag and no end. -/
def LeavesOpen (text : List Char) : Prop :=
  ∃ tail ∈ text.tails, ['<', '!', '-', '-'] <+: tail ∧ ¬ EndsComment tail ∧ OpensScript tail

instance (text : List Char) : Decidable (EndsComment text) :=
  inferInstanceAs (Decidable (_ <:+: _))

instance (text : List Char) : Decidable (OpensScript text) :=
  inferInstanceAs (Decidable (∃ tail ∈ text.tails, _))

instance (text : List Char) : Decidable (LeavesOpen text) :=
  inferInstanceAs (Decidable (∃ tail ∈ text.tails, _))

variable {c : Char} {text rest : List Char}

theorem endsComment_cons_of_ne (solid : c ≠ '-') : EndsComment (c :: rest) ↔ EndsComment rest := by
  simp [EndsComment, List.infix_cons_iff, List.cons_prefix_cons, Ne.symm solid]

/-- A run of dashes counts only if the end of a comment follows it. -/
theorem endsComment_dashes {dashes : Nat} (few : dashes ≤ 2) (solid : c ≠ '-')
    (within : ¬ (c = '>' ∧ dashes = 2)) :
    EndsComment (List.replicate dashes '-' ++ c :: rest) ↔ EndsComment rest := by
  obtain rfl | rfl | rfl : dashes = 0 ∨ dashes = 1 ∨ dashes = 2 := by omega
  · exact endsComment_cons_of_ne solid
  · simp [EndsComment, List.infix_cons_iff, List.cons_prefix_cons, Ne.symm solid]
  · have other : '>' ≠ c := fun same => within ⟨same.symm, rfl⟩
    simp [EndsComment, List.infix_cons_iff, List.cons_prefix_cons, Ne.symm solid, other,
      List.replicate]

/-- Dashes beyond the second make no difference. -/
theorem endsComment_dash {dashes : Nat} (few : dashes ≤ 2) :
    EndsComment (List.replicate (min 2 (dashes + 1)) '-' ++ rest) ↔
      EndsComment (List.replicate dashes '-' ++ '-' :: rest) := by
  obtain rfl | rfl | rfl : dashes = 0 ∨ dashes = 1 ∨ dashes = 2 := by omega
  · rfl
  · rfl
  · simp [EndsComment, List.infix_cons_iff, List.cons_prefix_cons, List.replicate]

theorem opensScript_cons : OpensScript (c :: rest) ↔
    (c = '<' ∧ nameAt? rest = some "script") ∨ OpensScript rest := by
  simp [OpensScript]

theorem nameAt?_of_ne {c : Char} (letter : isLetter c = false) (inside : endsTagName c = false)
    (rest : List Char) : nameAt? (c :: rest) = none := by
  simp [nameAt?, letter, inside]

theorem not_comment_of_nameAt? {name : String} (named : nameAt? text = some name) :
    ¬ ['!', '-', '-'] <+: text := by
  rintro ⟨more, rfl⟩
  cases (nameAt?_of_ne (by decide) (by decide) _).symm.trans named

theorem leavesOpen_cons : LeavesOpen (c :: rest) ↔
    (c = '<' ∧ ['!', '-', '-'] <+: rest ∧ ¬ EndsComment rest ∧ OpensScript rest) ∨
      LeavesOpen rest := by
  have here : (['<', '!', '-', '-'] <+: c :: rest ∧ ¬ EndsComment (c :: rest) ∧
        OpensScript (c :: rest)) ↔
      (c = '<' ∧ ['!', '-', '-'] <+: rest ∧ ¬ EndsComment rest ∧ OpensScript rest) := by
    rw [List.cons_prefix_cons, and_assoc, eq_comm]
    refine and_congr_right fun opening => and_congr_right fun start => ?_
    rw [opening, endsComment_cons_of_ne (by decide), opensScript_cons]
    exact and_congr_right fun _ => or_iff_right fun named => not_comment_of_nameAt? named.2 start
  simp only [LeavesOpen, List.tails_cons, List.mem_cons, exists_eq_or_imp, here]

theorem leavesOpen_cons_of_ne (solid : c ≠ '<') : LeavesOpen (c :: rest) ↔ LeavesOpen rest := by
  rw [leavesOpen_cons]
  exact or_iff_right fun opening => solid opening.1

theorem opensScript_cons_of_ne (solid : c ≠ '<') : OpensScript (c :: rest) ↔ OpensScript rest := by
  rw [opensScript_cons]
  exact or_iff_right fun opening => solid opening.1

theorem endsComment_append {taken : List Char} (solid : ∀ c ∈ taken, c ≠ '-') :
    EndsComment (taken ++ rest) ↔ EndsComment rest := by
  induction taken with
  | nil => rfl
  | cons c taken ih =>
      obtain ⟨first, others⟩ := List.forall_mem_cons.mp solid
      exact (endsComment_cons_of_ne first).trans (ih others)

theorem leavesOpen_append {taken : List Char} (solid : ∀ c ∈ taken, c ≠ '<') :
    LeavesOpen (taken ++ rest) ↔ LeavesOpen rest := by
  induction taken with
  | nil => rfl
  | cons c taken ih =>
      obtain ⟨first, others⟩ := List.forall_mem_cons.mp solid
      exact (leavesOpen_cons_of_ne first).trans (ih others)

theorem opensScript_append {taken : List Char} (solid : ∀ c ∈ taken, c ≠ '<') :
    OpensScript (taken ++ rest) ↔ OpensScript rest := by
  induction taken with
  | nil => rfl
  | cons c taken ih =>
      obtain ⟨first, others⟩ := List.forall_mem_cons.mp solid
      exact (opensScript_cons_of_ne first).trans (ih others)

/-! ## Names of tags -/

/-- A name goes no further than to a character that is no letter. -/
theorem nameAt?_append {c : Char} (letter : isLetter c = false) (inside : endsTagName c = false)
    (text more : List Char) : nameAt? (text ++ c :: more) = nameAt? text := by
  unfold nameAt?
  rw [List.dropWhile_append]
  cases after : text.dropWhile isLetter with
  | nil => simp [letter, inside]
  | cons c left =>
      have stopped : (text.takeWhile isLetter).length ≠ text.length := by
        have whole := congrArg List.length (@List.takeWhile_append_dropWhile _ isLetter text)
        rw [after, List.length_append, List.length_cons] at whole
        omega
      rw [List.takeWhile_append, if_neg stopped]
      rfl

/-- A script tag is opened by six letters and a character that ends its name. -/
theorem exists_of_nameAt? (named : nameAt? text = some "script") :
    ∃ taken left, text = taken ++ left ∧ taken.length = 7 ∧ ∀ c ∈ taken, c ≠ '<' ∧ c ≠ '-' := by
  unfold nameAt? at named
  cases after : text.dropWhile isLetter with
  | nil => simp [after] at named
  | cons last left =>
      simp only [after] at named
      split at named
      · rename_i ends
        have word : (text.takeWhile isLetter).map Char.toLower = "script".toList := by
          simpa using congrArg String.toList (Option.some.inj named)
        have size : (text.takeWhile isLetter).length = 6 := by simpa using congrArg List.length word
        refine ⟨text.takeWhile isLetter ++ [last], left, ?_, by simp [size], fun c member => ?_⟩
        · rw [List.append_assoc, List.singleton_append, ← after, List.takeWhile_append_dropWhile]
        · rcases List.mem_append.mp member with letter | same
          · have isLetter := List.mem_takeWhile_imp letter
            constructor <;> rintro rfl <;> exact absurd isLetter (by decide)
          · obtain rfl := List.mem_singleton.mp same
            constructor <;> rintro rfl <;> exact absurd ends (by decide)
      · cases named

/-- The text leaves a script open that is read from a state. -/
def ScriptState.StaysOpen : ScriptState → List Char → Prop
  | .plain, text => LeavesOpen text
  | .escaped dashes, text =>
      (¬ EndsComment (List.replicate dashes '-' ++ text) ∧ OpensScript text) ∨ LeavesOpen text
  | .doubleEscaped dashes, text =>
      ¬ EndsComment (List.replicate dashes '-' ++ text) ∨ LeavesOpen text

def ScriptState.Counted : ScriptState → Prop
  | .plain => True
  | .escaped dashes | .doubleEscaped dashes => dashes ≤ 2

/-! ## Reading -/

/-- Reading some characters of a text, which may not close the script, comes to a state. -/
structure Takes (element : Option String) (state : ScriptState) (text : List Char)
    (next : ScriptState) (left : List Char) : Prop where
  counted : next.Counted
  shorter : left.length < text.length
  suffix : left <:+ text
  staysOpen : state.StaysOpen text ↔ next.StaysOpen left
  read (more : List Char) : ∃ taken, text = taken ++ left ∧
    scriptText element state 0 (text ++ '<' :: more) =
      (taken ++ (scriptText element next 0 (left ++ '<' :: more)).1,
        (scriptText element next 0 (left ++ '<' :: more)).2)

theorem scriptText_skip (element : Option String) (state : ScriptState) (skipped rest : List Char) :
    scriptText element state skipped.length (skipped ++ rest) =
      (skipped ++ (scriptText element state 0 rest).1, (scriptText element state 0 rest).2) := by
  induction skipped with
  | nil => rfl
  | cons c skipped ih =>
      rw [List.length_cons, List.cons_append, scriptText, ih]
      rfl

theorem takes_of_ne {element : Option String} {state : ScriptState} (counted : state.Counted)
    (solid : c ≠ '<') (rest : List Char) :
    Takes element state (c :: rest) (state.after c) rest where
  counted := by
    cases state with
    | plain => trivial
    | escaped dashes | doubleEscaped dashes =>
        simp only [ScriptState.after]
        split_ifs <;> simp only [ScriptState.Counted] <;> omega
  shorter := Nat.lt_succ_self _
  suffix := List.suffix_cons c rest
  read more := by
    refine ⟨[c], rfl, ?_⟩
    rw [List.cons_append, scriptText, if_neg solid]
    rfl
  staysOpen := by
    cases state with
    | plain => exact leavesOpen_cons_of_ne solid
    | escaped dashes =>
        simp only [ScriptState.StaysOpen, leavesOpen_cons_of_ne solid, opensScript_cons_of_ne solid,
          ScriptState.after]
        split_ifs with dash ending
        · simp only [dash, endsComment_dash counted]
        · obtain ⟨rfl, rfl⟩ : c = '>' ∧ dashes = 2 := by simpa using ending
          have ends : EndsComment (List.replicate 2 '-' ++ '>' :: rest) := ⟨[], rest, rfl⟩
          simp only [ends, not_true_eq_false, false_and, false_or]
        · rw [endsComment_dashes counted dash (by simpa using ending)]
          rfl
    | doubleEscaped dashes =>
        simp only [ScriptState.StaysOpen, leavesOpen_cons_of_ne solid, ScriptState.after]
        split_ifs with dash ending
        · simp only [dash, endsComment_dash counted]
        · obtain ⟨rfl, rfl⟩ : c = '>' ∧ dashes = 2 := by simpa using ending
          have ends : EndsComment (List.replicate 2 '-' ++ '>' :: rest) := ⟨[], rest, rfl⟩
          simp only [ends, not_true_eq_false, false_or]
        · rw [endsComment_dashes counted dash (by simpa using ending)]
          rfl

/-- Whether a text starts with a word does not depend on what follows a character that is not in the
word. -/
theorem prefix_append_cons_iff {word : List Char} {c : Char} (absent : c ∉ word)
    (text more : List Char) : word <+: text ++ c :: more ↔ word <+: text := by
  induction word generalizing text with
  | nil => simp
  | cons first word ih =>
      obtain ⟨different, later⟩ : c ≠ first ∧ c ∉ word := by simpa using absent
      cases text with
      | nil => simp [List.cons_prefix_cons, different.symm]
      | cons other text => simp only [List.cons_append, List.cons_prefix_cons, ih later]

theorem take_three_eq_iff (text : List Char) :
    text.take 3 = ['!', '-', '-'] ↔ ['!', '-', '-'] <+: text := by
  rw [List.prefix_iff_eq_take, eq_comm]
  rfl

theorem head?_append_ne (plain : text.head? ≠ some '/') (more : List Char) :
    (text ++ '<' :: more).head? ≠ some '/' := by
  cases text with
  | nil => simp
  | cons c text => simpa using plain

theorem closes_of_ne (element : Option String) (plain : text.head? ≠ some '/') :
    closes element text = false := by
  unfold closes
  split
  · simp at plain
  · rfl

theorem afterOpen_doubleEscaped (dashes : Nat) (plain : text.head? ≠ some '/') :
    (ScriptState.doubleEscaped dashes).afterOpen text = (0, .doubleEscaped 0) := by
  unfold ScriptState.afterOpen
  dsimp only
  split
  · simp at plain
  · rfl

theorem takes_of_afterOpen {element : Option String} {state next : ScriptState}
    {skipped left : List Char} (split : rest = skipped ++ left)
    (step : ∀ more, state.afterOpen (rest ++ '<' :: more) = (skipped.length, next))
    (counted : next.Counted) (plain : rest.head? ≠ some '/')
    (staysOpen : state.StaysOpen ('<' :: rest) ↔ next.StaysOpen left) :
    Takes element state ('<' :: rest) next left where
  counted := counted
  shorter := by simp only [split, List.length_cons, List.length_append]; omega
  suffix := ⟨'<' :: skipped, by simp [split]⟩
  staysOpen := staysOpen
  read more := by
    refine ⟨'<' :: skipped, by simp [split], ?_⟩
    have stays := closes_of_ne element (head?_append_ne plain more)
    rw [List.cons_append, scriptText, if_pos rfl, stays, Bool.and_false, if_neg Bool.false_ne_true,
      step more]
    dsimp only
    rw [split, List.append_assoc, scriptText_skip]
    rfl

theorem exists_takes_of_open {element : Option String} {state : ScriptState}
    (counted : state.Counted) (plain : rest.head? ≠ some '/') :
    ∃ next left, Takes element state ('<' :: rest) next left := by
  cases state with
  | plain =>
      by_cases comment : ['!', '-', '-'] <+: rest
      · obtain ⟨left, rfl⟩ := comment
        refine ⟨.escaped 2, left, takes_of_afterOpen rfl (fun more => ?_) le_rfl plain ?_⟩
        · rw [ScriptState.afterOpen, if_pos ((take_three_eq_iff _).mpr (by simp))]
          rfl
        · have prefixed : ['!', '-', '-'] <+: ['!', '-', '-'] ++ left := List.prefix_append _ _
          have ends : EndsComment (['!', '-', '-'] ++ left) ↔
              EndsComment (List.replicate 2 '-' ++ left) := endsComment_cons_of_ne (by decide)
          have opens : OpensScript (['!', '-', '-'] ++ left) ↔ OpensScript left :=
            opensScript_append (by simp)
          have later : LeavesOpen (['!', '-', '-'] ++ left) ↔ LeavesOpen left :=
            leavesOpen_append (by simp)
          simp only [ScriptState.StaysOpen, leavesOpen_cons, prefixed, ends, opens, later, true_and]
      · refine ⟨.plain, rest,
          takes_of_afterOpen (List.nil_append rest).symm (fun more => ?_) trivial plain ?_⟩
        · exact if_neg fun same => comment <|
            (prefix_append_cons_iff (by decide) rest more).mp ((take_three_eq_iff _).mp same)
        · simp only [ScriptState.StaysOpen, leavesOpen_cons, comment, false_and, and_false,
            false_or]
  | escaped dashes =>
      by_cases named : nameAt? rest = some "script"
      · obtain ⟨taken, left, rfl, size, solid⟩ := exists_of_nameAt? named
        refine ⟨.doubleEscaped 0, left,
          takes_of_afterOpen rfl (fun more => ?_) (Nat.zero_le 2) plain ?_⟩
        · rw [size]
          exact if_pos ((nameAt?_append (by decide) (by decide) _ more).trans named)
        · have opens : OpensScript ('<' :: (taken ++ left)) :=
            opensScript_cons.mpr (.inl ⟨rfl, named⟩)
          have ends : EndsComment (List.replicate dashes '-' ++ '<' :: (taken ++ left)) ↔
              EndsComment left :=
            (endsComment_dashes counted (by decide) (by simp)).trans
              (endsComment_append fun c member => (solid c member).2)
          -- no comment starts at a script tag
          have later : LeavesOpen ('<' :: (taken ++ left)) ↔ LeavesOpen left := by
            rw [leavesOpen_cons, leavesOpen_append fun c member => (solid c member).1]
            exact or_iff_right fun comment => not_comment_of_nameAt? named comment.2.1
          simp only [ScriptState.StaysOpen, opens, ends, later, and_true, List.replicate_zero,
            List.nil_append]
      · refine ⟨.escaped 0, rest,
          takes_of_afterOpen (List.nil_append rest).symm (fun more => ?_) (Nat.zero_le 2) plain ?_⟩
        · exact if_neg fun same =>
            named ((nameAt?_append (by decide) (by decide) _ more).symm.trans same)
        · simp only [ScriptState.StaysOpen, opensScript_cons, named, leavesOpen_cons,
            endsComment_dashes counted (show '<' ≠ '-' by decide) (by simp), List.replicate_zero,
            List.nil_append, and_false, false_or, true_and]
          tauto
  | doubleEscaped dashes =>
      refine ⟨.doubleEscaped 0, rest,
        takes_of_afterOpen (List.nil_append rest).symm (fun more => ?_) (Nat.zero_le 2) plain ?_⟩
      · exact afterOpen_doubleEscaped dashes (head?_append_ne plain more)
      · simp only [ScriptState.StaysOpen,
          endsComment_dashes counted (show '<' ≠ '-' by decide) (by simp), leavesOpen_cons,
          List.replicate_zero, List.nil_append, true_and]
        tauto

theorem staysOpen_nil (state : ScriptState) : state.StaysOpen [] ↔ state.mayClose = false := by
  have solid (dashes : Nat) : ¬ EndsComment (List.replicate dashes '-' ++ []) := fun inside => by
    have member : '>' ∈ List.replicate dashes '-' ++ [] := inside.subset (by simp)
    simp [List.mem_replicate] at member
  cases state with
  | plain => simp [ScriptState.StaysOpen, ScriptState.mayClose, LeavesOpen]
  | escaped dashes =>
      simp [ScriptState.StaysOpen, ScriptState.mayClose, LeavesOpen, OpensScript]
  | doubleEscaped dashes => exact iff_of_true (.inl (solid dashes)) rfl

/-- A text without closing tags is read to its end. The closing tag that follows counts unless the
text leaves the script open. -/
theorem exists_scriptText (element : Option String) {state : ScriptState} (counted : state.Counted)
    (text : List Char) (plain : ¬ ['<', '/'] <:+: text) :
    ∃ last : ScriptState, (state.StaysOpen text ↔ last.mayClose = false) ∧
      ∀ more, scriptText element state 0 (text ++ '<' :: more) =
        (text ++ (scriptText element last 0 ('<' :: more)).1,
          (scriptText element last 0 ('<' :: more)).2) := by
  match text with
  | [] => exact ⟨state, staysOpen_nil state, fun _ => rfl⟩
  | c :: rest =>
      obtain ⟨next, left, takes⟩ : ∃ next left, Takes element state (c :: rest) next left := by
        by_cases opening : c = '<'
        · subst opening
          refine exists_takes_of_open counted fun slash => plain ?_
          obtain ⟨more, rfl⟩ := List.head?_eq_some_iff.mp slash
          exact ⟨[], more, rfl⟩
        · exact ⟨_, _, takes_of_ne counted opening rest⟩
      have shorter := takes.shorter
      obtain ⟨last, closes, read⟩ := exists_scriptText element takes.counted left
        fun inside => plain (inside.trans takes.suffix.isInfix)
      refine ⟨last, takes.staysOpen.trans closes, fun more => ?_⟩
      obtain ⟨taken, split, first⟩ := takes.read more
      rw [first, read more, ← List.append_assoc, ← split]
termination_by text.length
decreasing_by exact shorter

def closingScript : List Char := ['<', '/', 's', 'c', 'r', 'i', 'p', 't', '>']

theorem closes_script (rest : List Char) :
    closes (some "script") (['/', 's', 'c', 'r', 'i', 'p', 't', '>'] ++ rest) = true := by
  rfl

/-- A script whose text has no closing tags is not closed early. It is closed by the tag behind it
unless some comment in its text has an opening script tag and no end. -/
theorem scriptText_closingScript {text : List Char} (plain : ¬ ['<', '/'] <:+: text)
    (rest : List Char) :
    text <+: (scriptText (some "script") .plain 0 (text ++ (closingScript ++ rest))).1 ∧
      (scriptText (some "script") .plain 0 (text ++ (closingScript ++ rest)) =
        (text, closingScript ++ rest) ↔ ¬ LeavesOpen text) := by
  obtain ⟨last, closes, read⟩ :=
    exists_scriptText (some "script") (show ScriptState.plain.Counted from trivial) text plain
  have whole : scriptText (some "script") .plain 0 (text ++ (closingScript ++ rest)) =
      (text ++ (scriptText (some "script") last 0 (closingScript ++ rest)).1,
        (scriptText (some "script") last 0 (closingScript ++ rest)).2) := read _
  have leaves : LeavesOpen text ↔ last.mayClose = false := closes
  rw [whole, leaves]
  refine ⟨List.prefix_append _ _, ?_⟩
  cases counts : last.mayClose with
  | true =>
      have closed : scriptText (some "script") last 0 (closingScript ++ rest) =
          ([], closingScript ++ rest) := by
        rw [closingScript, List.cons_append, scriptText, if_pos rfl, counts, closes_script]
        rfl
      simp [closed]
  | false =>
      have missed : ∃ more left, scriptText (some "script") last 0 (closingScript ++ rest) =
          ('<' :: more, left) := by
        rw [closingScript, List.cons_append, scriptText, if_pos rfl, counts]
        exact ⟨_, _, rfl⟩
      obtain ⟨more, left, same⟩ := missed
      simp [same]

/-! ## Texts in front of others -/

/-- A character that is not in a word parts the places where the word may stand. -/
theorem infix_append_cons_iff {word : List Char} {c : Char} (absent : c ∉ word)
    (nonempty : word ≠ []) (text more : List Char) :
    word <:+: text ++ c :: more ↔ word <:+: text ∨ word <:+: more := by
  induction text with
  | nil =>
      have here : ¬ word <+: c :: more := fun start => by
        obtain ⟨first, word, rfl⟩ := List.exists_cons_of_ne_nil nonempty
        exact absent ((List.cons_prefix_cons.mp start).1 ▸ List.mem_cons_self)
      simp [List.infix_cons_iff, here, nonempty]
  | cons first text ih =>
      rw [List.cons_append, List.infix_cons_iff, List.infix_cons_iff, ih, ← List.cons_append,
        prefix_append_cons_iff absent, or_assoc]

/-- A text in front of one without comments and tags leaves a script open by itself. -/
theorem leavesOpen_append_calm {calm : List Char} (closed : '<' ∉ calm)
    (endless : ¬ EndsComment calm) (text : List Char) :
    LeavesOpen (text ++ ';' :: calm) ↔ LeavesOpen text := by
  have outside : ∀ c ∈ ';' :: calm, c ≠ '<' := by
    intro c member same
    subst same
    simp [closed] at member
  have opens (text : List Char) : OpensScript (text ++ ';' :: calm) ↔ OpensScript text := by
    induction text with
    | nil => simpa using @opensScript_append [] _ outside
    | cons c text ih =>
        rw [List.cons_append, opensScript_cons, opensScript_cons, ih,
          nameAt?_append (by decide) (by decide)]
  have ends (text : List Char) : EndsComment (text ++ ';' :: calm) ↔ EndsComment text :=
    (infix_append_cons_iff (by decide) (by decide) text calm).trans (or_iff_left endless)
  induction text with
  | nil => simpa using @leavesOpen_append [] _ outside
  | cons c text ih =>
      rw [List.cons_append, leavesOpen_cons, leavesOpen_cons, opens, ends,
        prefix_append_cons_iff (by decide)]
      exact or_congr_right ih

end ServerPages.Markup

import ServerPages.Proofs.Click.Cuts

/-!
# Rewriting click expressions

A replacer is asked for the text of each call in turn and may remember those before; numbering
the calls is one way to do so. The expression is cut in one way, the replacer is asked once for
each call of the cut, and nothing but the calls is replaced.

Calls should be those of a receiver named `server`. As they are found by their letters alone, so
are those of a receiver whose name ends in that word.
-/

namespace ServerPages.Click

variable {σ : Type}

/-! ## Replacers -/

def replaceEach (replacer : Call → StateM σ String) : List Piece → StateM σ (List Char)
  | [] => return []
  | .char c :: rest => do
      let others ← replaceEach replacer rest
      return c :: others
  | .call call :: rest => do
      let text ← replacer call
      let others ← replaceEach replacer rest
      return text.toList ++ others

def rewrite (expression : String) (replacer : Call → StateM σ String) : StateM σ String := do
  let chars ← replaceEach replacer (pieces expression.toList)
  return String.ofList chars

/-- The replacer that remembers how many calls there were. -/
def counting (replacement : Nat → Call → String) (call : Call) : StateM Nat String :=
  modifyGet fun number => (replacement number call, number + 1)

theorem run_replaceEach_counting (replacement : Nat → Call → String) (start : Nat)
    (parts : List Piece) :
    ((replaceEach (counting replacement) parts).run start).1 =
      replaceFrom replacement start parts := by
  induction parts generalizing start with
  | nil => rfl
  | cons part parts ih =>
      cases part with
      | char c => exact congrArg (c :: ·) (ih start)
      | call call => exact congrArg ((replacement start call).toList ++ ·) (ih (start + 1))

/-- Texts that go by number are those of a replacer that counts. -/
theorem replaceCalls_eq_rewrite (expression : String) (replacement : Nat → Call → String) :
    replaceCalls expression replacement =
      ((rewrite expression (counting replacement)).run 0).1 :=
  congrArg String.ofList (run_replaceEach_counting replacement 0 _).symm

section

variable (replacer : Call → StateM σ String)

theorem replaceEach_gap (gap : List Char) (parts : List Piece) :
    replaceEach replacer (gap.map .char ++ parts) =
      (replaceEach replacer parts >>= fun others => pure (gap ++ others)) := by
  induction gap with
  | nil => simp
  | cons c gap ih => simp [replaceEach, ih]

/-- The replacer is asked for each call of a cut in turn. -/
theorem replaceEach_pieces (cut : Cut) :
    replaceEach replacer cut.pieces =
      (cut.calls.mapM replacer >>= fun texts => pure (cut.fill texts)) := by
  induction cut with
  | last gap =>
      have whole := replaceEach_gap replacer gap []
      rw [List.append_nil] at whole
      simp [Cut.pieces, Cut.calls, Cut.spellings, Cut.fill, whole, replaceEach]
  | call gap spelling rest ih =>
      have calls : (Cut.call gap spelling rest).calls = spelling.call :: rest.calls := rfl
      rw [Cut.pieces, replaceEach_gap, replaceEach, ih, calls, List.mapM_cons]
      simp [Cut.fill]

end

def Cut.texts (cut : Cut) : List String :=
  cut.spellings.map fun spelling => String.ofList spelling.chars

theorem Cut.fill_texts (cut : Cut) : cut.fill cut.texts = cut.chars := by
  induction cut with
  | last gap => rfl
  | call gap spelling rest ih =>
      have texts : (Cut.call gap spelling rest).texts =
          String.ofList spelling.chars :: rest.texts := rfl
      rw [texts, Cut.fill, Cut.chars, String.toList_ofList, ih]

/-- An expression is rewritten along a cut. -/
structure RewrittenAlong (expression : String) (cut : Cut) : Prop where
  whole : cut.chars = expression.toList
  complete : cut.Complete
  only (other : Cut) (same : other.chars = expression.toList) (all : other.Complete) :
    other = cut
  /-- The replacer is asked once for each call, in order, and its answers take their places. -/
  asked (σ : Type) (replacer : Call → StateM σ String) :
    rewrite expression replacer =
      (cut.calls.mapM replacer >>= fun texts => pure (String.ofList (cut.fill texts)))
  numbered (replacement : Nat → Call → String) :
    replaceCalls expression replacement =
      ((rewrite expression (counting replacement)).run 0).1
  /-- A replacer that answers the calls as they are written changes nothing. -/
  givenBack (σ : Type) (replacer : Call → StateM σ String) (start : σ)
    (answers : ((cut.calls.mapM replacer).run start).1 = cut.texts) :
    ((rewrite expression replacer).run start).1 = expression
  /-- Without a written call no replacer is asked for anything. -/
  untouched (none : ∀ before (spelling : Spelling) after,
    expression.toList ≠ before ++ (spelling.chars ++ after))
    (σ : Type) (replacer : Call → StateM σ String) : rewrite expression replacer = pure expression

/-- Every expression is cut in one way into the calls that are replaced and the text between them,
which stays; wherever a written call starts, it starts within one of those. -/
theorem exists_rewrittenAlong (expression : String) : ∃ cut, RewrittenAlong expression cut := by
  obtain ⟨cut, whole, complete, inPieces⟩ := exists_cut expression.toList
  have asked (σ : Type) (replacer : Call → StateM σ String) : rewrite expression replacer =
      (cut.calls.mapM replacer >>= fun texts => pure (String.ofList (cut.fill texts))) := by
    rw [rewrite, ← inPieces, replaceEach_pieces]
    simp
  refine ⟨cut, whole, complete, fun other same all => ?_, asked,
    replaceCalls_eq_rewrite expression, ?givenBack, ?untouched⟩
  · exact Cut.eq_of_complete (same.trans whole.symm) all complete
  case givenBack =>
    intro σ replacer start answers
    rw [asked]
    change String.ofList (cut.fill ((cut.calls.mapM replacer).run start).1) = expression
    rw [answers, cut.fill_texts, whole, String.ofList_toList]
  case untouched =>
    intro none σ replacer
    have alone : cut = .last expression.toList := by
      refine Cut.eq_of_complete whole complete fun before spelling after same => ?_
      exact absurd same (none before spelling after)
    rw [asked, alone]
    simp [Cut.calls, Cut.spellings, Cut.fill, String.ofList_toList]

example : replaceCalls "if (ok()) server.go (1, x); server.$_2()" (fun _ call => call.method) =
    "if (ok()) go; $_2" := by
  decide +kernel

/-! ## Calls behind other characters -/

namespace Cut

variable {cut : Cut} {before after word : List Char} {c : Char} {place : Nat}

/-- No replaced call stands directly behind a character of a name. -/
def StandsAlone (cut : Cut) : Prop :=
  ∀ before c after, cut.chars = before ++ c :: after → cut.Starts (before.length + 1) →
    isNamePart c = false

theorem starts_or_covers (covers : cut.Covers (place + 1)) :
    cut.Starts (place + 1) ∨ cut.Covers place := by
  induction cut generalizing place with
  | last gap => exact covers.elim
  | call gap spelling rest ih =>
      have some := spelling.length_chars_pos
      simp only [Covers, Starts] at covers ⊢
      rcases covers with ⟨later, short⟩ | ⟨later, inner⟩
      · by_cases here : place + 1 = gap.length
        · exact Or.inl (Or.inl here)
        · exact Or.inr (Or.inl ⟨by omega, by omega⟩)
      · by_cases here : place + 1 = gap.length + spelling.chars.length
        · exact Or.inr (Or.inl ⟨by omega, by omega⟩)
        · have shift : place + 1 - (gap.length + spelling.chars.length) =
              place - (gap.length + spelling.chars.length) + 1 := by omega
          rw [shift] at inner ⊢
          rcases ih inner with starts | covers
          · exact Or.inl (Or.inr ⟨later, starts⟩)
          · exact Or.inr (Or.inr ⟨by omega, covers⟩)

/-- A place within a call is one of the text of that call. -/
theorem exists_of_covers (covers : cut.Covers place) :
    ∃ before spelling after, cut.chars = before ++ (Spelling.chars spelling ++ after) ∧
      before.length ≤ place := by
  induction cut generalizing place with
  | last gap => exact covers.elim
  | call gap spelling rest ih =>
      rcases covers with ⟨later, _⟩ | ⟨later, inner⟩
      · exact ⟨gap, spelling, rest.chars, rfl, later⟩
      · obtain ⟨before, other, after, same, bound⟩ := ih inner
        refine ⟨gap ++ (spelling.chars ++ before), other, after, by simp [chars, same], ?_⟩
        simp only [List.length_append]
        omega

theorem exists_of_starts (starts : cut.Starts place) :
    ∃ before spelling after, cut.chars = before ++ (Spelling.chars spelling ++ after) ∧
      before.length = place := by
  induction cut generalizing place with
  | last gap => exact starts.elim
  | call gap spelling rest ih =>
      rcases starts with rfl | ⟨later, inner⟩
      · exact ⟨gap, spelling, rest.chars, rfl, rfl⟩
      · obtain ⟨before, other, after, same, here⟩ := ih inner
        refine ⟨gap ++ (spelling.chars ++ before), other, after, by simp [chars, same], ?_⟩
        simp only [List.length_append]
        omega

/-- A call directly behind another stands behind its closing parenthesis. -/
theorem eq_of_covers_of_starts (same : cut.chars = before ++ c :: after)
    (covers : cut.Covers before.length) (starts : cut.Starts (before.length + 1)) : c = ')' := by
  induction cut generalizing before with
  | last gap => exact covers.elim
  | call gap spelling rest ih =>
      have whole : (gap ++ spelling.chars) ++ rest.chars = before ++ c :: after := by
        rw [List.append_assoc]
        exact same
      simp only [Covers, Starts] at covers starts
      by_cases ends : gap.length + spelling.chars.length = before.length + 1
      · obtain ⟨front, closed⟩ := spelling.exists_chars_eq_concat
        rw [List.append_cons] at whole
        have last := (List.append_inj whole (by simp [ends])).1
        rw [closed, ← List.append_assoc] at last
        exact (List.cons.inj (List.append_inj' last rfl).2).1.symm
      · have longer : gap.length + spelling.chars.length ≤ before.length := by omega
        obtain ⟨more, rfl⟩ : ∃ more, before = gap ++ spelling.chars ++ more := by
          have start := List.prefix_of_prefix_length_le ⟨_, rfl⟩ ⟨_, whole.symm⟩
            (by simpa using longer)
          exact start.imp fun _ => Eq.symm
        rw [List.append_assoc (gap ++ spelling.chars)] at whole
        refine ih (List.append_cancel_left whole) ?_ ?_
        · rcases covers with ⟨_, short⟩ | ⟨_, inner⟩
          · omega
          · have shift : (gap ++ spelling.chars ++ more).length -
                (gap.length + spelling.chars.length) = more.length := by
              simp only [List.length_append]
              omega
            rwa [shift] at inner
        · rcases starts with here | ⟨_, inner⟩
          · omega
          · have shift : (gap ++ spelling.chars ++ more).length + 1 -
                (gap.length + spelling.chars.length) = more.length + 1 := by
              simp only [List.length_append]
              omega
            rwa [shift] at inner

end Cut

/-- Within a word no call starts, whatever follows. -/
theorem eq_nil_of_spelling {word rest others : List Char} {spelling other : Spelling}
    (plain : '.' ∉ word)
    (same : word ++ (spelling.chars ++ rest) = other.chars ++ others) : word = [] := by
  have receiver_eq : receiver = ['s', 'e', 'r', 'v', 'e', 'r'] ++ ['.'] := rfl
  rw [spelling.chars_append, other.chars_append, receiver_eq, List.append_assoc,
    List.append_assoc, ← List.append_assoc word] at same
  have points := congrArg (Text.splitOnce '.') same
  rw [List.singleton_append, List.singleton_append,
    Text.splitOnce_append (by simp [plain]), Text.splitOnce_append (by simp)] at points
  have names := (Prod.mk.inj points).1
  exact List.self_eq_append_left.mp names.symm

/-- The replaced calls of an expression stand alone if and only if every written call behind a
character of a name is within another call. A word in front of the first call is not told from
its receiver. -/
theorem rewrites_alone_iff (expression : String) : ∃ cut : Cut,
    cut.chars = expression.toList ∧ cut.Complete ∧ cut.pieces = pieces expression.toList ∧
      (cut.StandsAlone ↔ ∀ before c (spelling : Spelling) after,
        expression.toList = before ++ c :: (spelling.chars ++ after) → isNamePart c = true →
          cut.Covers before.length) ∧
      ∀ word (spelling : Spelling) after, word ≠ [] → (∀ c ∈ word, isNamePart c = true) →
        expression.toList = word ++ (spelling.chars ++ after) →
          cut.Starts word.length ∧ ¬ cut.StandsAlone := by
  obtain ⟨cut, whole, complete, inPieces⟩ := exists_cut expression.toList
  refine ⟨cut, whole, complete, inPieces, ⟨fun alone => ?_, fun within => ?_⟩, ?_⟩
  · intro before c spelling after same part
    have covers := complete (before ++ [c]) spelling after (by rw [whole, same]; simp)
    rw [List.length_append, List.length_singleton] at covers
    rcases Cut.starts_or_covers covers with starts | covers
    · rw [alone before c _ (whole.trans same) starts] at part
      cases part
    · exact covers
  · intro before c after same starts
    obtain ⟨front, spelling, rest, written, here⟩ := Cut.exists_of_starts starts
    rw [Bool.eq_false_iff]
    intro part
    have behind : c :: after = c :: (spelling.chars ++ rest) := by
      rw [List.append_cons] at same
      exact congrArg (c :: ·) (List.append_inj (same.symm.trans written) (by simp [here])).2
    have covers := within before c spelling rest (by rw [← whole, same, behind]) part
    rw [Cut.eq_of_covers_of_starts same covers starts] at part
    cases part
  · intro word spelling after nonempty parts same
    obtain ⟨front, c, rfl⟩ : ∃ front c, word = front ++ [c] :=
      ⟨_, _, (List.dropLast_concat_getLast nonempty).symm⟩
    have covers := complete (front ++ [c]) spelling after (whole.trans same)
    rw [List.length_append, List.length_singleton] at covers ⊢
    have starts : cut.Starts (front.length + 1) := by
      refine (Cut.starts_or_covers covers).resolve_right fun earlier => ?_
      -- A call around the end of the word would start in the word.
      obtain ⟨before, other, rest, written, bound⟩ := Cut.exists_of_covers earlier
      have split : (front ++ [c]) ++ (spelling.chars ++ after) =
          before ++ (other.chars ++ rest) := same.symm.trans (whole.symm.trans written)
      obtain ⟨back, inside⟩ : before <+: front ++ [c] :=
        List.prefix_of_prefix_length_le ⟨_, rfl⟩ ⟨_, split⟩
          (by rw [List.length_append]; exact Nat.le_succ_of_le bound)
      rw [← inside, List.append_assoc] at split
      have plain : '.' ∉ back := fun member =>
        nomatch parts '.' (inside ▸ List.mem_append_right _ member)
      have nothing := eq_nil_of_spelling plain (List.append_cancel_left split)
      rw [nothing, List.append_nil] at inside
      rw [inside, List.length_append, List.length_singleton] at bound
      exact Nat.not_succ_le_self _ bound
    refine ⟨starts, fun alone => ?_⟩
    have other := alone front c (spelling.chars ++ after) (by rw [whole, same]; simp) starts
    rw [parts c (by simp)] at other
    cases other

/-- A method of `observer` is taken for one of `server`. -/
theorem rewrites_alone_observer : ∃ cut : Cut,
    cut.chars = "observer.disconnect()".toList ∧ cut.Complete ∧ cut.Starts 2 ∧
      ¬ cut.StandsAlone := by
  let spelling : Spelling :=
    ⟨⟨"disconnect", ""⟩, [], by decide, by decide, rfl, List.not_mem_nil⟩
  obtain ⟨cut, whole, complete, _, _, words⟩ := rewrites_alone_iff "observer.disconnect()"
  have parts : ['o', 'b'].all isNamePart = true := by decide
  obtain ⟨starts, behind⟩ :=
    words ['o', 'b'] spelling [] nofun (List.all_eq_true.mp parts) (by decide)
  exact ⟨cut, whole, complete, starts, behind⟩

end ServerPages.Click

import Mathlib.Data.List.TakeWhile
import ServerPages.Click.Call

/-!
# Server calls in click expressions

A server call is written as the word `server`, a point, a name, any number of blanks, and
a parenthesis that ends at the first closing one. What a text starts with is read as a call
exactly if it is written so, and then in one way only.

The calls of an expression that are replaced, and the text between them, make up the whole of it.
Wherever a written call starts, it starts within one of them, and there is one cut of that kind:
the calls are found from left to right, and none is missed.
-/

namespace ServerPages

namespace Text

theorem splitOnce_eq_some_iff {separator : Char} {chars before after : List Char} :
    splitOnce separator chars = (before, some after) ↔
      separator ∉ before ∧ chars = before ++ separator :: after := by
  constructor
  · intro found
    induction chars generalizing before with
    | nil => simp [splitOnce] at found
    | cons c rest ih =>
        simp only [splitOnce] at found
        split at found
        · rename_i here
          simp only [Prod.mk.injEq, Option.some.injEq] at found
          obtain ⟨rfl, rfl⟩ := found
          exact ⟨List.not_mem_nil, by rw [here]; rfl⟩
        · rename_i other
          simp only [Prod.mk.injEq] at found
          obtain ⟨rfl, later⟩ := found
          obtain ⟨absent, same⟩ := ih (Prod.ext rfl later)
          refine ⟨?_, congrArg (c :: ·) same⟩
          rw [List.mem_cons, not_or]
          exact ⟨Ne.symm other, absent⟩
  · rintro ⟨absent, rfl⟩
    exact splitOnce_append absent after

end Text

namespace Click

open Text

/-! ## Characters -/

/-- No blank is part of a name. -/
theorem isNamePart_eq_false_of_isBlank {c : Char} (blank : isBlank c = true) :
    isNamePart c = false := by
  have le_iff (d : Char) : d ≤ c ↔ d.toNat ≤ c.toNat := UInt32.le_iff_toNat_le
  have ge_iff (d : Char) : c ≤ d ↔ c.toNat ≤ d.toNat := UInt32.le_iff_toNat_le
  have eq_iff (d : Char) : c = d ↔ c.toNat = d.toNat := Char.toNat_inj.symm
  simp only [isBlank, Bool.or_eq_true, Bool.and_eq_true, beq_iff_eq, decide_eq_true_eq] at blank
  simp only [isNamePart, isNameStart, Bool.or_eq_false_iff, Bool.and_eq_false_iff,
    beq_eq_false_iff_ne, decide_eq_false_iff_not, ne_eq, le_iff, ge_iff, eq_iff]
  simp only [show 'a'.toNat = 97 by rfl, show 'z'.toNat = 122 by rfl, show 'A'.toNat = 65 by rfl,
    show 'Z'.toNat = 90 by rfl, show '_'.toNat = 95 by rfl, show '$'.toNat = 36 by rfl,
    show '0'.toNat = 48 by rfl, show '9'.toNat = 57 by rfl]
  omega

/-! ## Spellings -/

structure Spelling where
  call : Call
  blanks : List Char
  starts : call.method.toList.head?.any isNameStart = true
  named : call.method.toList.all isNamePart = true
  blank : blanks.all isBlank = true
  closed : ')' ∉ call.arguments.toList

namespace Spelling

def chars (spelling : Spelling) : List Char :=
  receiver ++ (spelling.call.method.toList ++ (spelling.blanks ++
    '(' :: (spelling.call.arguments.toList ++ [')'])))

theorem chars_append (spelling : Spelling) (rest : List Char) :
    spelling.chars ++ rest = receiver ++ (spelling.call.method.toList ++ (spelling.blanks ++
      '(' :: (spelling.call.arguments.toList ++ ')' :: rest))) := by
  simp [chars]

theorem length_chars_pos (spelling : Spelling) : 0 < spelling.chars.length := by
  simp [chars, receiver]

theorem exists_chars_eq_concat (spelling : Spelling) :
    ∃ front, spelling.chars = front ++ [')'] :=
  ⟨receiver ++ (spelling.call.method.toList ++ (spelling.blanks ++
    '(' :: spelling.call.arguments.toList)), by simp [chars]⟩

end Spelling

/-! ## Reading -/

theorem parenthesis?_eq_some_iff {chars arguments rest : List Char} :
    parenthesis? chars = some (arguments, rest) ↔
      ')' ∉ arguments ∧ chars = '(' :: (arguments ++ ')' :: rest) := by
  constructor
  · intro found
    unfold parenthesis? at found
    split at found
    · split at found
      · rename_i inside
        simp only [Option.some.injEq, Prod.mk.injEq] at found
        obtain ⟨rfl, rfl⟩ := found
        obtain ⟨absent, same⟩ := splitOnce_eq_some_iff.mp inside
        exact ⟨absent, congrArg ('(' :: ·) same⟩
      · cases found
    · cases found
  · rintro ⟨absent, rfl⟩
    rw [parenthesis?, splitOnce_append absent]

/-- A written call is read in front of any text. -/
theorem callAt?_spelling (spelling : Spelling) (rest : List Char) :
    callAt? (spelling.chars ++ rest) = some (spelling.call, rest) := by
  obtain ⟨⟨method, arguments⟩, blanks, starts, named, blank, closed⟩ := spelling
  rw [Spelling.chars_append]
  dsimp only at starts named blank closed ⊢
  have started := afterStart?_eq_some.mpr (Eq.refl (receiver ++ (method.toList ++
    (blanks ++ '(' :: (arguments.toList ++ ')' :: rest)))))
  rw [List.all_eq_true] at named blank
  -- The name ends in front of the first blank or, without blanks, of the parenthesis.
  have ends : ∀ tail : List Char,
      (blanks ++ '(' :: tail).takeWhile isNamePart = [] ∧
        (blanks ++ '(' :: tail).dropWhile isNamePart = blanks ++ '(' :: tail := by
    intro tail
    cases blanks with
    | nil => exact ⟨rfl, rfl⟩
    | cons c blanks =>
        have other := isNamePart_eq_false_of_isBlank (blank c List.mem_cons_self)
        rw [List.cons_append, List.takeWhile_cons, List.dropWhile_cons, other]
        exact ⟨rfl, rfl⟩
  obtain ⟨first, head, start⟩ : ∃ first, method.toList.head? = some first ∧
      isNameStart first = true := by
    cases head : method.toList.head? with
    | none => simp [head] at starts
    | some first => exact ⟨first, rfl, by simpa [head] using starts⟩
  have opened : dropBlank (blanks ++ '(' :: (arguments.toList ++ ')' :: rest)) =
      '(' :: (arguments.toList ++ ')' :: rest) := by
    rw [dropBlank, List.dropWhile_append_of_pos blank]
    rfl
  have inner := parenthesis?_eq_some_iff.mpr
    ⟨closed, Eq.refl ('(' :: (arguments.toList ++ ')' :: rest))⟩
  unfold callAt?
  rw [started]
  simp only [Option.bind_eq_bind, Option.bind_some, List.takeWhile_append_of_pos named,
    List.dropWhile_append_of_pos named, (ends _).1, (ends _).2, List.append_nil, head, start,
    if_true, opened, inner, String.ofList_toList]
  rfl

/-- What is read as a call is written as one. -/
theorem exists_spelling_of_callAt? {chars rest : List Char} {call : Call}
    (found : callAt? chars = some (call, rest)) :
    ∃ spelling : Spelling, spelling.call = call ∧ chars = spelling.chars ++ rest := by
  simp only [callAt?, Option.bind_eq_bind, Option.bind_eq_some_iff] at found
  obtain ⟨after, started, first, head, found⟩ := found
  split at found
  · rename_i start
    simp only [Option.bind_eq_some_iff, Prod.exists] at found
    obtain ⟨arguments, tail, inner, same⟩ := found
    simp only [pure, Option.some.injEq, Prod.mk.injEq] at same
    obtain ⟨rfl, rfl⟩ := same
    obtain ⟨closed, inner⟩ := parenthesis?_eq_some_iff.mp inner
    have name := List.takeWhile_append_dropWhile (p := isNamePart) (l := after)
    have blanks := List.takeWhile_append_dropWhile (p := isBlank)
      (l := after.dropWhile isNamePart)
    refine ⟨⟨⟨String.ofList (after.takeWhile isNamePart), String.ofList arguments⟩,
      (after.dropWhile isNamePart).takeWhile isBlank, ?_, ?_, ?_, ?_⟩, rfl, ?_⟩
    · simp [head, start]
    · rw [String.toList_ofList, List.all_eq_true]
      exact fun c member => List.mem_takeWhile_imp member
    · rw [List.all_eq_true]
      exact fun c member => List.mem_takeWhile_imp member
    · rw [String.toList_ofList]
      exact closed
    · rw [Spelling.chars_append, afterStart?_eq_some.mp started]
      simp only [String.toList_ofList]
      rw [← inner, dropBlank, blanks, name]
  · cases found

/-- A text starts with one written call at most. -/
theorem Spelling.unique {first second : Spelling} {rest others : List Char}
    (same : first.chars ++ rest = second.chars ++ others) : first = second ∧ rest = others := by
  have reads := (callAt?_spelling first rest).symm.trans
    ((congrArg callAt? same).trans (callAt?_spelling second others))
  simp only [Option.some.injEq, Prod.mk.injEq] at reads
  obtain ⟨call, rfl⟩ := reads
  have chars := List.append_cancel_right same
  obtain ⟨call, blanks, _, _, _, _⟩ := first
  obtain ⟨_, others, _, _, _, _⟩ := second
  cases call
  simp only [Spelling.chars] at chars
  have blanks := List.append_cancel_right (List.append_cancel_left (List.append_cancel_left chars))
  cases blanks
  exact ⟨rfl, rfl⟩

/-! ## Cuts -/

/-- The calls of an expression with the text in front of each, and the text behind the last. -/
inductive Cut
  | last (gap : List Char)
  | call (gap : List Char) (spelling : Spelling) (rest : Cut)

namespace Cut

def chars : Cut → List Char
  | .last gap => gap
  | .call gap spelling rest => gap ++ (spelling.chars ++ rest.chars)

def spellings : Cut → List Spelling
  | .last _ => []
  | .call _ spelling rest => spelling :: rest.spellings

def calls (cut : Cut) : List Call :=
  cut.spellings.map (·.call)

def pieces : Cut → List Piece
  | .last gap => gap.map .char
  | .call gap spelling rest => gap.map .char ++ .call spelling.call :: rest.pieces

/-- The expression with texts in place of the calls, in order. -/
def fill : Cut → List String → List Char
  | .last gap, _ => gap
  | .call gap _ rest, [] => gap ++ rest.fill []
  | .call gap _ rest, text :: texts => gap ++ (text.toList ++ rest.fill texts)

def Starts : Cut → Nat → Prop
  | .last _, _ => False
  | .call gap spelling rest, place =>
      place = gap.length ∨ gap.length + spelling.chars.length ≤ place ∧
        rest.Starts (place - (gap.length + spelling.chars.length))

def Covers : Cut → Nat → Prop
  | .last _, _ => False
  | .call gap spelling rest, place =>
      gap.length ≤ place ∧ place < gap.length + spelling.chars.length ∨
        gap.length + spelling.chars.length ≤ place ∧
          rest.Covers (place - (gap.length + spelling.chars.length))

/-- Wherever a written call starts, it starts within one of the calls. -/
def Complete (cut : Cut) : Prop :=
  ∀ before (spelling : Spelling) after,
    cut.chars = before ++ (spelling.chars ++ after) → cut.Covers before.length

def lead (c : Char) : Cut → Cut
  | .last gap => .last (c :: gap)
  | .call gap spelling rest => .call (c :: gap) spelling rest

section

variable (c : Char) (cut : Cut)

theorem chars_lead : (cut.lead c).chars = c :: cut.chars := by
  cases cut <;> rfl

theorem pieces_lead : (cut.lead c).pieces = .char c :: cut.pieces := by
  cases cut <;> rfl

theorem covers_lead_succ {place : Nat} : (cut.lead c).Covers (place + 1) ↔ cut.Covers place := by
  cases cut with
  | last gap => rfl
  | call gap spelling rest =>
      have shift : place + 1 - (gap.length + 1 + spelling.chars.length) =
          place - (gap.length + spelling.chars.length) := by omega
      simp only [lead, Covers, List.length_cons, shift]
      refine or_congr ?_ (and_congr_left fun _ => ?_)
      · omega
      · omega

end

/-! ## Calls that start within calls -/

theorem Complete.rest {gap : List Char} {spelling : Spelling} {rest : Cut}
    (complete : (call gap spelling rest).Complete) : rest.Complete := by
  intro before other after same
  have covers := complete (gap ++ (spelling.chars ++ before)) other after (by simp [chars, same])
  simp only [Covers, List.length_append] at covers
  rcases covers with ⟨_, short⟩ | ⟨_, inner⟩
  · omega
  · have here : gap.length + (spelling.chars.length + before.length) -
        (gap.length + spelling.chars.length) = before.length := by omega
    rwa [here] at inner

/-- An expression has one complete cut at most. -/
theorem eq_of_complete {first second : Cut} (same : first.chars = second.chars)
    (left : first.Complete) (right : second.Complete) : first = second := by
  induction first generalizing second with
  | last gap =>
      cases second with
      | last other => exact congrArg last same
      | call other spelling rest => exact (left other spelling rest.chars same).elim
  | call gap spelling rest ih =>
      cases second with
      | last other => exact (right gap spelling rest.chars same.symm).elim
      | call other spelling' rest' =>
          -- Each of the first two calls starts no earlier than the other.
          have later := left other spelling' rest'.chars same
          have earlier := right gap spelling rest.chars same.symm
          have length : gap.length = other.length := by
            have some := spelling.length_chars_pos
            have some' := spelling'.length_chars_pos
            simp only [Covers] at later earlier
            omega
          obtain ⟨rfl, tails⟩ := List.append_inj same length
          obtain ⟨rfl, inner⟩ := Spelling.unique tails
          rw [ih inner left.rest right.rest]

end Cut

/-! ## The cut that is made -/

theorem callAt?_ne_none {chars after : List Char} {spelling : Spelling}
    (same : chars = spelling.chars ++ after) : callAt? chars ≠ none := by
  rw [same, callAt?_spelling]
  exact nofun

/-- The pieces of an expression are those of a complete cut. -/
theorem exists_cut (chars : List Char) :
    ∃ cut : Cut, cut.chars = chars ∧ cut.Complete ∧ cut.pieces = pieces chars := by
  fun_induction pieces chars with
  | case1 =>
      refine ⟨.last [], rfl, fun before spelling after same => ?_, rfl⟩
      have length := congrArg List.length same
      have some := spelling.length_chars_pos
      simp only [Cut.chars, List.length_nil, List.length_append] at length
      omega
  | case2 c rest call after found ih =>
      obtain ⟨spelling, rfl, whole⟩ := exists_spelling_of_callAt? found
      obtain ⟨cut, same, complete, inPieces⟩ := ih
      refine ⟨.call [] spelling cut, by rw [whole, ← same]; rfl, ?_, by rw [← inPieces]; rfl⟩
      intro before other tail split
      have split : spelling.chars ++ cut.chars = before ++ (other.chars ++ tail) := split
      by_cases within : before.length < spelling.chars.length
      · exact Or.inl ⟨Nat.zero_le _, by simpa using within⟩
      · obtain ⟨more, rfl⟩ : ∃ more, before = spelling.chars ++ more := by
          have longer := Nat.le_of_not_lt within
          have start := List.prefix_of_prefix_length_le ⟨_, rfl⟩ ⟨_, split.symm⟩ longer
          exact start.imp fun _ => Eq.symm
        have inner := complete more other tail (by simpa using split)
        refine Or.inr ⟨by simp, ?_⟩
        simpa using inner
  | case3 c rest absent ih =>
      obtain ⟨cut, same, complete, inPieces⟩ := ih
      refine ⟨cut.lead c, by rw [Cut.chars_lead, same], ?_, by rw [Cut.pieces_lead, inPieces]⟩
      intro before spelling after split
      rw [Cut.chars_lead, same] at split
      cases before with
      | nil => exact absurd absent (callAt?_ne_none split)
      | cons d before =>
          obtain ⟨_, split⟩ := List.cons.inj split
          rw [List.length_cons, Cut.covers_lead_succ]
          exact complete before spelling after (same.trans split)

end Click

end ServerPages

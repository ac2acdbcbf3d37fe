import ServerPages.Proofs.Markup.Enclosing

/-!
# Elements that are not HTML

Within SVG and MathML an opening tag opens an element of the same vocabulary, unless it is one that
ends all that is not HTML. The closing tag names the latest open element up to capitals, which tags
do not keep and SVG gives back.
-/

namespace ServerPages.Markup.Construction

open Text (equalUpToCase equalUpToCase_refl)

variable {b : Construction} {setting : Setting} {area : Area} {mode : Mode} {label : Label}
  {path : List Label} {top : NodeId} {below : List NodeId} {data : Element}
  {vocabulary : Vocabulary} {tag : Tag}

/-! ## Names up to capitals -/

theorem toLower_toLower (c : Char) : c.toLower.toLower = c.toLower := by
  unfold Char.toLower
  split
  · rename_i upper
    rw [dif_neg]
    simp only [ge_iff_le, UInt32.le_iff_toNat_le] at upper ⊢
    simp at upper ⊢
    omega
  · rfl

theorem equalUpToCase_toLower (text : String) : equalUpToCase text text.toLower = true := by
  have twice : Char.toLower ∘ Char.toLower = Char.toLower := funext toLower_toLower
  change (text.map Char.toLower == (text.map Char.toLower).map Char.toLower) = true
  rw [String.map_map, twice]
  exact beq_self_eq_true _

/-- A tag names an element as it was written up to capitals. -/
theorem Spelled.equalUpToCase (spelled : Spelled vocabulary data) :
    equalUpToCase data.name (keptName data.name.toList) = true := by
  have given := spelled.name
  generalize keptName data.name.toList = kept at given
  rw [← given]
  cases vocabulary with
  | html | math => exact equalUpToCase_refl kept
  | svg =>
      rw [Vocabulary.elementName, withCapitals]
      cases found : svgElementNames.find? fun written => decide (written.toLower = kept) with
      | none => exact equalUpToCase_refl kept
      | some written =>
          obtain rfl := of_decide_eq_true (List.find?_some (p := fun written : String =>
            decide (written.toLower = kept)) found)
          exact equalUpToCase_toLower written

/-! ## Tags -/

theorem openForeign_eq (place : b.place = .last top) (foreign : vocabulary ≠ .html) (name : String)
    (opened : tag.selfClosing = false) :
    b.openForeign vocabulary name tag =
      b.enter top vocabulary name (vocabulary.attributes tag.attributes) := by
  rw [openForeign, opened, Bool.not_false, (insert_eq place (fun html => foreign html.1) _).1]

theorem closeWithin_eq {id : NodeId} {below : List NodeId} (known : b.label? id = some label)
    (more : below ≠ []) (named : equalUpToCase label.2 tag.name = true) :
    b.closeWithin tag true (id :: below) = (b.leave below).done := by
  rw [closeWithin, known]
  · dsimp only
    rw [Bool.not_true, Bool.false_and, if_neg Bool.false_ne_true, if_pos named]
    rfl
  · exact more

/-! ## Annotations -/

theorem text_eq_iff {name : Name} {written : String} (solid : ':' ∉ written.toList) :
    name.text = written ↔ name = .plain written := by
  obtain ⟨qualifier, localName⟩ := name
  cases qualifier with
  | none => simp [Name.text, Name.plain]
  | some qualifier =>
      have other : qualifier ++ ":" ++ localName ≠ written := by
        rintro rfl
        simp at solid
      simp [Name.text, Name.plain, other]

/-- What the attributes of an annotation say can be seen from how they are written. -/
theorem annotatesHtml_eq {attributes : List Attribute}
    (pairs : attributes.map (fun item => (item.name.text, item.value)) = data.attributes) :
    annotatesHtml attributes = Area.holdsHtml data := by
  have named (name : Name) : (name.text = "encoding") = (name = .plain "encoding") :=
    propext (text_eq_iff (by decide))
  rw [Area.holdsHtml, ← pairs, List.any_map]
  simp only [annotatesHtml, Function.comp_def, named]

/-! ## Elements -/

/-- An element that is not HTML is opened by its tag, whatever area it is read as. -/
theorem encloses_enter (stands : b.Stands setting mode (label :: path))
    (puts : b.PutsIn top) (spelled : Spelled vocabulary data)
    (foreign : vocabulary ≠ .html) (held : area.isHeldBy (vocabulary, data.name) = true)
    (reads : area.IsReadIn setting.modes ((vocabulary, data.name) :: label :: path) mode)
    (means : isNote (vocabulary, data.name) = true → Area.holdsHtml data = (area == .flow))
    (calm : ["br", "p"].contains (closingTag data).name = false)
    (opening : b.attend.applied (.tag (openingTag data)) = (b.attend.enter top vocabulary data.name
      (vocabulary.attributes (openingTag data).attributes)).done) :
    ∃ next, Encloses setting area top vocabulary data (label :: path) b next := by
  have html (names : List String) : Label.isIn names (vocabulary, data.name) = false := by
    cases vocabulary with
    | html => exact absurd rfl foreign
    | svg | math => rfl
  let next : Construction := b.attend.enter top vocabulary data.name
    (vocabulary.attributes (openingTag data).attributes)
  have opens : Opens setting top vocabulary data b next :=
    (opens_enter stands.attend.idle top spelled).of_attend
  have within := stands.inside (stands.has_spot puts) opens (.same (html _))
    (fun outside => stands.form fun inside => outside (List.mem_cons_of_mem _ inside)) (html _)
  have annotates (note : isNote (vocabulary, data.name) = true) :
      next.stack.head?.map next.annotatesHtmlAt = some (area == .flow) := by
    have kind : next.forest.kind? ⟨b.forest.size⟩ = some (.element vocabulary data.name
        (vocabulary.attributes (openingTag data).attributes) none) := Forest.kind?_sprout_new _ _
    change some (next.annotatesHtmlAt ⟨b.forest.size⟩) = _
    rw [annotatesHtmlAt, kind]
    exact congrArg some ((annotatesHtml_eq spelled.attributes).trans (means note))
  refine ⟨next, opening, opens, ⟨within, held, ?_, fun template => ?_, annotates⟩,
    fun drops => absurd drops Bool.false_ne_true, fun inner within => ?_⟩
  · change area.IsReadIn _ _ b.mode
    rw [stands.mode]
    exact reads
  · exact absurd (Prod.mk.inj template).1 foreign
  · have inStack : inner.attend.stack = ⟨b.forest.size⟩ :: b.stack := within.stack
    have known := within.attend.standsIn.stands.top_label? inStack
    have rule : inner.attend.ruleForeign (.tag (closingTag data)) =
        (inner.attend.leave b.stack).done := by
      have more : b.stack ≠ [] := by
        obtain ⟨id, below, stack, _⟩ := puts
        rw [stack]
        exact List.cons_ne_nil _ _
      have stays : breaksOut (closingTag data) = false := by
        simp only [breaksOut, Tag.ends, calm]
        rfl
      rw [ruleForeign]
      dsimp only
      rw [stays, if_neg Bool.false_ne_true, if_pos (show (closingTag data).closing = true from rfl),
        inStack, closeWithin_eq known more spelled.equalUpToCase]
    rw [within.attend.standsIn.stands.applied_of_foreign foreign (.inr ⟨_, rfl, rfl⟩), rule]
    exact ⟨_, rfl, { within.attend.standsIn.stands.idle with }, rfl,
      within.attend.standsIn.stands.mode, rfl, within.form, within.fades, rfl⟩

/-- The tags of an element that starts another vocabulary, where the rules of the mode are for
them. -/
theorem encloses_start (stands : b.Stands setting mode (label :: path)) (puts : b.PutsIn top)
    (flows : flowMode setting.modes (label :: path) = some mode) (spelled : Spelled vocabulary data)
    (role : Role.of data.name = .foreign vocabulary)
    (ruled : b.attend.applied (.tag (openingTag data)) =
      b.attend.rule mode (.tag (openingTag data))) :
    ∃ next, Encloses setting .foreign top vocabulary data (label :: path) b next := by
  have place := stands.attend.place puts
  have among := Role.mem_names role nofun
  have foreign : vocabulary ≠ .html := by
    rintro rfl
    cases among
  have reads : flowMode setting.modes ((vocabulary, data.name) :: label :: path) = some mode :=
    (flowMode_foreign foreign _ _ _).trans flows
  have entered :
      b.attend.openForeign vocabulary data.name (openingTag data) =
        b.attend.enter top vocabulary data.name
          (vocabulary.attributes (openingTag data).attributes) :=
    openForeign_eq place foreign data.name rfl
  cases vocabulary with
  | html => exact absurd rfl foreign
  | svg | math =>
      have named := List.mem_singleton.mp among
      have kept : keptName data.name.toList = data.name := by
        rw [named]
        decide
      refine encloses_enter stands puts spelled foreign ?_ reads (fun note => ?_) ?_ ?_
      · rw [named]
        rfl
      · rw [named] at note
        cases note
      · rw [closingTag, kept, named]
        rfl
      · have opened : (openingTag data).name = data.name := kept
        rw [ruled, rule_flow_opening flows rfl (by rw [opened, named]; rfl), ← entered]
        rw [openingTag, kept, named]
        rfl

/-- The tags of an element that starts another vocabulary where HTML flows. -/
theorem StandsIn.encloses_vocabulary (stands : b.StandsIn setting .flow mode label path)
    (puts : b.PutsIn top) (spelled : Spelled vocabulary data)
    (role : Role.of data.name = .foreign vocabulary) :
    ∃ next, Encloses setting .foreign top vocabulary data (label :: path) b next := by
  refine encloses_start stands.stands puts stands.reads spelled role ?_
  have among := Role.mem_names role nofun
  have named : ["malignmark", "mglyph"].contains (keptName data.name.toList) = false := by
    cases vocabulary with
    | html => cases among
    | svg | math =>
        rw [List.mem_singleton.mp among]
        decide
  exact stands.attend.applied_open rfl fun _ => named

/-- The tags of an element that falls under the rules of another vocabulary. -/
theorem encloses_within (stands : b.Stands setting mode (label :: path)) (puts : b.PutsIn top)
    (flows : flowMode setting.modes (label :: path) = some mode) (foreign : label.1 ≠ .html)
    (spelled : Spelled label.1 data) (calm : breaksOut (openingTag data) = false)
    (ruled : b.attend.applied (.tag (openingTag data)) =
      b.attend.ruleForeign (.tag (openingTag data))) :
    ∃ next, Encloses setting (.within label.1 data) top label.1 data (label :: path) b next := by
  obtain ⟨vocabulary, name⟩ := label
  have place := stands.attend.place puts
  have reads : flowMode setting.modes ((vocabulary, data.name) :: (vocabulary, name) :: path) =
      some mode := (flowMode_foreign foreign _ _ _).trans flows
  have plain
      (noPoint :
        ¬ (isMathTextPoint vocabulary data.name || isSvgPoint vocabulary data.name) = true) :
      isPoint (vocabulary, data.name) = false :=
    Bool.eq_false_iff.mpr noPoint
  refine encloses_enter stands puts spelled foreign ?_ ?_ ?_ ?_ ?_
  · unfold Area.within
    split
    · rename_i point
      simp only [Area.isHeldBy, isPoint, point, Bool.or_true, Bool.true_or]
    · rename_i noPoint
      split
      · rename_i note
        rw [note]
        split <;> rfl
      · rename_i other
        simp [Area.isHeldBy, plain noPoint, isNote, other, foreign]
  · unfold Area.within
    split
    · exact reads
    · split
      · split <;> exact reads
      · exact reads
  · intro note
    obtain ⟨rfl, named⟩ := Prod.mk.inj (eq_of_beq note)
    rw [Area.within, named]
    cases Area.holdsHtml data <;> rfl
  · simp only [breaksOut, Bool.or_eq_false_iff] at calm
    have absent : breakoutNames.contains (openingTag data).name = false := by
      simpa [Tag.opens, openingTag] using calm.1.1
    exact contains_eq_false absent rfl
  · obtain ⟨id, below, stack, _⟩ := puts
    have inside : b.attend.foreignLabel? = some (id, vocabulary, name) := by
      rw [stands.attend.foreignLabel?_eq stack, if_neg foreign]
    have named : vocabulary.elementName (openingTag data).name = data.name := spelled.name
    rw [ruled, ruleForeign]
    dsimp only
    rw [calm, if_neg Bool.false_ne_true,
      if_neg (show (openingTag data).closing ≠ true from Bool.false_ne_true),
      openWithin, inside]
    dsimp only
    rw [named, openForeign_eq place foreign _ rfl]

end ServerPages.Markup.Construction

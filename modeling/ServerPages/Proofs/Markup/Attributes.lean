import Mathlib.Data.List.Nodup
import ServerPages.Markup.Construction.State

/-!
# Attributes of one name

Of attributes with one name a tag keeps the first. Elements that are not HTML get some names with
capitals or in two parts; a name that is not among those comes from no other, and an element has
it once at most.
-/

namespace ServerPages.Markup

/-! ## Tags -/

def Tag.Distinct (tag : Tag) : Prop :=
  (tag.attributes.map (·.1)).Nodup

def Token.Distinct : Token → Prop
  | .tag data => data.Distinct
  | _ => True

theorem Tag.distinct_opening (name : String) : (Tag.opening name).Distinct :=
  List.nodup_nil

theorem nodup_addAttribute {attributes : List (String × String)}
    (distinct : (attributes.map (·.1)).Nodup) (name value : String) :
    ((addAttribute attributes name value).map (·.1)).Nodup := by
  unfold addAttribute
  split
  · exact distinct
  · rename_i new
    rw [List.map_append, List.nodup_append]
    refine ⟨distinct, List.pairwise_singleton _ name, ?_⟩
    rintro old member other same rfl
    obtain ⟨item, among, rfl⟩ := List.mem_map.mp member
    refine new (List.any_eq_true.mpr ⟨item, among, ?_⟩)
    rw [decide_eq_true_eq]
    exact List.mem_singleton.mp same

/-- Reading the attributes of a tag, each is kept if its name is new. -/
theorem nodup_attributesFrom (steps : Nat) {attributes kept : List (String × String)}
    (distinct : (attributes.map (·.1)).Nodup) {selfClosing : Bool} {chars rest : List Char}
    (read : attributesFrom steps attributes chars = (some (kept, selfClosing), rest)) :
    (kept.map (·.1)).Nodup := by
  induction steps generalizing attributes chars with
  | zero =>
      rw [attributesFrom] at read
      cases read
  | succ steps ih =>
      cases chars with
      | nil =>
          rw [attributesFrom] at read
          cases read
      | cons c after =>
          unfold attributesFrom at read
          dsimp only at read
          split at read
          · exact ih distinct read
          · split at read
            · cases read
              exact distinct
            · split at read
              · split at read
                · cases read
                  exact distinct
                · exact ih distinct read
              · split at read
                · split at read
                  · exact ih (nodup_addAttribute distinct _ _) read
                  · cases read
                · exact ih (nodup_addAttribute distinct _ _) read

theorem distinct_scanTag (closing : Bool) (chars : List Char) :
    ∀ token ∈ (scanTag closing chars).1, token.Distinct := by
  unfold scanTag
  dsimp only
  split
  · rename_i attributes _ _ read
    split
    · rintro _ (_ | ⟨_, ⟨⟩⟩)
      exact List.nodup_nil
    · rintro _ (_ | ⟨_, ⟨⟩⟩)
      have start : (([] : List (String × String)).map (·.1)).Nodup := List.nodup_nil
      exact nodup_attributesFrom _ start read
  · exact nofun

theorem Token.distinct_ofChars (chars : List Char) :
    ∀ token ∈ Token.ofChars chars, token.Distinct := by
  induction chars with
  | nil => exact nofun
  | cons c rest ih =>
      change ∀ token ∈ Token.consChar c (Token.ofChars rest), token.Distinct
      unfold Token.consChar
      split
      · exact List.forall_mem_cons.mpr ⟨trivial, ih⟩
      · split
        · split
          · rename_i same
            rw [same] at ih
            exact List.forall_mem_cons.mpr ⟨trivial, (List.forall_mem_cons.mp ih).2⟩
          · exact List.forall_mem_cons.mpr ⟨trivial, ih⟩
        · split
          · rename_i same
            rw [same] at ih
            exact List.forall_mem_cons.mpr ⟨trivial, (List.forall_mem_cons.mp ih).2⟩
          · exact List.forall_mem_cons.mpr ⟨trivial, ih⟩

theorem Token.distinct_ofRun (run : List Char) : ∀ token ∈ Token.ofRun run, token.Distinct := by
  unfold Token.ofRun
  split
  · exact nofun
  · exact List.forall_mem_singleton.mpr trivial

theorem distinct_scanDeclaration (foreign : Bool) (chars : List Char) :
    ∀ token ∈ (scanDeclaration foreign chars).1, token.Distinct := by
  unfold scanDeclaration
  split
  · exact List.forall_mem_singleton.mpr trivial
  · split
    · exact List.forall_mem_singleton.mpr trivial
    · split
      · split
        · exact Token.distinct_ofChars _
        · exact List.forall_mem_singleton.mpr trivial
      · exact List.forall_mem_singleton.mpr trivial

theorem distinct_scanAfterOpen (foreign : Bool) (chars : List Char) :
    ∀ token ∈ (scanAfterOpen foreign chars).1, token.Distinct := by
  unfold scanAfterOpen
  split
  · exact List.forall_mem_singleton.mpr trivial
  · exact distinct_scanDeclaration foreign _
  · split
    · exact List.forall_mem_singleton.mpr trivial
    · split
      · exact List.forall_mem_nil _
      · split
        · exact distinct_scanTag true _
        · exact List.forall_mem_singleton.mpr trivial
  · split
    · exact List.forall_mem_singleton.mpr trivial
    · split
      · exact distinct_scanTag false _
      · exact List.forall_mem_singleton.mpr trivial

theorem distinct_withClosing (parts : List Char × List Char) :
    ∀ token ∈ (withClosing parts).1, token.Distinct := by
  unfold withClosing
  split
  · exact List.forall_mem_append.mpr
      ⟨Token.distinct_ofRun _, distinct_scanAfterOpen false _⟩
  · exact Token.distinct_ofRun _

/-- Whatever a text is, its tags have attributes of different names. -/
theorem distinct_scan (content : Content) (element : Option String) (foreign : Bool)
    (chars : List Char) : ∀ token ∈ (scan content element foreign chars).1, token.Distinct := by
  cases content with
  | markup =>
      change ∀ token ∈ (scanMarkup foreign chars).1, token.Distinct
      unfold scanMarkup
      split
      · exact distinct_scanAfterOpen foreign _
      · exact Token.distinct_ofChars _
  | escapable | raw | script => exact distinct_withClosing _
  | endless => exact Token.distinct_ofRun _

/-! ## Elements -/

/-- A name in one part that is the same in every vocabulary. -/
structure Unadjusted (name : String) : Prop where
  svg : name ∉ svgAttributeNames
  math : name ∉ ["definitionURL"]
  onePart : ':' ∉ name.toList

instance (name : String) : Decidable (Unadjusted name) :=
  decidable_of_iff (name ∉ svgAttributeNames ∧ name ∉ ["definitionURL"] ∧ ':' ∉ name.toList)
    ⟨fun ⟨svg, math, onePart⟩ => ⟨svg, math, onePart⟩,
      fun ⟨svg, math, onePart⟩ => ⟨svg, math, onePart⟩⟩

/-- Each name that is the same in every vocabulary is the name of one of the attributes at most. -/
def Once (attributes : List Attribute) : Prop :=
  ∀ name, Unadjusted name → (attributes.map (·.name)).count (.plain name) ≤ 1

theorem withCapitals_eq {names : List String} {name raw : String} (absent : name ∉ names)
    (same : withCapitals names raw = name) : raw = name := by
  unfold withCapitals at same
  cases found : names.find? fun written => written.toLower = raw with
  | none =>
      rw [found] at same
      exact same
  | some written =>
      rw [found] at same
      cases same
      exact absurd (List.mem_of_find?_eq_some found) absent

theorem twoPart_eq_plain {name raw : String}
    (same : Vocabulary.attributeName.twoPart raw = .plain name) : raw = name := by
  unfold Vocabulary.attributeName.twoPart at same
  split at same
  · cases same
  · cases same
    rfl

theorem attributeName_eq_plain {name raw : String} (unadjusted : Unadjusted name)
    {vocabulary : Vocabulary} (same : vocabulary.attributeName raw = .plain name) :
    raw = name := by
  cases vocabulary with
  | html =>
      cases same
      rfl
  | svg => exact withCapitals_eq unadjusted.svg (twoPart_eq_plain same)
  | math => exact withCapitals_eq unadjusted.math (twoPart_eq_plain same)

/-- A name in one part is written as it is, and nothing else is written like that. -/
theorem Unadjusted.eq_plain_of_text {name : String} (unadjusted : Unadjusted name) {written : Name}
    (same : written.text = name) : written = .plain name := by
  obtain ⟨qualifier, localName⟩ := written
  cases qualifier with
  | none =>
      cases same
      rfl
  | some qualifier =>
      refine absurd ?_ unadjusted.onePart
      rw [← same]
      simp [Name.text]

/-- An element made for a tag. -/
theorem Tag.Distinct.once {tag : Tag} (distinct : tag.Distinct) (vocabulary : Vocabulary) :
    Once (vocabulary.attributes tag.attributes) := by
  intro name unadjusted
  have single : (tag.attributes.map (·.1)).count name ≤ 1 :=
    List.nodup_iff_count_le_one.mp distinct name
  refine Nat.le_trans ?_ single
  rw [List.count, List.count, Vocabulary.attributes, List.map_map, List.countP_map,
    List.countP_map]
  refine List.countP_mono_left fun item _ same => ?_
  exact beq_iff_eq.mpr (attributeName_eq_plain unadjusted (beq_iff_eq.mp same))

/-- An element with those attributes of a tag added that it does not have. -/
theorem Once.append_missing {attributes : List Attribute} (once : Once attributes) {tag : Tag}
    (distinct : tag.Distinct) :
    Once (attributes ++ (Vocabulary.html.attributes tag.attributes).filter fun item =>
      attributes.all (·.name ≠ item.name)) := by
  intro name unadjusted
  rw [List.map_append, List.count_append]
  by_cases present : Name.plain name ∈ attributes.map (·.name)
  · have added : Name.plain name ∉ ((Vocabulary.html.attributes tag.attributes).filter fun item =>
        attributes.all (·.name ≠ item.name)).map (·.name) := by
      intro member
      obtain ⟨item, among, named⟩ := List.mem_map.mp member
      obtain ⟨old, held, same⟩ := List.mem_map.mp present
      have missing := List.all_eq_true.mp (List.mem_filter.mp among).2 old held
      exact of_decide_eq_true missing (same.trans named.symm)
    rw [List.count_eq_zero_of_not_mem added]
    exact once name unadjusted
  · rw [List.count_eq_zero_of_not_mem present, Nat.zero_add]
    exact Nat.le_trans ((List.filter_sublist.map _).count_le _)
      (distinct.once .html name unadjusted)

end ServerPages.Markup

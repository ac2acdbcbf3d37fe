import ServerPages.Document.Printer
import ServerPages.Proofs.Forest.Walks

/-!
# Documents as they are written

What is written of a document is read off subtrees of bounded height. In a well-formed
document the number of nodes is bound enough: no subtree is cut off.
-/

namespace ServerPages

namespace Subtree

@[simp] theorem chars_text (content : String) :
    (text content).chars = Markup.escapeChars content.toList := rfl

@[simp] theorem chars_raw (content : String) : (raw content).chars = content.toList := rfl

@[simp] theorem chars_element (data : Element) (children : List Subtree) :
    (element data children).chars = data.openingChars ++
      if Markup.isVoid data.name then [] else listChars children ++ data.closingChars := rfl

@[simp] theorem listChars_nil : listChars [] = [] := rfl

@[simp] theorem listChars_cons (tree : Subtree) (trees : List Subtree) :
    listChars (tree :: trees) = tree.chars ++ listChars trees := rfl

theorem listChars_append (trees others : List Subtree) :
    listChars (trees ++ others) = listChars trees ++ listChars others := by
  induction trees with
  | nil => rfl
  | cons tree trees ih =>
      rw [List.cons_append, listChars_cons, listChars_cons, ih, List.append_assoc]

/-! ## Deciding equality -/

mutual

instance decEq : (tree other : Subtree) → Decidable (tree = other)
  | .document trees, .document others =>
      have := decEqAll trees others
      decidable_of_iff (trees = others) (by simp)
  | .element data trees, .element other others =>
      have := decEqAll trees others
      decidable_of_iff (data = other ∧ trees = others) (by simp)
  | .doctype name, .doctype other => decidable_of_iff (name = other) (by simp)
  | .text content, .text other => decidable_of_iff (content = other) (by simp)
  | .raw content, .raw other => decidable_of_iff (content = other) (by simp)
  | .comment content, .comment other => decidable_of_iff (content = other) (by simp)
  | .document _, .element _ _ | .document _, .doctype _ | .document _, .text _
  | .document _, .raw _ | .document _, .comment _ => .isFalse nofun
  | .element _ _, .document _ | .element _ _, .doctype _ | .element _ _, .text _
  | .element _ _, .raw _ | .element _ _, .comment _ => .isFalse nofun
  | .doctype _, .document _ | .doctype _, .element _ _ | .doctype _, .text _
  | .doctype _, .raw _ | .doctype _, .comment _ => .isFalse nofun
  | .text _, .document _ | .text _, .element _ _ | .text _, .doctype _
  | .text _, .raw _ | .text _, .comment _ => .isFalse nofun
  | .raw _, .document _ | .raw _, .element _ _ | .raw _, .doctype _
  | .raw _, .text _ | .raw _, .comment _ => .isFalse nofun
  | .comment _, .document _ | .comment _, .element _ _ | .comment _, .doctype _
  | .comment _, .text _ | .comment _, .raw _ => .isFalse nofun

instance decEqAll : (trees others : List Subtree) → Decidable (trees = others)
  | [], [] => .isTrue rfl
  | tree :: trees, other :: others =>
      have := decEq tree other
      have := decEqAll trees others
      decidable_of_iff (tree = other ∧ trees = others) (by simp)
  | [], _ :: _ | _ :: _, [] => .isFalse nofun

end

end Subtree

namespace Document

variable {doc : Document}

/-- Nodes whose children have the same subtrees at two heights have the same subtrees one level
higher. -/
theorem subtrees_congr {low high : Nat} {ids : List NodeId}
    (same : ∀ id ∈ ids, doc.subtrees low (doc.children id) = doc.subtrees high (doc.children id)) :
    doc.subtrees (low + 1) ids = doc.subtrees (high + 1) ids := by
  rw [subtrees, subtrees]
  refine List.filterMap_congr fun id member => ?_
  rw [same id member]

/-- What stands below a node is no higher than there are nodes besides those above it. -/
theorem subtrees_children_add (wf : doc.WellFormed) (extra room : Nat) {id : NodeId}
    {upper : List NodeId} (lineage : doc.Lineage id upper)
    (bound : Forest.size doc ≤ upper.length + room) :
    doc.subtrees (room + extra) (doc.children id) = doc.subtrees room (doc.children id) := by
  induction room generalizing id upper with
  | zero =>
      cases children : doc.children id with
      | nil => cases extra <;> rfl
      | cons child _ =>
          have down : child ∈ doc.children id := children ▸ List.mem_cons_self
          have longer := Forest.Lineage.length_le wf (wf.has_child down)
            (.step ((wf.linked id child).mp down) lineage)
          simp only [List.length_cons] at longer
          omega
  | succ room ih =>
      rw [Nat.succ_add]
      refine subtrees_congr fun child down => ?_
      refine ih (.step ((wf.linked id child).mp down) lineage) ?_
      simp only [List.length_cons]
      omega

/-- A node is written in full: more height shows nothing else. -/
theorem subtrees_of_size_le (wf : doc.WellFormed) {height : Nat} (enough : doc.size ≤ height)
    (id : NodeId) : doc.subtrees height [id] = doc.subtrees doc.size [id] := by
  by_cases inside : doc.Has id
  · obtain ⟨room, size⟩ : ∃ room, doc.size = room + 1 :=
      Nat.exists_eq_succ_of_ne_zero (Nat.ne_of_gt (Nat.lt_of_le_of_lt (Nat.zero_le _) inside))
    obtain ⟨extra, rfl⟩ := Nat.exists_eq_add_of_le enough
    rw [size, Nat.succ_add]
    refine subtrees_congr fun other member => ?_
    cases List.mem_singleton.mp member
    obtain ⟨upper, lineage⟩ := wf.exists_lineage id
    refine subtrees_children_add wf extra room lineage ?_
    have nonempty : 0 < upper.length := by cases lineage <;> exact Nat.succ_pos _
    omega
  · have missing : doc.kind? id = none := by
      cases known : doc.kind? id with
      | none => rfl
      | some kind => exact absurd (Forest.has_of_kind? known) inside
    have nothing (height : Nat) : doc.subtrees height [id] = [] := by
      cases height with
      | zero => rfl
      | succ height => simp [subtrees, missing]
    rw [nothing, nothing]

end Document

end ServerPages

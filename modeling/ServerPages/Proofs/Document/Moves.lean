import ServerPages.Proofs.Document.Operations

/-!
# What is written of a document after a move

The markup and the text of a node are put together from what the node is and from those of its
children. So a node is written as before as long as nothing below it has changed. A node that moves
takes its markup and its text along, to the end or the start of those of its new parent. It makes no
difference for that whether a text is put behind another one or goes on in it.
-/

namespace ServerPages

namespace NodeKind

def markup (inner : List Char) : NodeKind → List Char
  | .document => inner
  | .doctype name => (Subtree.doctype name).chars
  | .element data =>
      data.openingChars ++ if Markup.isVoid data.name then [] else inner ++ data.closingChars
  | .text content => (Subtree.text content).chars
  | .raw content => (Subtree.raw content).chars
  | .comment content => (Subtree.comment content).chars

def words (inner : List Char) : NodeKind → List Char
  | .text content | .raw content => content.toList ++ inner
  | _ => inner

end NodeKind

namespace Document

variable {doc next : Document} {wrap : List Char → NodeKind → List Char}
  {read later : NodeId → List Char} {id parent child last : NodeId}

/-! ## Reading a document node by node -/

/-- What is read off each node depends on its kind and on what is read off its children. -/
def Reads (wrap : List Char → NodeKind → List Char) (doc : Document)
    (read : NodeId → List Char) : Prop :=
  ∀ id, read id = ((doc.kind? id).map (wrap ((doc.children id).flatMap read))).getD []

theorem children_of_kind?_none (missing : doc.kind? id = none) : doc.children id = [] := by
  rw [Forest.kind?, Option.map_eq_none_iff] at missing
  rw [Forest.children, missing]

theorem listChars_subtrees (doc : Document) (height : Nat) (ids : List NodeId) :
    Subtree.listChars (doc.subtrees height ids) =
      ids.flatMap fun id => Subtree.listChars (doc.subtrees height [id]) := by
  have single (id : NodeId) (ids : List NodeId) :
      doc.subtrees height (id :: ids) = doc.subtrees height [id] ++ doc.subtrees height ids := by
    cases height with
    | zero => rfl
    | succ height =>
        rw [subtrees, subtrees, subtrees, ← List.filterMap_append, List.singleton_append]
  induction ids with
  | nil => cases height <;> rfl
  | cons id ids ih =>
      rw [single, Subtree.listChars_append, ih, List.flatMap_cons]

theorem toList_outerHtml (doc : Document) (id : NodeId) :
    (doc.outerHtml id).toList = Subtree.listChars (doc.subtrees doc.size [id]) :=
  String.toList_ofList

theorem toList_innerHtml (doc : Document) (id : NodeId) :
    (doc.innerHtml id).toList = (doc.children id).flatMap fun child =>
      (doc.outerHtml child).toList := by
  rw [innerHtml, String.toList_ofList, listChars_subtrees]
  simp only [toList_outerHtml]

/-- In a well-formed document no markup is cut off. -/
theorem reads_outerHtml (wf : doc.WellFormed) :
    Reads NodeKind.markup doc fun id => (doc.outerHtml id).toList := by
  intro id
  dsimp only
  rw [← toList_innerHtml, innerHtml, String.toList_ofList, toList_outerHtml,
    ← subtrees_of_size_le wf (Nat.le_succ _) id, subtrees, List.filterMap_cons]
  cases doc.kind? id with
  | none => rfl
  | some kind => cases kind <;> exact List.append_nil _

theorem toList_text (doc : Document) (id : NodeId) :
    (doc.text id).toList =
      (doc.ownText id).toList ++ (doc.descendants id).flatMap fun node =>
        (doc.ownText node).toList := by
  rw [text, List.map_cons, String.toList_join, List.flatMap_cons, List.flatMap_map]

/-- The text below a node is that of its children, one after the other. -/
theorem flatMap_ownText (wf : doc.WellFormed) {waiting ids : List NodeId}
    (order : doc.Preorder waiting ids) :
    (ids.flatMap fun node => (doc.ownText node).toList) =
      waiting.flatMap fun node => (doc.text node).toList := by
  induction order with
  | nil => rfl
  | @cons id waiting inner rest children others _ ih =>
      have below : inner = doc.descendants id := children.unique (wf.preorder_descendants id)
      rw [List.flatMap_cons, List.flatMap_append, ih, List.flatMap_cons, toList_text, below,
        List.append_assoc]

theorem reads_text (wf : doc.WellFormed) :
    Reads NodeKind.words doc fun id => (doc.text id).toList := by
  intro id
  dsimp only
  rw [← flatMap_ownText wf (wf.preorder_descendants id), toList_text, ownText]
  cases known : doc.kind? id with
  | none =>
      rw [Forest.descendants, children_of_kind?_none known]
      cases doc.size <;> rfl
  | some kind => cases kind <;> rfl

theorem toList_text_of_takesChildren (wf : doc.WellFormed) (takes : doc.takesChildren id = true) :
    (doc.text id).toList = (doc.children id).flatMap fun node => (doc.text node).toList := by
  have whole := reads_text wf id
  rcases takesChildren_iff.mp takes with known | ⟨_, known⟩
  · rw [known] at whole
    exact whole
  · rw [known] at whole
    exact whole

/-! ## What a change leaves alone -/

/-- Nothing has changed at a node and below it. -/
def Kept (doc next : Document) (id : NodeId) : Prop :=
  ∀ node, doc.Within id node →
    next.kind? node = doc.kind? node ∧ next.children node = doc.children node

section

variable (reads : Reads wrap doc read) (after : Reads wrap next later)

include reads after

theorem flatMap_eq_of_preorder {waiting ids : List NodeId} (order : doc.Preorder waiting ids)
    (same : ∀ node ∈ ids,
      next.kind? node = doc.kind? node ∧ next.children node = doc.children node) :
    waiting.flatMap later = waiting.flatMap read := by
  induction order with
  | nil => rfl
  | @cons id waiting inner rest children others ihInner ihRest =>
      obtain ⟨kind, below⟩ := same id List.mem_cons_self
      have inside := ihInner fun node member =>
        same node (List.mem_cons_of_mem _ (List.mem_append_left _ member))
      have outside := ihRest fun node member =>
        same node (List.mem_cons_of_mem _ (List.mem_append_right _ member))
      rw [List.flatMap_cons, List.flatMap_cons, outside, after id, reads id, kind, below, inside]

theorem Kept.inner (kept : Kept doc next id) (wf : doc.WellFormed) :
    (next.children id).flatMap later = (doc.children id).flatMap read := by
  rw [(kept id .refl).2]
  exact flatMap_eq_of_preorder reads after (wf.preorder_descendants id) fun node member =>
    kept node (wf.mem_descendants.mp member).1

/-- What has not changed reads as before. -/
theorem Kept.same (kept : Kept doc next id) (wf : doc.WellFormed) : later id = read id := by
  rw [after id, reads id, (kept id .refl).1, kept.inner reads after wf]

end

theorem kept_detach (wf : doc.WellFormed)
    (apart : ∀ former, doc.parent? child = some former → ¬ doc.Within id former) :
    Kept doc (doc.detach child) id := by
  intro node inner
  refine ⟨Forest.kind?_detach doc child node, ?_⟩
  rw [Forest.children_detach wf, List.filter_eq_self]
  intro other down
  refine decide_eq_true fun here => apart node ?_ inner
  exact here ▸ (wf.linked node other).mp down

/-- A node that is taken away is what it was. -/
theorem kept_detach_self (wf : doc.WellFormed) (child : NodeId) :
    Kept doc (doc.detach child) child :=
  kept_detach wf fun _ up => wf.not_within_parent up

theorem kept_attached {insert : List NodeId → List NodeId}
    (attached : Forest.Attached doc next parent child insert)
    (kinds : ∀ node, next.kind? node = doc.kind? node) (apart : ¬ doc.Within id parent) :
    Kept doc next id := by
  intro node inner
  refine ⟨kinds node, ?_⟩
  rw [attached.children, if_neg]
  rintro rfl
  exact apart inner

theorem kept_setKind {kind : NodeKind} (apart : ¬ doc.Within id last) :
    Kept doc (doc.setKind last kind) id := by
  intro node inner
  refine ⟨Forest.kind?_setKind_of_ne doc ?_ kind, Forest.children_setKind doc last node kind⟩
  rintro rfl
  exact apart inner

/-! ## Children that have come -/

section

variable (wf : doc.WellFormed) (reads : Reads wrap doc read) (after : Reads wrap next later)

include wf reads after

/-- A parent's children are read one after the other, the new one in its place. -/
theorem inner_of_attached {insert : List NodeId → List NodeId}
    (fits : Forest.Attachable doc parent child)
    (attached : Forest.Attached doc next parent child insert)
    (kinds : ∀ node, next.kind? node = doc.kind? node)
    (adds : ∀ nodes, (insert nodes).Perm (child :: nodes)) :
    (next.children parent).flatMap later = (insert (doc.children parent)).flatMap read := by
  rw [attached.children, if_pos rfl]
  refine List.flatMap_congr fun node member => ?_
  refine Kept.same reads after (kept_attached attached kinds ?_) wf
  rcases List.mem_cons.mp ((adds _).mem_iff.mp member) with rfl | sibling
  · exact fits.apart
  · exact wf.not_within_parent ((wf.linked parent node).mp sibling)

/-- A text that goes on with another one reads like both, so that the children of its parent read as
if the other one came behind them. -/
theorem inner_of_merge {others : List NodeId} {earlier more : String}
    (children : doc.children parent = others ++ [last])
    (known : doc.kind? last = some (.text earlier)) (leaf : doc.children last = [])
    (written : next = doc.setKind last (.text (earlier ++ more)))
    (merges : wrap [] (.text (earlier ++ more)) = wrap [] (.text earlier) ++ wrap [] (.text more)) :
    later last = read last ++ wrap [] (.text more) ∧
      (next.children parent).flatMap later =
        (doc.children parent).flatMap read ++ wrap [] (.text more) := by
  have merged : later last = read last ++ wrap [] (.text more) := by
    have kind : next.kind? last = some (.text (earlier ++ more)) := by
      rw [written]
      exact Forest.kind?_setKind_self (Forest.has_of_kind? known) _
    have below : next.children last = [] := by
      rw [written, Forest.children_setKind, leaf]
    rw [after last, reads last, kind, below, known, leaf]
    exact merges
  refine ⟨merged, ?_⟩
  have distinct := wf.nodup parent
  rw [children, ← List.concat_eq_append, List.nodup_concat] at distinct
  have rest : others.flatMap later = others.flatMap read := by
    refine List.flatMap_congr fun node member => ?_
    have sibling : node ∈ doc.children parent := children ▸ List.mem_append_left _ member
    have final : last ∈ doc.children parent := children ▸ List.mem_concat_self
    have apart : ¬ doc.Within node last := fun inner => distinct.1 <|
      wf.siblings_apart ((wf.linked parent node).mp sibling) ((wf.linked parent last).mp final)
        inner .refl ▸ member
    subst written
    exact Kept.same reads after (kept_setKind apart) wf
  have links : next.children parent = doc.children parent := by
    rw [written, Forest.children_setKind]
  rw [links, children, List.flatMap_append, List.flatMap_append, rest, List.flatMap_singleton,
    List.flatMap_singleton, merged, List.append_assoc]

end

/-! ## Moves -/

/-- A node goes on with the text of a moved one: both are texts, and it is the last child of the
parent once the moved one is taken away. -/
structure GoesOn (doc : Document) (parent child node : NodeId) : Prop where
  last : ((doc.detach child).children parent).getLast? = some node
  texts :
    ∃ earlier more, doc.kind? node = some (.text earlier) ∧ doc.kind? child = some (.text more)

/-- A move that succeeds makes a node the last child of another, or a text a part of the text that
it would follow. -/
inductive Appended (doc next : Document) (parent child : NodeId) : Prop
  | attached (same : next = (doc.detach child).attachLast parent child)
      (alone : ∀ node, ¬ GoesOn doc parent child node)
  | merged {others : List NodeId} {last : NodeId} {earlier more : String}
      (children : (doc.detach child).children parent = others ++ [last])
      (known : doc.kind? last = some (.text earlier))
      (moved : doc.kind? child = some (.text more))
      (same : next = (doc.detach child).setKind last (.text (earlier ++ more)))

theorem appended_of_appendChild (done : doc.appendChild parent child = .ok next) :
    doc.refusal? parent child = none ∧ Appended doc next parent child := by
  unfold Document.appendChild at done
  split at done
  · cases done
  · rename_i allowed
    refine ⟨allowed, ?_⟩
    dsimp only at done
    split at done
    · rename_i last merged found
      cases done
      unfold mergedText? at found
      rw [Option.bind_eq_bind, Option.bind_eq_some_iff] at found
      obtain ⟨node, final, found⟩ := found
      split at found
      · rename_i earlier more known moved
        cases found
        rw [Forest.kind?_detach] at known moved
        obtain ⟨others, children⟩ := List.getLast?_eq_some_iff.mp final
        exact .merged children known moved rfl
      · cases found
    · rename_i alone
      cases done
      refine .attached rfl fun node goesOn => ?_
      obtain ⟨earlier, more, known, moved⟩ := goesOn.texts
      rw [mergedText?, goesOn.last, Option.bind_eq_bind, Option.bind_some, Forest.kind?_detach,
        Forest.kind?_detach, known, moved] at alone
      cases alone

/-- How documents read around a move, given the nodes that go on with what was moved and the way in
which that is joined to what else its parent has. -/
structure Carries (doc next : Document) (parent child : NodeId) (goesOn : NodeId → Prop)
    (join : List Char → List Char → List Char) (read middle later : NodeId → List Char) :
    Prop where
  inner : (next.children parent).flatMap later =
    join (((doc.detach child).children parent).flatMap middle) (read child)
  elsewhere {node : NodeId} (apart : ¬ doc.Within node parent)
    (left : ∀ former, doc.parent? child = some former → ¬ doc.Within node former)
    (other : ¬ goesOn node) :
    later node = read node ∧
      (next.children node).flatMap later = (doc.children node).flatMap read
  received {node : NodeId} (here : goesOn node) : later node = read node ++ read child

theorem Rooted.children_text (rooted : Rooted doc) {content : String}
    (known : doc.kind? id = some (.text content)) : doc.children id = [] := by
  by_contra filled
  have takes := rooted.hosts id filled
  rw [takesChildren, known] at takes
  cases takes

theorem Rooted.reading_text (rooted : Rooted doc) (reads : Reads wrap doc read) {content : String}
    (known : doc.kind? id = some (.text content)) : read id = wrap [] (.text content) := by
  rw [reads id, known, rooted.children_text known]
  rfl

section

variable {middle : NodeId → List Char} (rooted : Rooted doc) (reads : Reads wrap doc read)
  (between : Reads wrap (doc.detach child) middle) (after : Reads wrap next later)

include rooted reads between after

/-- What was not around the moved node reads as before if it has not changed since that was taken
away. -/
theorem same_of_kept {node : NodeId}
    (left : ∀ former, doc.parent? child = some former → ¬ doc.Within node former)
    (put : Kept (doc.detach child) next node) :
    later node = read node ∧
      (next.children node).flatMap later = (doc.children node).flatMap read := by
  have wf := (rooted.detach child).wellFormed
  have taken := kept_detach rooted.wellFormed left
  constructor
  · exact (Kept.same between after put wf).trans (Kept.same reads between taken rooted.wellFormed)
  · exact (Kept.inner between after put wf).trans
      (Kept.inner reads between taken rooted.wellFormed)

/-- A node that is attached where it was not before is the only change, besides that it was taken
away from where it was. -/
theorem carries_of_attached {insert : List NodeId → List NodeId}
    {join : List Char → List Char → List Char}
    (fits : Forest.Attachable (doc.detach child) parent child)
    (attached : Forest.Attached (doc.detach child) next parent child insert)
    (kinds : ∀ node, next.kind? node = (doc.detach child).kind? node)
    (adds : ∀ nodes, (insert nodes).Perm (child :: nodes))
    (joins : ∀ nodes, (insert nodes).flatMap middle = join (nodes.flatMap middle) (middle child)) :
    Carries doc next parent child (fun _ => False) join read middle later where
  inner := by
    have self : middle child = read child :=
      Kept.same reads between (kept_detach_self rooted.wellFormed child) rooted.wellFormed
    rw [inner_of_attached (rooted.detach child).wellFormed between after fits attached kinds adds,
      joins, self]
  elsewhere apart left _ :=
    same_of_kept rooted reads between after left <| kept_attached attached kinds fun inner =>
      apart (Forest.within_of_within_detach inner)
  received := False.elim

theorem carries_of_merged {others : List NodeId} {earlier more : String}
    (children : (doc.detach child).children parent = others ++ [last])
    (known : doc.kind? last = some (.text earlier)) (moved : doc.kind? child = some (.text more))
    (written : next = (doc.detach child).setKind last (.text (earlier ++ more)))
    (merges : wrap [] (.text (earlier ++ more)) = wrap [] (.text earlier) ++ wrap [] (.text more)) :
    Carries doc next parent child (GoesOn doc parent child) (· ++ ·) read middle later := by
  have taken := rooted.detach child
  have still : (doc.detach child).kind? last = some (.text earlier) :=
    (Forest.kind?_detach doc child last).trans known
  obtain ⟨merged, whole⟩ := inner_of_merge taken.wellFormed between after children still
    (taken.children_text still) written merges
  have self : read child = wrap [] (.text more) := rooted.reading_text reads moved
  have before : middle last = read last :=
    (taken.reading_text between still).trans (rooted.reading_text reads known).symm
  refine ⟨?_, fun {node} apart left other => ?_, fun {node} here => ?_⟩
  · rw [whole, self]
  · have up : (doc.detach child).parent? last = some parent :=
      (taken.wellFormed.linked parent last).mp (children ▸ List.mem_concat_self)
    have aside : ¬ (doc.detach child).Within node last := by
      intro inner
      cases inner with
      | refl => exact other ⟨by rw [children, List.getLast?_concat], earlier, more, known, moved⟩
      | step above inner =>
          cases up.symm.trans above
          exact apart (Forest.within_of_within_detach inner)
    exact same_of_kept rooted reads between after left (written ▸ kept_setKind aside)
  · have final := here.last
    rw [children, List.getLast?_concat] at final
    cases final
    rw [merged, before, self]

theorem carries_appendChild (inside : doc.Has child)
    (done : doc.appendChild parent child = .ok next)
    (merges : ∀ earlier more : String,
      wrap [] (.text (earlier ++ more)) = wrap [] (.text earlier) ++ wrap [] (.text more)) :
    Carries doc next parent child (GoesOn doc parent child) (· ++ ·) read middle later := by
  obtain ⟨allowed, appended⟩ := appended_of_appendChild done
  cases appended with
  | attached same alone =>
      have fits := attachable_of_refusal?_none rooted.wellFormed inside allowed
      have attached := Forest.attached_attachLast fits.hasParent fits.hasChild
      have kinds := Forest.kind?_attachLast (doc.detach child) parent child
      rw [← same] at attached kinds
      have carries : Carries doc next parent child (fun _ => False) (· ++ ·) read middle later :=
        carries_of_attached rooted reads between after fits attached kinds
          (fun _ => List.perm_append_singleton _ _) fun nodes => by
            rw [List.flatMap_append, List.flatMap_singleton]
      exact ⟨carries.inner, fun apart left _ => carries.elsewhere apart left id,
        fun {node} here => absurd here (alone node)⟩
  | merged children known moved same =>
      exact carries_of_merged rooted reads between after children known moved same
        (merges _ _)

theorem carries_prependChild (inside : doc.Has child)
    (done : doc.prependChild parent child = .ok next) :
    Carries doc next parent child (fun _ => False) (fun rest moved => moved ++ rest) read middle
      later := by
  unfold Document.prependChild at done
  split at done
  · cases done
  · rename_i allowed
    cases done
    have fits := attachable_of_refusal?_none rooted.wellFormed inside allowed
    refine carries_of_attached rooted reads between after fits
      (Forest.attached_attachFirst fits.hasParent fits.hasChild)
      (Forest.kind?_attachFirst (doc.detach child) parent child) (fun _ => .refl _) fun nodes => ?_
    rw [List.flatMap_cons]

end

/-- A node was moved: its new parent is written as it is without the node, joined with what the node
was written as. The nodes that go on with a moved text are written like both, and all others that
are not around either place as before. -/
structure Moved (doc next : Document) (parent child : NodeId) (goesOn : NodeId → Prop)
    (join : String → String → String) : Prop where
  inner : next.innerHtml parent = join (innerHtml (doc.detach child) parent) (doc.outerHtml child)
  text : next.text parent = join (text (doc.detach child) parent) (doc.text child)
  elsewhere {node : NodeId} (apart : ¬ doc.Within node parent)
    (left : ∀ former, doc.parent? child = some former → ¬ doc.Within node former)
    (other : ¬ goesOn node) :
    next.outerHtml node = doc.outerHtml node ∧ next.innerHtml node = doc.innerHtml node ∧
      next.text node = doc.text node
  received {node : NodeId} (here : goesOn node) :
    next.outerHtml node = doc.outerHtml node ++ doc.outerHtml child ∧
      next.text node = doc.text node ++ doc.text child

theorem moved_of_carries {goesOn : NodeId → Prop} {join : List Char → List Char → List Char}
    {joined : String → String → String} (rooted : Rooted doc)
    (takes : doc.takesChildren parent = true) (after : Rooted next)
    (taken : next.takesChildren parent = true)
    (joins : ∀ first second : String,
      (joined first second).toList = join first.toList second.toList)
    (markup : Carries doc next parent child goesOn join (fun id => (doc.outerHtml id).toList)
      (fun id => (outerHtml (doc.detach child) id).toList) fun id => (next.outerHtml id).toList)
    (words : Carries doc next parent child goesOn join (fun id => (doc.text id).toList)
      (fun id => (text (doc.detach child) id).toList) fun id => (next.text id).toList) :
    Moved doc next parent child goesOn joined where
  inner := by
    rw [← String.toList_inj, joins, toList_innerHtml, toList_innerHtml]
    exact markup.inner
  text := by
    have between : takesChildren (doc.detach child) parent = true := by
      rw [takesChildren_congr (Forest.kind?_detach doc child parent)]
      exact takes
    rw [← String.toList_inj, joins, toList_text_of_takesChildren after.wellFormed taken,
      toList_text_of_takesChildren (rooted.detach child).wellFormed between]
    exact words.inner
  elsewhere apart left other := by
    refine ⟨String.toList_inj.mp (markup.elsewhere apart left other).1, ?_,
      String.toList_inj.mp (words.elsewhere apart left other).1⟩
    rw [← String.toList_inj, toList_innerHtml, toList_innerHtml]
    exact (markup.elsewhere apart left other).2
  received here := by
    constructor
    · rw [← String.toList_inj, String.toList_append]
      exact markup.received here
    · rw [← String.toList_inj, String.toList_append]
      exact words.received here

theorem merges_markup (earlier more : String) :
    NodeKind.markup [] (.text (earlier ++ more)) =
      NodeKind.markup [] (.text earlier) ++ NodeKind.markup [] (.text more) := by
  simp only [NodeKind.markup, Subtree.chars_text, String.toList_append, Markup.escapeChars,
    List.flatMap_append]

theorem merges_words (earlier more : String) :
    NodeKind.words [] (.text (earlier ++ more)) =
      NodeKind.words [] (.text earlier) ++ NodeKind.words [] (.text more) := by
  simp only [NodeKind.words, String.toList_append, List.append_nil]

theorem Appended.takesChildren (appended : Appended doc next parent child)
    (takes : doc.takesChildren parent = true) : next.takesChildren parent = true := by
  rw [← takes]
  cases appended with
  | attached same =>
      refine takesChildren_congr ?_
      rw [same, Forest.kind?_attachLast, Forest.kind?_detach]
  | @merged others last _ _ _ known _ same =>
      refine takesChildren_congr ?_
      have apart : parent ≠ last := by
        rintro rfl
        rw [Document.takesChildren, known] at takes
        cases takes
      rw [same, Forest.kind?_setKind_of_ne _ apart, Forest.kind?_detach]

/-- Moving a node moves its markup and its text, whether it is put behind or in front of the other
children of its new parent, and whether or not a text goes on in another one. -/
theorem moved_of_reachable (reached : Reachable doc) (inside : doc.Has child) :
    (∀ next, doc.appendChild parent child = .ok next →
      Moved doc next parent child (GoesOn doc parent child) (· ++ ·)) ∧
    ∀ next, doc.prependChild parent child = .ok next →
      Moved doc next parent child (fun _ => False) fun rest moved => moved ++ rest := by
  have rooted := reached.rooted
  have detached := rooted.detach child
  constructor
  · intro next done
    have after := rooted.appendChild inside done
    obtain ⟨allowed, appended⟩ := appended_of_appendChild done
    have takes := Rooted.takesChildren_of_refusal?_none allowed
    refine moved_of_carries rooted takes after (appended.takesChildren takes)
      (fun _ _ => String.toList_append) ?_ ?_
    · exact carries_appendChild rooted (reads_outerHtml rooted.wellFormed)
        (reads_outerHtml detached.wellFormed) (reads_outerHtml after.wellFormed) inside done
        merges_markup
    · exact carries_appendChild rooted (reads_text rooted.wellFormed)
        (reads_text detached.wellFormed) (reads_text after.wellFormed) inside done merges_words
  · intro next done
    have after := rooted.prependChild inside done
    have takes : doc.takesChildren parent = true ∧ next.takesChildren parent = true := by
      unfold Document.prependChild at done
      split at done
      · cases done
      · rename_i allowed
        cases done
        have takes := Rooted.takesChildren_of_refusal?_none allowed
        refine ⟨takes, ?_⟩
        rw [← takes]
        refine takesChildren_congr ?_
        rw [Forest.kind?_attachFirst, Forest.kind?_detach]
    have markup := carries_prependChild rooted (reads_outerHtml rooted.wellFormed)
      (reads_outerHtml detached.wellFormed) (reads_outerHtml after.wellFormed) inside done
    have words := carries_prependChild rooted (reads_text rooted.wellFormed)
      (reads_text detached.wellFormed) (reads_text after.wellFormed) inside done
    exact moved_of_carries rooted takes.1 after takes.2 (fun _ _ => String.toList_append) markup
      words

/-! A section with two texts, and another one behind it. -/

def twoTexts : Document :=
  parse "<div>one &amp; <b>x</b>two, </div><p>three</p>"

theorem twoTexts_eval :
    (((twoTexts.appendChild ⟨4⟩ ⟨5⟩).toOption.map fun next =>
        (next.innerHtml ⟨4⟩, next.text ⟨4⟩)) =
      some ("<b>x</b>two, one &amp; ", "xtwo, one & ")) ∧
    (((twoTexts.prependChild ⟨4⟩ ⟨9⟩).toOption.map fun next =>
        (next.innerHtml ⟨4⟩, next.text ⟨4⟩)) =
      some ("<p>three</p>one &amp; <b>x</b>two, ", "threeone & xtwo, ")) ∧
    (twoTexts.Has ⟨5⟩ ∧ twoTexts.Has ⟨9⟩) ∧
    (Forest.children (twoTexts.detach ⟨5⟩) ⟨4⟩).getLast? = some ⟨8⟩ ∧
    twoTexts.kind? ⟨8⟩ = some (.text "two, ") ∧ twoTexts.kind? ⟨5⟩ = some (.text "one & ") := by
  decide +kernel

theorem exists_ok_of_toOption {ε α β : Type} {result : Except ε α} {read : α → β} {value : β}
    (reads : result.toOption.map read = some value) :
    ∃ done, result = .ok done ∧ read done = value := by
  cases result with
  | error => cases reads
  | ok done => exact ⟨done, rfl, Option.some.inj reads⟩

/-- The first text of the section is moved to its end and goes on in the second one there; the
section behind it is moved to its start. -/
theorem moved_twoTexts :
    (∃ next, twoTexts.appendChild ⟨4⟩ ⟨5⟩ = .ok next ∧
      Moved twoTexts next ⟨4⟩ ⟨5⟩ (GoesOn twoTexts ⟨4⟩ ⟨5⟩) (· ++ ·) ∧
      next.innerHtml ⟨4⟩ = "<b>x</b>two, one &amp; " ∧ GoesOn twoTexts ⟨4⟩ ⟨5⟩ ⟨8⟩) ∧
    ∃ next, twoTexts.prependChild ⟨4⟩ ⟨9⟩ = .ok next ∧
      Moved twoTexts next ⟨4⟩ ⟨9⟩ (fun _ => False) (fun rest moved => moved ++ rest) ∧
      next.innerHtml ⟨4⟩ = "<p>three</p>one &amp; <b>x</b>two, " := by
  obtain ⟨appended, prepended, ⟨hasText, hasSection⟩, last, known, moved⟩ := twoTexts_eval
  have reached : Reachable twoTexts := .parse _
  obtain ⟨next, done, written⟩ := exists_ok_of_toOption appended
  obtain ⟨other, placed, shown⟩ := exists_ok_of_toOption prepended
  refine ⟨⟨next, done, (moved_of_reachable reached hasText).1 next done,
    congrArg Prod.fst written, last, _, _, known, moved⟩, other, placed,
    (moved_of_reachable reached hasSection).2 other placed, congrArg Prod.fst shown⟩

end Document

end ServerPages

import ServerPages.Proofs.Binding.Resolution
import ServerPages.Proofs.Dictionary
import ServerPages.Proofs.Document.Altered
import ServerPages.Proofs.Page.Populate

/-!
# Which field an element receives

Filling in the fields of a request goes through the fields and, for each, through the elements of
its name, and looks at the document that earlier fields have changed. What comes of it can be told
of each element by itself: it receives the field of its name in the body if it takes that, or else
the one in the query. So the order of the fields makes no difference.
-/

namespace ServerPages

/-! ## Fields -/

inductive FieldSource
  | query
  | body
  deriving DecidableEq

/-- The fields of a request as the texts that elements receive. -/
def Request.fields (request : Request) : FieldSource → Dictionary String
  | .query => request.query
  | .body => request.body.map fun (name, value) => (name, value.fieldText)

theorem Request.fields_query (request : Request) : request.fields .query = request.query := rfl

theorem Request.fields_body (request : Request) :
    request.fields .body = request.body.map fun (name, value) => (name, value.fieldText) := rfl

/-! ## Values at some elements -/

def NodeKind.filled : NodeKind → Option String → NodeKind
  | .element before, some value => .element (before.setAttr "value" value)
  | kind, _ => kind

theorem NodeKind.filled_none (kind : NodeKind) : kind.filled none = kind := by
  cases kind <;> rfl

/-- Forests that show the same nodes are the same. -/
theorem Forest.ext_node? {κ : Type} {first second : Forest κ}
    (same : ∀ id, first.node? id = second.node? id) : first = second := by
  obtain ⟨left⟩ := first
  obtain ⟨right⟩ := second
  exact congrArg Forest.mk (Array.ext_getElem? fun place => same ⟨place⟩)

namespace Element

theorem setIn_setIn (name value later : String) (pairs : List (String × String)) :
    setIn name later (setIn name value pairs) = setIn name later pairs := by
  induction pairs with
  | nil => simp [setIn]
  | cons pair rest ih =>
      obtain ⟨key, old⟩ := pair
      by_cases here : key = name
      · simp [setIn, here]
      · simp [setIn, here, ih]

/-- Of two values for an attribute the later one stays. -/
theorem setAttr_setAttr (element : Element) (name value later : String) :
    (element.setAttr name value).setAttr name later = element.setAttr name later :=
  congrArg (Element.mk element.name) (setIn_setIn name value later element.attributes)

end Element

namespace Document

open Procedure

variable {doc : Document} {values : NodeId → Option String} {node : NodeId} {name value : String}

def fill (doc : Document) (values : NodeId → Option String) : Document :=
  ⟨doc.nodes.mapIdx fun place node => { node with kind := node.kind.filled (values ⟨place⟩) }⟩

theorem node?_fill (doc : Document) (values : NodeId → Option String) (id : NodeId) :
    (doc.fill values).node? id =
      (doc.node? id).map fun node => { node with kind := node.kind.filled (values id) } := by
  rw [fill, Forest.node?, Array.getElem?_mapIdx]
  rfl

/-- Values change nothing but what elements are. -/
theorem alike_fill (doc : Document) (values : NodeId → Option String) :
    Forest.Alike (fun _ _ => True) doc (doc.fill values) where
  size := Array.size_mapIdx.symm
  nodes id := by
    rw [node?_fill]
    cases doc.node? id with
    | none => exact .none
    | some node => exact .some ⟨trivial, rfl, rfl⟩

theorem kind?_fill (doc : Document) (values : NodeId → Option String) (id : NodeId) :
    (doc.fill values).kind? id = (doc.kind? id).map (·.filled (values id)) := by
  rw [Forest.kind?, Forest.kind?, node?_fill, Option.map_map, Option.map_map]
  rfl

theorem element?_fill (doc : Document) (values : NodeId → Option String) (id : NodeId) :
    (doc.fill values).element? id = (doc.element? id).map fun element =>
      match values id with
      | some value => element.setAttr "value" value
      | none => element := by
  unfold element?
  rw [kind?_fill]
  cases doc.kind? id with
  | none => rfl
  | some kind => cases kind <;> cases values id <;> rfl

theorem sameBut_fill (doc : Document) (values : NodeId → Option String) :
    SameBut "value" doc (doc.fill values) where
  ancestors := (alike_fill doc values).inclusiveAncestors_eq
  descendants := (alike_fill doc values).descendants_eq
  tagName id := by
    rw [tagName?, tagName?, element?_fill]
    cases doc.element? id with
    | none => rfl
    | some element => cases values id <;> rfl
  attr id other different := by
    rw [attr?, attr?, element?_fill]
    cases doc.element? id with
    | none => rfl
    | some element =>
        cases values id with
        | none => rfl
        | some value =>
            rw [Option.map_some, Option.bind_some, Option.bind_some]
            exact ((element.attr?_setAttr "value" value other).trans
              (if_neg (Ne.symm different))).symm

theorem fill_none (doc : Document) : doc.fill (fun _ => none) = doc := by
  refine Forest.ext_node? fun id => ?_
  rw [node?_fill]
  cases doc.node? id with
  | none => rfl
  | some node => rw [Option.map_some, NodeKind.filled_none]

/-- Another value takes the place of what was filled in. -/
theorem setAttr_fill (values : NodeId → Option String) (known : doc.isElement node = true)
    (value : String) :
    (doc.fill values).setAttr node "value" value =
      .ok (doc.fill (Function.update values node (some value))) := by
  obtain ⟨element, known⟩ := Option.isSome_iff_exists.mp known
  have filled := element?_fill doc values node
  rw [known, Option.map_some] at filled
  rw [setAttr_eq filled]
  refine congrArg Except.ok (Forest.ext_node? fun id => ?_)
  rw [Forest.setKind, Forest.node?_modify, node?_fill, node?_fill]
  by_cases here : node = id
  · subst here
    obtain ⟨there, present, kind⟩ := Option.map_eq_some_iff.mp (element?_eq_some_iff.mp known)
    rw [if_pos rfl, present, Function.update_self, Option.map_some, Option.map_some,
      Option.map_some, kind]
    cases values node with
    | none => rfl
    | some old =>
        dsimp only [NodeKind.filled]
        rw [Element.setAttr_setAttr]
  · rw [if_neg here, Function.update_of_ne (Ne.symm here)]

/-! ## Elements that take a field -/

/-- What decides whether an element takes a field does not look at values. -/
def Blind (takes : Document → NodeId → Bool) : Prop :=
  ∀ first second : Document, SameBut "value" first second → takes first = takes second

theorem formMethod_congr {first second : Document} (same : SameBut "value" first second) :
    first.formMethod = second.formMethod := by
  funext node
  unfold formMethod
  rw [same.closest_eq (by simp [Match.tagged])]
  refine congrArg (Option.map · _) (funext fun form => ?_)
  rw [same.attr form (by decide)]

theorem blind_takesQuery : Blind takesQuery := by
  intro first second same
  funext node
  rw [takesQuery, takesQuery, formMethod_congr same]

theorem blind_takesBody : Blind takesBody := by
  intro first second same
  funext node
  have panel : first.closest node .updatePanel = second.closest node .updatePanel :=
    same.closest_eq (by simp [Match.updatePanel, Match.eq, Match.any]) node
  rw [takesBody, takesBody, formMethod_congr same, inUpdatePanel, inUpdatePanel, panel]

def takers (doc : Document) (takes : Document → NodeId → Bool) (name : String) : List NodeId :=
  (doc.findAll (fieldMatch name)).filter (takes doc)

def written (nodes : List NodeId) (value : String) (values : NodeId → Option String) :
    NodeId → Option String :=
  fun id => if id ∈ nodes then some value else values id

theorem written_cons (nodes : List NodeId) (value : String) (values : NodeId → Option String) :
    written (node :: nodes) value values =
      written nodes value (Function.update values node (some value)) := by
  funext id
  unfold written
  by_cases here : id = node
  · subst here
    simp
  · simp [here]

variable {takes : Document → NodeId → Bool}

section

variable (blind : Blind takes)

include blind

theorem runFrom_setValues {nodes : List NodeId}
    (elements : ∀ node ∈ nodes, doc.isElement node = true) (value : String)
    (values : NodeId → Option String) :
    (setValues takes value nodes).runFrom (doc.fill values) =
      (.ok (nodes.filter (takes doc)).length,
        doc.fill (written (nodes.filter (takes doc)) value values)) := by
  unfold setValues
  rw [← Nat.zero_add (nodes.filter (takes doc)).length]
  -- the loop may go on from any count
  generalize 0 = count
  induction nodes generalizing values count with
  | nil => rfl
  | cons node nodes ih =>
      have later := ih fun other member => elements other (List.mem_cons_of_mem _ member)
      have same : takes (doc.fill values) node = takes doc node :=
        congrFun (blind _ _ (sameBut_fill doc values)).symm node
      rw [List.foldlM_cons, runFrom_bind, runFrom_bind_ok (runFrom_get _)]
      cases taken : takes doc node with
      | true =>
          have done := setAttr_fill values (elements node List.mem_cons_self) value
          rw [if_pos (same.trans taken), runFrom_bind_ok (runFrom_edit_ok done), runFrom_pure]
          dsimp only
          rw [later, List.filter_cons_of_pos taken, written_cons, List.length_cons,
            Nat.add_assoc, Nat.add_comm 1]
      | false =>
          have refused : ¬ takes (doc.fill values) node = true := by simp [same, taken]
          rw [if_neg refused, runFrom_pure]
          dsimp only
          rw [later, List.filter_cons_of_neg (by simp [taken])]

theorem runFrom_setField (name value : String) (values : NodeId → Option String) :
    (setField takes name value).runFrom (doc.fill values) =
      (.ok (doc.takers takes name).length,
        doc.fill (written (doc.takers takes name) value values)) := by
  have found : (doc.fill values).findAll (fieldMatch name) = doc.findAll (fieldMatch name) :=
    ((sameBut_fill doc values).findAllIn_eq
      (by simp [fieldMatch, Match.eq, Match.any]) root).symm
  unfold setField
  rw [runFrom_bind_ok (runFrom_get _), found]
  refine runFrom_setValues blind (fun node member => ?_) value values
  obtain ⟨element, known, _⟩ := exists_element_of_holds (List.mem_filter.mp member).2
  rw [isElement, known, Option.isSome_some]

def brought (doc : Document) (takes : Document → NodeId → Bool) (fields : Dictionary String)
    (values : NodeId → Option String) : NodeId → Option String :=
  fields.foldl (fun values field => written (doc.takers takes field.1) field.2 values) values

theorem runFrom_setFields (doc : Document) (fields : Dictionary String)
    (values : NodeId → Option String) :
    (setFields takes fields).runFrom (doc.fill values) =
      (.ok (fields.flatMap fun field => doc.takers takes field.1).length,
        doc.fill (doc.brought takes fields values)) := by
  unfold setFields brought
  rw [← Nat.zero_add (fields.flatMap fun field => doc.takers takes field.1).length]
  generalize 0 = count
  induction fields generalizing values count with
  | nil => rfl
  | cons field fields ih =>
      rw [List.foldlM_cons, runFrom_bind,
        runFrom_bind_ok (runFrom_setField blind field.1 field.2 values), runFrom_pure]
      dsimp only
      rw [ih, List.flatMap_cons, List.length_append, List.foldl_cons, Nat.add_assoc]

end

theorem runFrom_populate (doc : Document) (request : Request) :
    (populate request).runFrom doc =
      (.ok (((request.fields .query).flatMap fun field => doc.takers takesQuery field.1).length +
          ((request.fields .body).flatMap fun field => doc.takers takesBody field.1).length),
        doc.fill (doc.brought takesBody (request.fields .body)
          (doc.brought takesQuery (request.fields .query) fun _ => none))) := by
  have queried :=
    runFrom_setFields blind_takesQuery doc (request.fields .query) fun _ => none
  rw [fill_none] at queried
  unfold populate
  rw [← Request.fields_query, ← Request.fields_body, runFrom_bind_ok queried,
    runFrom_bind_ok (runFrom_setFields blind_takesBody doc _ _), runFrom_pure]

/-! ## What each element receives -/

theorem named_of_mem_takers (member : node ∈ doc.takers takes name) :
    doc.attr? node "name" = some name :=
  (holds_fieldMatch_iff.mp (List.mem_filter.mp (List.mem_filter.mp member).1).2).1

theorem brought_of_none {fields : Dictionary String}
    (none : ∀ field ∈ fields, node ∉ doc.takers takes field.1)
    (values : NodeId → Option String) : doc.brought takes fields values node = values node := by
  unfold brought
  induction fields generalizing values with
  | nil => rfl
  | cons field fields ih =>
      rw [List.foldl_cons, ih fun other member => none other (List.mem_cons_of_mem _ member)]
      exact if_neg (none field List.mem_cons_self)

/-- A field that is taken stays, since later ones have other names. -/
theorem brought_of_mem {fields : Dictionary String} (distinct : fields.keys.Nodup)
    (among : (name, value) ∈ fields) (taken : node ∈ doc.takers takes name)
    (values : NodeId → Option String) :
    doc.brought takes fields values node = some value := by
  unfold brought
  induction fields generalizing values with
  | nil => cases among
  | cons field fields ih =>
      obtain ⟨fresh, others⟩ := List.nodup_cons.mp distinct
      rw [List.foldl_cons]
      rcases List.mem_cons.mp among with rfl | later
      · have passed : ∀ other ∈ fields, node ∉ doc.takers takes other.1 := by
          intro other member again
          have same := (named_of_mem_takers taken).symm.trans (named_of_mem_takers again)
          exact fresh (List.mem_map.mpr ⟨other, member, (Option.some.inj same).symm⟩)
        have stays := brought_of_none passed (written (doc.takers takes name) value values)
        exact stays.trans (if_pos taken)
      · exact ih others later _

/-- The nearest form around a node has a method, whatever its case; forms that have none get. -/
def InForm (doc : Document) (method : String) (node : NodeId) : Prop :=
  ∃ form, Nearest doc (.tagged "form") node form ∧
    ((doc.attr? form "method").getD "get").toLower = method

def InPanel (doc : Document) (node : NodeId) : Prop :=
  ∃ panel, doc.Within panel node ∧ doc.attr? panel "updatepanel" = some "true"

/-- A node stands where fields of a source are taken. -/
def OpenTo (doc : Document) (node : NodeId) : FieldSource → Prop
  | .query => ¬ doc.InForm "post" node
  | .body => ¬ doc.InForm "get" node ∨ doc.InPanel node

/-- An element of the server takes the value that a source has for its name. -/
structure Accepts (doc : Document) (request : Request) (node : NodeId) (source : FieldSource)
    (value : String) : Prop where
  below : doc.Within root node ∧ node ≠ root
  server : doc.attr? node "runat" = some "server"
  named : ∃ name, doc.attr? node "name" = some name ∧
    (request.fields source).find? name = some value
  stands : doc.OpenTo node source

/-- An element receives the value of the body if it takes that, and else the one of the query. -/
inductive Receives (doc : Document) (request : Request) (node : NodeId) : String → Prop
  | body {value : String} (accepts : Accepts doc request node .body value) :
      Receives doc request node value
  | query {value : String} (accepts : Accepts doc request node .query value)
      (without : ∀ other, ¬ Accepts doc request node .body other) :
      Receives doc request node value

theorem Receives.imp {request other : Request} (same : ∀ source value,
      Accepts doc request node source value ↔ Accepts doc other node source value)
    (receives : Receives doc request node value) : Receives doc other node value := by
  cases receives with
  | body here => exact .body ((same .body value).mp here)
  | query here without =>
      exact .query ((same .query value).mp here) fun later again =>
        without later ((same .body later).mpr again)

/-- A document that was filled in with the fields of a request: what each element receives is its
value, the number of values that were taken is counted, and nothing else has changed. -/
structure Populated (doc : Document) (request : Request) (count : Nat) (next : Document) :
    Prop where
  size : next.size = doc.size
  parent? (node : NodeId) : next.parent? node = doc.parent? node
  children (node : NodeId) : next.children node = doc.children node
  received {node : NodeId} {value : String} (receives : Receives doc request node value) :
    next.attr? node "value" = some value
  others : AlteredIn (fun _ => ["value"]) doc next
  kept {node : NodeId} (none : ∀ value, ¬ Receives doc request node value) :
    next.kind? node = doc.kind? node
  counted : ∃ pairs : List (NodeId × FieldSource), pairs.Nodup ∧ pairs.length = count ∧
    ∀ node source, (node, source) ∈ pairs ↔ ∃ value, Accepts doc request node source value

/-- How it is decided whether an element takes a field from a source. -/
def takesFrom : FieldSource → Document → NodeId → Bool
  | .query => takesQuery
  | .body => takesBody

section

variable (wf : doc.WellFormed)

include wf

theorem formMethod_eq_some_iff (inside : doc.Has node) {method : String} :
    doc.formMethod node = some method ↔ doc.InForm method node := by
  simp only [formMethod, Option.map_eq_some_iff, closest_eq_some_iff wf inside, InForm]

theorem inUpdatePanel_iff (inside : doc.Has node) :
    doc.inUpdatePanel node = true ↔ doc.InPanel node := by
  rw [inUpdatePanel, closest, List.find?_isSome]
  refine exists_congr fun panel => ?_
  rw [wf.mem_inclusiveAncestors inside]
  exact and_congr_right fun _ => holds_any_eq_iff

theorem takesFrom_iff (inside : doc.Has node) (source : FieldSource) :
    takesFrom source doc node = true ↔ doc.OpenTo node source := by
  cases source with
  | query =>
      rw [takesFrom, takesQuery, OpenTo, ← formMethod_eq_some_iff wf inside]
      exact decide_eq_true_iff
  | body =>
      rw [takesFrom, takesBody, OpenTo, ← formMethod_eq_some_iff wf inside,
        ← inUpdatePanel_iff wf inside, Bool.or_eq_true]
      exact or_congr_left decide_eq_true_iff

theorem mem_takers : node ∈ doc.takers takes name ↔ (doc.Within root node ∧ node ≠ root) ∧
    doc.attr? node "name" = some name ∧ doc.attr? node "runat" = some "server" ∧
      takes doc node = true := by
  rw [takers, List.mem_filter, findAll, mem_findAllIn wf, holds_fieldMatch_iff]
  simp only [and_assoc]

variable {request : Request} {source : FieldSource}

/-- The elements that take a field of a source are those that the loops write it to. -/
theorem accepts_iff (distinct : (request.fields source).keys.Nodup) :
    Accepts doc request node source value ↔
      ∃ name, (name, value) ∈ request.fields source ∧
        node ∈ doc.takers (takesFrom source) name := by
  constructor
  · rintro ⟨below, server, ⟨name, named, found⟩, stands⟩
    refine ⟨name, (Dictionary.find?_eq_some_iff distinct).mp found, (mem_takers wf).mpr ?_⟩
    exact ⟨below, named, server, (takesFrom_iff wf (has_of_attr? server) source).mpr stands⟩
  · rintro ⟨name, among, taken⟩
    obtain ⟨below, named, server, takes⟩ := (mem_takers wf).mp taken
    refine ⟨below, server, ⟨name, named, (Dictionary.find?_eq_some_iff distinct).mpr among⟩, ?_⟩
    exact (takesFrom_iff wf (has_of_attr? server) source).mp takes

/-! Both loops together -/

def allBrought (doc : Document) (request : Request) : NodeId → Option String :=
  doc.brought takesBody (request.fields .body)
    (doc.brought takesQuery (request.fields .query) fun _ => none)

variable (distinct : ∀ source, (request.fields source).keys.Nodup)

include distinct

/-- The loops leave each element with what it receives. -/
theorem allBrought_eq_some (receives : Receives doc request node value) :
    doc.allBrought request node = some value := by
  cases receives with
  | body accepts =>
      obtain ⟨name, among, taken⟩ := (accepts_iff wf (distinct .body)).mp accepts
      exact brought_of_mem (distinct .body) among taken _
  | query accepts without =>
      obtain ⟨name, among, taken⟩ := (accepts_iff wf (distinct .query)).mp accepts
      have passed : ∀ field ∈ request.fields .body, node ∉ doc.takers takesBody field.1 :=
        fun field member again =>
          without field.2 ((accepts_iff wf (distinct .body)).mpr ⟨field.1, member, again⟩)
      exact (brought_of_none passed _).trans (brought_of_mem (distinct .query) among taken _)

theorem allBrought_eq_none (nothing : ∀ value, ¬ Receives doc request node value) :
    doc.allBrought request node = none := by
  have without (other : String) : ¬ Accepts doc request node .body other :=
    fun accepts => nothing other (.body accepts)
  have body : ∀ field ∈ request.fields .body, node ∉ doc.takers takesBody field.1 :=
    fun field member taken =>
      without field.2 ((accepts_iff wf (distinct .body)).mpr ⟨field.1, member, taken⟩)
  have query : ∀ field ∈ request.fields .query, node ∉ doc.takers takesQuery field.1 :=
    fun field member taken => nothing field.2
      (.query ((accepts_iff wf (distinct .query)).mpr ⟨field.1, member, taken⟩) without)
  exact (brought_of_none body _).trans (brought_of_none query _)

/-- What requests bring depends on what elements receive, not on the order of their fields. -/
theorem allBrought_congr {other : Request}
    (apart : ∀ source, (other.fields source).keys.Nodup)
    (same : ∀ node value, Receives doc other node value ↔ Receives doc request node value) :
    doc.allBrought other = doc.allBrought request := by
  funext node
  by_cases receives : ∃ value, Receives doc request node value
  · obtain ⟨value, receives⟩ := receives
    rw [allBrought_eq_some wf distinct receives,
      allBrought_eq_some wf apart ((same node value).mpr receives)]
  · rw [not_exists] at receives
    rw [allBrought_eq_none wf distinct receives,
      allBrought_eq_none wf apart fun value => mt (same node value).mp (receives value)]

/-- The pairs of an element and a source that it takes its field from. -/
def taken (doc : Document) (request : Request) (source : FieldSource) :
    List (NodeId × FieldSource) :=
  (request.fields source).flatMap fun field =>
    (doc.takers (takesFrom source) field.1).map (·, source)

omit wf distinct in
theorem length_taken (doc : Document) (request : Request) (source : FieldSource) :
    (doc.taken request source).length = ((request.fields source).flatMap fun field =>
      doc.takers (takesFrom source) field.1).length := by
  rw [taken, ← List.map_flatMap, List.length_map]

theorem mem_taken {pair : NodeId × FieldSource} : pair ∈ doc.taken request source ↔
    pair.2 = source ∧ ∃ value, Accepts doc request pair.1 source value := by
  rw [taken, List.mem_flatMap]
  constructor
  · rintro ⟨field, among, member⟩
    obtain ⟨node, taken, rfl⟩ := List.mem_map.mp member
    exact ⟨rfl, field.2, (accepts_iff wf (distinct source)).mpr ⟨field.1, among, taken⟩⟩
  · rintro ⟨rfl, value, accepts⟩
    obtain ⟨name, among, taken⟩ := (accepts_iff wf (distinct pair.2)).mp accepts
    exact ⟨(name, value), among, List.mem_map.mpr ⟨pair.1, taken, rfl⟩⟩

/-- No element takes two fields of one source, as it has one name. -/
theorem nodup_taken : (doc.taken request source).Nodup := by
  refine List.nodup_flatMap.mpr ⟨fun field _ => ?_, ?_⟩
  · exact (((wf.nodup_descendants root).filter _).filter _).map fun _ _ same =>
      congrArg Prod.fst same
  · refine (List.pairwise_map.mp (distinct source)).imp fun different => ?_
    refine List.disjoint_left.mpr fun {pair} first second => ?_
    obtain ⟨node, taken, rfl⟩ := List.mem_map.mp first
    obtain ⟨other, again, same⟩ := List.mem_map.mp second
    cases same
    exact different (Option.some.inj
      ((named_of_mem_takers taken).symm.trans (named_of_mem_takers again)))

/-- What filling in comes to, each element seen by itself. -/
theorem populated_fill :
    Populated doc request
      ((doc.taken request .query).length + (doc.taken request .body).length)
      (doc.fill (doc.allBrought request)) where
  size := (alike_fill doc _).size.symm
  parent? node := ((alike_fill doc _).parent?_eq node).symm
  children node := ((alike_fill doc _).children_eq node).symm
  received {node value} receives := by
    have known : ∃ element, doc.element? node = some element := by
      have server : doc.attr? node "runat" = some "server" := by
        cases receives with
        | body accepts => exact accepts.server
        | query accepts _ => exact accepts.server
      obtain ⟨element, known, _⟩ := Option.bind_eq_some_iff.mp server
      exact ⟨element, known⟩
    obtain ⟨element, known⟩ := known
    rw [attr?, element?_fill, known, allBrought_eq_some wf distinct receives, Option.map_some,
      Option.bind_some]
    exact (element.attr?_setAttr "value" value "value").trans (if_pos rfl)
  others := by
    refine ⟨fun {node element} known => ?_, fun {node} _ leaf => ?_⟩
    · refine ⟨_, (element?_fill doc _ node).trans (congrArg _ known), ?_⟩
      cases doc.allBrought request node with
      | none => exact .refl _ element
      | some value => exact .setAttr element (List.mem_singleton_self "value") value
    · rw [kind?_fill]
      unfold element? at leaf
      cases known : doc.kind? node with
      | none => rfl
      | some what =>
          cases what with
          | element => simp [known] at leaf
          | _ => cases doc.allBrought request node <;> rfl
  kept {node} nothing := by
    rw [kind?_fill, allBrought_eq_none wf distinct nothing]
    cases doc.kind? node with
    | none => rfl
    | some kind => rw [Option.map_some, NodeKind.filled_none]
  counted := by
    refine ⟨doc.taken request .query ++ doc.taken request .body, ?_, List.length_append,
      fun node source => ?_⟩
    · refine List.nodup_append'.mpr
        ⟨nodup_taken wf distinct, nodup_taken wf distinct, List.disjoint_left.mpr ?_⟩
      intro pair first second
      have query := ((mem_taken wf distinct).mp first).1
      have body := ((mem_taken wf distinct).mp second).1
      cases query.symm.trans body
    · rw [List.mem_append, mem_taken wf distinct, mem_taken wf distinct]
      cases source with
      | query => simp
      | body => simp

end

/-- Filling in the fields of a request gives each element what it receives, in whatever order the
fields of the query come and then those of the body. -/
theorem exists_populated {doc : Document} (wf : doc.WellFormed) {request : Request}
    (query : request.query.keys.Nodup) (body : request.body.keys.Nodup) :
    ∃ count next, Populated doc request count next ∧
      ∀ queries fields, queries.Perm request.query → fields.Perm request.body →
        (populate { request with query := queries, body := fields }).runFrom doc =
          (.ok count, next) := by
  have keys : (request.fields .body).keys = request.body.keys := List.map_map
  have distinct : ∀ source, (request.fields source).keys.Nodup := fun
    | .query => query
    | .body => keys ▸ body
  refine ⟨_, _, populated_fill wf distinct, fun queries fields sameQuery sameBody => ?_⟩
  generalize moved : ({ request with query := queries, body := fields } : Request) = other
  have perm : ∀ source, (other.fields source).Perm (request.fields source) := by
    intro source
    subst moved
    cases source with
    | query => exact sameQuery
    | body => exact sameBody.map _
  have apart : ∀ source, (other.fields source).keys.Nodup := fun source =>
    ((perm source).map Prod.fst).nodup_iff.mpr (distinct source)
  have accepts (node : NodeId) (source : FieldSource) (value : String) :
      Accepts doc other node source value ↔ Accepts doc request node source value := by
    rw [accepts_iff wf (apart source), accepts_iff wf (distinct source)]
    simp only [(perm source).mem_iff]
  have receives (node : NodeId) (value : String) :
      Receives doc other node value ↔ Receives doc request node value :=
    ⟨.imp (accepts node), .imp fun source value => (accepts node source value).symm⟩
  have lengths (source : FieldSource) :
      (doc.taken other source).length = (doc.taken request source).length := by
    rw [length_taken, length_taken]
    exact ((perm source).flatMap_right _).length_eq
  rw [runFrom_populate, ← lengths, ← lengths, length_taken, length_taken,
    ← allBrought_congr wf distinct apart receives]
  rfl

/-! A form that posts, a form that gets, panels in both, and elements outside of them. -/

def tagTree (name : String) (attributes : List (String × String))
    (children : List Markup.Tree) : Markup.Tree :=
  .element .html (.plain name) (attributes.map fun item => ⟨.plain item.1, item.2⟩) [] children

def inputTree (name : String) (others : List (String × String)) : Markup.Tree :=
  tagTree "input" (("name", name) :: ("runat", "server") :: others) []

def signupDocument : Document :=
  empty.graftAll root
    [tagTree "form" [("method", "POST")]
      [inputTree "a" [("value", "old")], tagTree "p" [("updatepanel", "true")] [inputTree "b" []]],
    tagTree "form" []
      [inputTree "a" [], tagTree "b" [("updatepanel", "true")] [inputTree "b" []]],
    inputTree "a" [], inputTree "c" [("value", "kept")]]

def signupRequest : Request :=
  ⟨.post, "/", [("a", "q"), ("b", "r")], [("a", .str "x"), ("b", .null)]⟩

theorem populate_signup_eval :
    (((populate signupRequest).runFrom signupDocument).1.toOption,
      ([⟨2⟩, ⟨6⟩, ⟨9⟩, ⟨4⟩, ⟨8⟩, ⟨10⟩] : List NodeId).map fun node =>
        attr? ((populate signupRequest).runFrom signupDocument).2 node "value") =
      (some 7, [some "x", some "q", some "x", some "", some "", some "kept"]) := by
  decide +kernel

/-- The elements `a` receive the body, the query and the body again; both elements `b` the body. -/
theorem exists_populated_signup : ∃ next,
    Populated signupDocument signupRequest 7 next ∧
      ([⟨2⟩, ⟨6⟩, ⟨9⟩, ⟨4⟩, ⟨8⟩, ⟨10⟩] : List NodeId).map (next.attr? · "value") =
        [some "x", some "q", some "x", some "", some "", some "kept"] ∧
      (populate { signupRequest with
        query := [("b", "r"), ("a", "q")], body := [("b", .null), ("a", .str "x")] }).runFrom
          signupDocument = (.ok 7, next) := by
  have wf : signupDocument.WellFormed :=
    (grown_graftAll root wellFormed_empty (by decide) _).1
  have query : signupRequest.query.keys.Nodup := by decide
  have body : signupRequest.body.keys.Nodup := by decide
  obtain ⟨count, next, populated, runs⟩ := exists_populated wf query body
  have straight := runs _ _ (.refl _) (.refl _)
  have swapped := runs [("b", "r"), ("a", "q")] [("b", .null), ("a", .str "x")] (.swap _ _ [])
    (.swap _ _ [])
  have ends := populate_signup_eval
  rw [straight] at ends
  obtain ⟨counted, values⟩ := Prod.mk.inj ends
  cases Option.some.inj counted
  exact ⟨next, populated, values, swapped⟩

end Document

end ServerPages

import ServerPages.Controller.Class
import ServerPages.Proofs.Binding.Keys

/-!
# Which handler a name stands for

A class registers handlers of its own and includes mixins, in any order. Its own handlers
replace one another, those of mixins never do, and the class wins over its mixins. So the
controller has one handler of each name: the last own one, or else that of the first mixin
that provides any; and where a mixin is included makes no difference.
-/

namespace ServerPages

variable {σ ω : Type}

/-! ## Registries -/

namespace Registry

variable {registry : Registry σ ω}

theorem find?_insert (registry : Registry σ ω) (handler : Handler σ ω) (name : String) :
    (registry.insert handler).find? name =
      if handler.info.name = name then some handler else registry.find? name := by
  unfold insert find?
  induction registry.handlers with
  | nil => simp [insertIn]
  | cons first rest ih =>
      rw [insertIn]
      by_cases same : first.info.name = handler.info.name
      · rw [if_pos same, List.find?_cons, List.find?_cons, same]
        by_cases here : handler.info.name = name <;> simp [here]
      · rw [if_neg same, List.find?_cons, List.find?_cons, ih]
        by_cases here : first.info.name = name
        · have elsewhere : handler.info.name ≠ name := fun hit => same (here.trans hit.symm)
          simp [here, elsewhere]
        · simp [here]

theorem find?_insertMissing (registry : Registry σ ω) (handler : Handler σ ω) (name : String) :
    (registry.insertMissing handler).find? name =
      (registry.find? name).or (if handler.info.name = name then some handler else none) := by
  unfold insertMissing
  split
  · rename_i taken
    by_cases here : handler.info.name = name
    · obtain ⟨earlier, found⟩ := Option.isSome_iff_exists.mp (here ▸ taken)
      rw [found, Option.some_or]
    · rw [if_neg here, Option.or_none]
  · unfold find?
    rw [List.find?_append, List.find?_singleton]
    simp only [decide_eq_true_eq]

theorem find?_mergeMissing (registry other : Registry σ ω) (name : String) :
    (registry.mergeMissing other).find? name = (registry.find? name).or (other.find? name) := by
  unfold mergeMissing
  have folded (handlers : List (Handler σ ω)) : (handlers.foldl insertMissing registry).find? name =
      (registry.find? name).or (handlers.find? (·.info.name = name)) := by
    induction handlers generalizing registry with
    | nil => rw [List.foldl_nil, List.find?_nil, Option.or_none]
    | cons first rest ih =>
        rw [List.foldl_cons, ih, find?_insertMissing, Option.or_assoc, List.find?_cons]
        by_cases here : first.info.name = name <;> simp [here]
  exact folded other.handlers

theorem mem_insertIn {handler other : Handler σ ω} {handlers : List (Handler σ ω)}
    (member : other ∈ insertIn handler handlers) : other = handler ∨ other ∈ handlers := by
  induction handlers with
  | nil => exact .inl (List.mem_singleton.mp member)
  | cons first rest ih =>
      rw [insertIn] at member
      split at member
      · exact (List.mem_cons.mp member).imp_right (List.mem_cons_of_mem _)
      · rcases List.mem_cons.mp member with here | later
        · exact .inr (here ▸ List.mem_cons_self)
        · exact (ih later).imp_right (List.mem_cons_of_mem _)

/-! The names of a registry are in the order in which they came first. -/

theorem eraseDups_concat (names : List String) (name : String) :
    (names ++ [name]).eraseDups =
      if name ∈ names then names.eraseDups else names.eraseDups ++ [name] := by
  rw [List.eraseDups_append]
  split
  · rename_i known
    simp [List.removeAll, known]
  · rename_i new
    simp [List.removeAll, new, List.eraseDups_cons]

theorem eraseDups_append_eraseDups (names more : List String) :
    (names ++ more.eraseDups).eraseDups = (names ++ more).eraseDups := by
  induction more using List.reverseRecOn with
  | nil => rfl
  | append_singleton more name ih =>
      rw [eraseDups_concat, ← List.append_assoc, eraseDups_concat]
      by_cases known : name ∈ more
      · rw [if_pos known, ih, if_pos (List.mem_append_right names known)]
      · rw [if_neg known, ← List.append_assoc, eraseDups_concat, ih]
        simp only [List.mem_append, List.mem_eraseDups]

theorem names_insert {names : List String} (known : registry.names = names.eraseDups)
    (handler : Handler σ ω) :
    (registry.insert handler).names = (names ++ [handler.info.name]).eraseDups := by
  have inserted := names_insertIn handler registry.handlers
  change (registry.insert handler).names = if handler.info.name ∈ registry.names then
    registry.names else registry.names ++ [handler.info.name] at inserted
  rw [inserted, eraseDups_concat, known]
  simp only [List.mem_eraseDups]

theorem names_insertMissing {names : List String} (known : registry.names = names.eraseDups)
    (handler : Handler σ ω) :
    (registry.insertMissing handler).names = (names ++ [handler.info.name]).eraseDups := by
  have taken := find?_isSome_iff registry handler.info.name
  rw [known, List.mem_eraseDups] at taken
  rw [insertMissing, eraseDups_concat]
  by_cases member : handler.info.name ∈ names
  · rw [if_pos (taken.mpr member), if_pos member]
    exact known
  · rw [if_neg fun found => member (taken.mp found), if_neg member, ← known]
    unfold Registry.names
    rw [List.map_append, List.map_singleton]

theorem names_mergeMissing {names : List String} (known : registry.names = names.eraseDups)
    (other : Registry σ ω) :
    (registry.mergeMissing other).names = (names ++ other.names).eraseDups := by
  unfold mergeMissing
  have folded (handlers : List (Handler σ ω)) : (handlers.foldl insertMissing registry).names =
      (names ++ handlers.map (·.info.name)).eraseDups := by
    induction handlers generalizing registry names with
    | nil => rw [List.foldl_nil, List.map_nil, List.append_nil, known]
    | cons first rest ih =>
        rw [List.foldl_cons, ih (names_insertMissing known first), List.map_cons,
          List.append_assoc, List.singleton_append]
  exact folded other.handlers

end Registry

/-! ## Putting classes together -/

structure Handler.Draft (σ ω : Type) : Type 1 where
  Values : Type
  name : String
  callable : Bool
  parameters : Parameters Values
  body : ServerEvent → Values → Work σ ω Json

def Handler.Draft.handler (draft : Handler.Draft σ ω) (owner : String) : Handler σ ω :=
  .of owner draft.name draft.callable draft.parameters draft.body

namespace Mixin

inductive Part (σ ω : Type) : Type 1
  | handler (draft : Handler.Draft σ ω)
  | allCallable

def add (mixin : Mixin σ ω) : Part σ ω → Mixin σ ω
  | .handler draft => mixin.handler draft.name draft.callable draft.parameters draft.body
  | .allCallable => mixin.allCallable

structure Draft (σ ω : Type) : Type 1 where
  name : String
  parts : List (Part σ ω)

def Draft.mixin (draft : Draft σ ω) : Mixin σ ω :=
  draft.parts.foldl add (.named draft.name)

/-- All handlers of a mixin tell its name. -/
def Signed (mixin : Mixin σ ω) : Prop :=
  ∀ handler ∈ mixin.handlers.handlers, handler.info.owner = mixin.name

theorem add_name (mixin : Mixin σ ω) (part : Part σ ω) : (mixin.add part).name = mixin.name := by
  cases part <;> rfl

theorem Signed.add {mixin : Mixin σ ω} (signed : mixin.Signed) (part : Part σ ω) :
    (mixin.add part).Signed := by
  intro handler member
  rw [add_name]
  cases part with
  | handler draft =>
      rcases Registry.mem_insertIn member with rfl | old
      · rfl
      · exact signed handler old
  | allCallable =>
      obtain ⟨old, earlier, rfl⟩ := List.mem_map.mp member
      exact signed old earlier

theorem Draft.signed (draft : Draft σ ω) :
    draft.mixin.Signed ∧ draft.mixin.name = draft.name := by
  unfold Draft.mixin
  have start : (Mixin.named draft.name : Mixin σ ω).Signed := fun _ member => nomatch member
  have named : (Mixin.named draft.name : Mixin σ ω).name = draft.name := rfl
  generalize Mixin.named draft.name = mixin at start named
  induction draft.parts generalizing mixin with
  | nil => exact ⟨start, named⟩
  | cons part parts ih => exact ih _ (start.add part) ((add_name mixin part).trans named)

end Mixin

namespace ControllerClass

inductive Part (σ ω : Type) : Type 1
  | handler (draft : Handler.Draft σ ω)
  | mixin (draft : Mixin.Draft σ ω)

def Part.handler? : Part σ ω → Option (Handler.Draft σ ω)
  | .handler draft => some draft
  | .mixin _ => none

def Part.mixin? : Part σ ω → Option (Mixin.Draft σ ω)
  | .handler _ => none
  | .mixin draft => some draft

def add (cls : ControllerClass σ ω) : Part σ ω → ControllerClass σ ω
  | .handler draft => cls.handler draft.name draft.callable draft.parameters draft.body
  | .mixin draft => cls.including draft.mixin

def addAll (cls : ControllerClass σ ω) (parts : List (Part σ ω)) : ControllerClass σ ω :=
  parts.foldl add cls

def registered (owner : String) (drafts : List (Handler.Draft σ ω)) (registry : Registry σ ω) :
    Registry σ ω :=
  drafts.foldl (fun registry draft => registry.insert (draft.handler owner)) registry

/-- A registry with what it lacks of mixins, one after the other. -/
def completed (drafts : List (Mixin.Draft σ ω)) (registry : Registry σ ω) : Registry σ ω :=
  drafts.foldl (fun registry draft => registry.mergeMissing draft.mixin.handlers) registry

/-- The own handlers of a class and those of its mixins do not mix before the class is built. -/
theorem addAll_eq (cls : ControllerClass σ ω) (parts : List (Part σ ω)) :
    cls.addAll parts =
      { cls with
        own := registered cls.name (parts.filterMap Part.handler?) cls.own
        included := completed (parts.filterMap Part.mixin?) cls.included } := by
  unfold addAll
  induction parts generalizing cls with
  | nil => rfl
  | cons part parts ih =>
      rw [List.foldl_cons, ih]
      cases part <;> rfl

theorem find?_registered (owner : String) (drafts : List (Handler.Draft σ ω))
    (registry : Registry σ ω) (name : String) :
    (registered owner drafts registry).find? name =
      (((drafts.map (·.handler owner)).reverse.find? (·.info.name = name))).or
        (registry.find? name) := by
  unfold registered
  induction drafts generalizing registry with
  | nil => rfl
  | cons draft drafts ih =>
      rw [List.foldl_cons, ih, Registry.find?_insert, List.map_cons, List.reverse_cons,
        List.find?_append, Option.or_assoc, List.find?_singleton]
      by_cases here : (draft.handler owner).info.name = name <;> simp [here]

theorem names_registered {owner : String} {registry : Registry σ ω} {names : List String}
    (known : registry.names = names.eraseDups) (drafts : List (Handler.Draft σ ω)) :
    (registered owner drafts registry).names = (names ++ drafts.map (·.name)).eraseDups := by
  unfold registered
  induction drafts generalizing registry names with
  | nil => rw [List.foldl_nil, List.map_nil, List.append_nil, known]
  | cons draft drafts ih =>
      rw [List.foldl_cons, ih (Registry.names_insert known (draft.handler owner)), List.map_cons,
        List.append_assoc, List.singleton_append]
      rfl

theorem find?_completed (drafts : List (Mixin.Draft σ ω)) (registry : Registry σ ω)
    (name : String) :
    (completed drafts registry).find? name =
      (registry.find? name).or (drafts.findSome? (·.mixin.handlers.find? name)) := by
  unfold completed
  induction drafts generalizing registry with
  | nil => rw [List.foldl_nil, List.findSome?_nil, Option.or_none]
  | cons draft drafts ih =>
      rw [List.foldl_cons, ih, Registry.find?_mergeMissing, Option.or_assoc, List.findSome?_cons]
      cases draft.mixin.handlers.find? name <;> rfl

theorem names_completed {registry : Registry σ ω} {names : List String}
    (known : registry.names = names.eraseDups) (drafts : List (Mixin.Draft σ ω)) :
    (completed drafts registry).names =
      (names ++ drafts.flatMap (·.mixin.handlers.names)).eraseDups := by
  unfold completed
  induction drafts generalizing registry names with
  | nil => rw [List.foldl_nil, List.flatMap_nil, List.append_nil, known]
  | cons draft drafts ih =>
      rw [List.foldl_cons, ih (Registry.names_mergeMissing known draft.mixin.handlers),
        List.flatMap_cons, List.append_assoc]

/-- The registry of the controller that is built. -/
theorem handlers_build (cls : ControllerClass σ ω) :
    cls.build.handlers = cls.own.mergeMissing cls.included := rfl

end ControllerClass

namespace Controller

def invoke? (controller : Controller σ ω) (name : String) (event : ServerEvent)
    (args : List Json) : Option (Procedure (Live σ ω) (Halt PageError) (Option Json)) :=
  (controller.handlers.find? name).map (·.invoke event args)

/-- The handler of a name is the one that is listed, the one that is told of and the one that runs;
or there is none in any of these. -/
inductive Agrees (controller : Controller σ ω) (name : String) : Prop
  | registered (handler : Handler σ ω) (listed : handler ∈ controller.handlers.handlers)
      (named : handler.info.name = name) (told : controller.handlerInfo? name = some handler.info)
      (runs : ∀ event args,
        controller.invoke? name event args = some (handler.invoke event args))
  | unknown (unlisted : name ∉ controller.handlers.infos.map (·.name))
      (untold : controller.handlerInfo? name = none)
      (idle : ∀ event args, controller.invoke? name event args = none)

theorem agrees (controller : Controller σ ω) (name : String) : controller.Agrees name := by
  cases found : controller.handlers.find? name with
  | some handler =>
      have hit : controller.handlers.handlers.find? (·.info.name = name) = some handler := found
      have named := List.find?_some hit
      refine .registered handler (List.mem_of_find?_eq_some hit) ?_ ?_ fun event args => ?_
      · exact of_decide_eq_true named
      · rw [handlerInfo?, found, Option.map_some]
      · rw [invoke?, found, Option.map_some]
  | none =>
      refine .unknown (fun member => ?_) ?_ fun event args => ?_
      · obtain ⟨info, known, same⟩ := List.mem_map.mp member
        obtain ⟨handler, listed, rfl⟩ := List.mem_map.mp known
        exact List.find?_eq_none.mp found handler listed (decide_eq_true same)
      · rw [handlerInfo?, found, Option.map_none]
      · rw [invoke?, found, Option.map_none]

/-- The handlers of a class with handlers and mixins of its own: each own name with its last
handler, then each name that only mixins provide with the handler of the first that does. -/
structure Settled (controller : Controller σ ω) (own : List (Handler σ ω))
    (mixins : List (Mixin σ ω)) : Prop where
  names : controller.handlers.names = (own.map (·.info.name)).eraseDups ++
    ((mixins.flatMap (·.handlers.names)).removeAll (own.map (·.info.name))).eraseDups
  distinct : controller.handlers.names.Nodup
  last (name : String) (mine : name ∈ own.map (·.info.name)) : ∃ earlier handler later,
    own = earlier ++ handler :: later ∧ handler.info.name = name ∧
      name ∉ later.map (·.info.name) ∧ controller.handlers.find? name = some handler
  first (name : String) (provided : name ∈ mixins.flatMap (·.handlers.names))
    (others : name ∉ own.map (·.info.name)) : ∃ earlier mixin later handler,
    mixins = earlier ++ mixin :: later ∧ name ∉ earlier.flatMap (·.handlers.names) ∧
      mixin.handlers.find? name = some handler ∧ handler.info.owner = mixin.name ∧
        controller.handlers.find? name = some handler
  agrees (name : String) : controller.Agrees name

end Controller

namespace ControllerClass

variable {cls : ControllerClass σ ω} {name : String}

/-- A class that starts without handlers has the names of its own ones and then others of mixins. -/
theorem names_build_addAll (bare : cls.own = .empty ∧ cls.included = .empty)
    (parts : List (Part σ ω)) :
    (cls.addAll parts).build.handlers.names =
      ((parts.filterMap Part.handler?).map (·.name) ++
        (parts.filterMap Part.mixin?).flatMap (·.mixin.handlers.names)).eraseDups := by
  have nothing : (Registry.empty : Registry σ ω).names = ([] : List String).eraseDups := rfl
  rw [handlers_build, addAll_eq, bare.1, bare.2,
    Registry.names_mergeMissing (names_registered nothing _), names_completed nothing,
    List.nil_append, List.nil_append, Registry.eraseDups_append_eraseDups]

theorem find?_build_addAll (bare : cls.own = .empty ∧ cls.included = .empty)
    (parts : List (Part σ ω)) (name : String) :
    (cls.addAll parts).build.handlers.find? name =
      ((((parts.filterMap Part.handler?).map (·.handler cls.name)).reverse.find?
        (·.info.name = name))).or
        ((parts.filterMap Part.mixin?).findSome? (·.mixin.handlers.find? name)) := by
  have nothing : (Registry.empty : Registry σ ω).find? name = none := rfl
  rw [handlers_build, addAll_eq, bare.1, bare.2, Registry.find?_mergeMissing, find?_registered,
    find?_completed, nothing, Option.or_none, Option.none_or]

/-- The last own handler of a name counts, whatever mixins provide. -/
theorem exists_last {own : List (Handler σ ω)} (mine : name ∈ own.map (·.info.name)) :
    ∃ earlier handler later, own = earlier ++ handler :: later ∧ handler.info.name = name ∧
      name ∉ later.map (·.info.name) ∧ own.reverse.find? (·.info.name = name) = some handler := by
  have some : (own.reverse.find? (·.info.name = name)).isSome := by simpa using mine
  obtain ⟨handler, found⟩ := Option.isSome_iff_exists.mp some
  obtain ⟨named, behind, ahead, whole, passed⟩ := List.find?_eq_some_iff_append.mp found
  refine ⟨ahead.reverse, handler, behind.reverse, ?_, of_decide_eq_true named, ?_, found⟩
  · rw [← List.reverse_reverse own, whole, List.reverse_append, List.reverse_cons,
      List.append_assoc, List.singleton_append]
  · intro member
    obtain ⟨other, later, same⟩ := List.mem_map.mp member
    have apart := passed other (List.mem_reverse.mp later)
    simp [same] at apart

/-- Of the mixins that provide a name the first one counts. -/
theorem exists_first {mixins : List (Mixin σ ω)}
    (provided : name ∈ mixins.flatMap (·.handlers.names)) :
    ∃ earlier mixin later handler, mixins = earlier ++ mixin :: later ∧
      name ∉ earlier.flatMap (·.handlers.names) ∧ mixin.handlers.find? name = some handler ∧
        mixins.findSome? (·.handlers.find? name) = some handler := by
  obtain ⟨source, among, named⟩ := List.mem_flatMap.mp provided
  have some : (mixins.findSome? (·.handlers.find? name)).isSome :=
    List.findSome?_isSome_iff.mpr
      ⟨source, among, (Registry.find?_isSome_iff source.handlers name).mpr named⟩
  obtain ⟨handler, found⟩ := Option.isSome_iff_exists.mp some
  obtain ⟨earlier, mixin, later, whole, here, passed⟩ := List.findSome?_eq_some_iff.mp found
  refine ⟨earlier, mixin, later, handler, whole, fun member => ?_, here, found⟩
  obtain ⟨other, before, listed⟩ := List.mem_flatMap.mp member
  have present := (Registry.find?_isSome_iff other.handlers name).mpr listed
  rw [passed other before] at present
  cases present

/-- A controller has its own handlers, each as it was registered last, in front of those that only
mixins provide, each as the first of them has it; where mixins are included among its own handlers
makes no difference. -/
theorem settled_build (name : String) (construct : Request → Except Failure σ)
    (hooks : Hooks σ ω) (title view : Option String) (parts : List (Part σ ω)) :
    let start : ControllerClass σ ω := ⟨name, construct, hooks, .empty, .empty, title, view⟩
    (start.addAll parts).build.Settled
        ((parts.filterMap Part.handler?).map (·.handler name))
        ((parts.filterMap Part.mixin?).map (·.mixin)) ∧
      ∀ others, others.filterMap Part.handler? = parts.filterMap Part.handler? →
        others.filterMap Part.mixin? = parts.filterMap Part.mixin? →
          (start.addAll others).build = (start.addAll parts).build := by
  intro start
  have bare : start.own = .empty ∧ start.included = .empty := ⟨rfl, rfl⟩
  have names := names_build_addAll bare parts
  have lookup := find?_build_addAll bare parts
  have ownNames : ((parts.filterMap Part.handler?).map (·.handler name)).map (·.info.name) =
      (parts.filterMap Part.handler?).map (·.name) := List.map_map
  have mixinNames : ((parts.filterMap Part.mixin?).map (·.mixin)).flatMap (·.handlers.names) =
      (parts.filterMap Part.mixin?).flatMap (·.mixin.handlers.names) := by
    rw [List.flatMap_map]
  refine ⟨⟨?_, ?_, fun wanted mine => ?_, fun wanted provided others => ?_, fun wanted => ?_⟩,
    fun others sameOwn sameMixins => ?_⟩
  · rw [names, List.eraseDups_append, ownNames, mixinNames]
  · have distinct := Binding.nodup_tableOf id ((parts.filterMap Part.handler?).map (·.name) ++
      (parts.filterMap Part.mixin?).flatMap (·.mixin.handlers.names))
    rw [List.map_id, Binding.tableOf_id] at distinct
    rw [names]
    exact distinct
  · obtain ⟨earlier, handler, later, whole, named, last, found⟩ := exists_last mine
    refine ⟨earlier, handler, later, whole, named, last, ?_⟩
    rw [lookup, found, Option.some_or]
  · obtain ⟨earlier, mixin, later, handler, whole, first, here, found⟩ := exists_first provided
    -- a name that only mixins provide is not found among the own handlers
    have mine : (((parts.filterMap Part.handler?).map (·.handler name)).reverse.find?
        (·.info.name = wanted)) = none := by
      rw [List.find?_eq_none]
      intro handler member hit
      refine others (List.mem_map.mpr ⟨handler, List.mem_reverse.mp member, ?_⟩)
      exact of_decide_eq_true hit
    have among : mixin ∈ (parts.filterMap Part.mixin?).map (·.mixin) :=
      whole ▸ List.mem_append_right _ List.mem_cons_self
    obtain ⟨draft, _, rfl⟩ := List.mem_map.mp among
    refine ⟨earlier, draft.mixin, later, handler, whole, first, here, ?_, ?_⟩
    · exact draft.signed.1 handler (List.mem_of_find?_eq_some here)
    · rw [List.findSome?_map] at found
      rw [lookup, mine, Option.none_or]
      exact found
  · exact Controller.agrees _ wanted
  · rw [addAll_eq, addAll_eq, sameOwn, sameMixins]

def idle (name : String) (callable : Bool) : Handler.Draft Unit Unit :=
  ⟨Unit, name, callable, .nil, fun _ _ => return .null⟩

def resetting : Mixin.Draft Unit Unit :=
  ⟨"Resetting", [.handler (idle "reset" false), .handler (idle "add" false), .allCallable]⟩

/-- A class that includes the mixin first, and registers a handler twice. -/
def countingParts : List (Part Unit Unit) :=
  [.mixin resetting, .handler (idle "add" true), .handler (idle "fail" false),
    .mixin ⟨"Late", [.handler (idle "reset" false), .handler (idle "log" false)]⟩,
    .handler (idle "add" false)]

def movedParts : List (Part Unit Unit) :=
  [.handler (idle "add" true), .handler (idle "fail" false), .handler (idle "add" false),
    .mixin resetting, .mixin ⟨"Late", [.handler (idle "reset" false), .handler (idle "log" false)]⟩]

theorem settled_build_counting :
    let start : ControllerClass Unit Unit :=
      ⟨"Counter", fun _ => .ok (), .none, .empty, .empty, none, none⟩
    let controller := (start.addAll countingParts).build
    controller.handlers.infos =
        [⟨"add", some 0, "Counter", false⟩, ⟨"fail", some 0, "Counter", false⟩,
          ⟨"reset", some 0, "Resetting", true⟩, ⟨"log", some 0, "Late", false⟩] ∧
      controller.Settled ((countingParts.filterMap Part.handler?).map (·.handler "Counter"))
        ((countingParts.filterMap Part.mixin?).map (·.mixin)) ∧
      (start.addAll movedParts).build = controller := by
  intro start controller
  obtain ⟨settled, moved⟩ :=
    settled_build "Counter" (fun _ => .ok ()) .none none none countingParts
  exact ⟨by decide +kernel, settled, moved movedParts rfl rfl⟩

end ControllerClass

end ServerPages

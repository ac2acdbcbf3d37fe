import Mathlib.Data.List.Dedup
import Mathlib.Data.List.Perm.Subperm
import ServerPages.Loader.Load
import ServerPages.Proofs.Cache.Calls
import ServerPages.Proofs.Procedure

/-!
# Controllers asked for at the same time

Clients that ask for controllers share what is remembered. Each looks for its name, loads it if it
was not found, and then remembers what was loaded unless another client was faster. Between two
steps of one client any other may take any of its own, so that a name may be loaded more than once.
What is remembered for it first is what all of them are given, where there is room for each name.
-/

namespace ServerPages

open Procedure

variable {σ ω : Type}

namespace Loader

theorem runFrom_remembered (name : String) (store : Store σ ω) :
    (remembered name).runFrom store = (.ok (store.controllers.get? name), store) := rfl

theorem runFrom_onShared_load (loader : Loader σ ω) (name : String) (store : Store σ ω) :
    (Store.onShared (loader.load name)).runFrom store =
      (((loader.load name).runFrom store.shared).1,
        { store with shared := ((loader.load name).runFrom store.shared).2 }) := rfl

theorem runFrom_remember (name : String) (controller : Controller σ ω) (store : Store σ ω) :
    (remember name controller).runFrom store =
      match store.controllers.get? name with
      | some held => (.ok held, store)
      | none => (.ok controller,
          { store with controllers := store.controllers.set name controller }) := by
  change (Except.ok (store.controllers.getOrInsert name fun _ => controller).1,
    { store with
      controllers := (store.controllers.getOrInsert name fun _ => controller).2.2 }) = _
  cases known : store.controllers.get? name with
  | some held => rw [Cache.getOrInsert_of_get? known]
  | none => rw [Cache.getOrInsert_of_absent known]

theorem runFrom_resolve_of_absent {loader : Loader σ ω} {name : String}
    {controller : Controller σ ω} {store : Store σ ω} {shared : ω}
    (absent : store.controllers.get? name = none)
    (loads : (loader.load name).runFrom store.shared = (.ok (.controller controller), shared)) :
    (loader.resolve name).runFrom store =
      (.ok controller, { store with
        controllers := store.controllers.set name controller
        shared }) := by
  have loaded := runFrom_onShared_load loader name store
  rw [loads] at loaded
  rw [resolve, runFrom_bind_ok (runFrom_remembered name store), absent]
  have remembers := runFrom_remember name controller { store with shared }
  rw [absent] at remembers
  exact (runFrom_bind_ok loaded).trans remembers

end Loader

/-! ## Steps of one client -/

inductive Resolution (σ ω : Type)
  | begun
  /-- Nothing was remembered. -/
  | missed
  | loaded (controller : Controller σ ω)
  | ended (result : Except PageError (Controller σ ω))

namespace Resolution

def next (loader : Loader σ ω) (name : String) :
    Resolution σ ω → Procedure (Store σ ω) PageError (Resolution σ ω)
  | .begun => do
      match ← Loader.remembered name with
      | some controller => return .ended (.ok controller)
      | none => return .missed
  | .missed => do
      match ← Store.onShared (loader.load name) with
      | .controller controller => return .loaded controller
      | .mixin _ => throw (.notAController name)
  | .loaded controller => do
      return .ended (.ok (← Loader.remember name controller))
  | .ended result => return .ended result

/-- What a step leads to; a step that fails ends the resolution. -/
def step (loader : Loader σ ω) (name : String) (resolution : Resolution σ ω)
    (store : Store σ ω) : Resolution σ ω × Store σ ω :=
  match (resolution.next loader name).runFrom store with
  | (.ok resolution, store) => (resolution, store)
  | (.error error, store) => (.ended (.error error), store)

inductive Moves (loader : Loader σ ω) (name : String) (store : Store σ ω) :
    Resolution σ ω → Resolution σ ω × Store σ ω → Prop
  | found {controller : Controller σ ω} (known : store.controllers.get? name = some controller) :
      Moves loader name store .begun (.ended (.ok controller), store)
  | missed (absent : store.controllers.get? name = none) :
      Moves loader name store .begun (.missed, store)
  | loaded {controller : Controller σ ω} {shared : ω}
      (loads : (loader.load name).runFrom store.shared = (.ok (.controller controller), shared)) :
      Moves loader name store .missed (.loaded controller, { store with shared })
  | mixin {mixin : Mixin σ ω} {shared : ω}
      (loads : (loader.load name).runFrom store.shared = (.ok (.mixin mixin), shared)) :
      Moves loader name store .missed
        (.ended (.error (.notAController name)), { store with shared })
  | failed {error : PageError} {shared : ω}
      (loads : (loader.load name).runFrom store.shared = (.error error, shared)) :
      Moves loader name store .missed (.ended (.error error), { store with shared })
  | late {controller held : Controller σ ω}
      (known : store.controllers.get? name = some held) :
      Moves loader name store (.loaded controller) (.ended (.ok held), store)
  | first {controller : Controller σ ω} (absent : store.controllers.get? name = none) :
      Moves loader name store (.loaded controller) (.ended (.ok controller),
        { store with controllers := store.controllers.set name controller })
  | done (result : Except PageError (Controller σ ω)) :
      Moves loader name store (.ended result) (.ended result, store)

theorem step_begun (loader : Loader σ ω) (name : String) (store : Store σ ω) :
    begun.step loader name store =
      match store.controllers.get? name with
      | some controller => (.ended (.ok controller), store)
      | none => (.missed, store) := by
  rw [step, next, runFrom_bind_ok (Loader.runFrom_remembered name store)]
  cases store.controllers.get? name <;> rfl

theorem step_missed (loader : Loader σ ω) (name : String) (store : Store σ ω) :
    missed.step loader name store =
      match (loader.load name).runFrom store.shared with
      | (.ok (.controller controller), shared) => (.loaded controller, { store with shared })
      | (.ok (.mixin _), shared) =>
          (.ended (.error (.notAController name)), { store with shared })
      | (.error error, shared) => (.ended (.error error), { store with shared }) := by
  have loads := Loader.runFrom_onShared_load loader name store
  rcases run : (loader.load name).runFrom store.shared with ⟨error | ⟨controller | mixin⟩, shared⟩
  · rw [step, next, runFrom_bind_error (loads.trans (by rw [run]))]
  · rw [step, next, runFrom_bind_ok (loads.trans (by rw [run]))]
    rfl
  · rw [step, next, runFrom_bind_ok (loads.trans (by rw [run]))]
    rfl

theorem step_loaded (loader : Loader σ ω) (name : String) (controller : Controller σ ω)
    (store : Store σ ω) :
    (loaded controller).step loader name store =
      match store.controllers.get? name with
      | some held => (.ended (.ok held), store)
      | none => (.ended (.ok controller),
          { store with controllers := store.controllers.set name controller }) := by
  have remembers := Loader.runFrom_remember name controller store
  cases known : store.controllers.get? name with
  | some held => rw [step, next, runFrom_bind_ok (remembers.trans (by rw [known]))]; rfl
  | none => rw [step, next, runFrom_bind_ok (remembers.trans (by rw [known]))]; rfl

theorem moves_step (loader : Loader σ ω) (name : String) (resolution : Resolution σ ω)
    (store : Store σ ω) :
    Moves loader name store resolution (resolution.step loader name store) := by
  cases resolution with
  | begun =>
      rw [step_begun]
      cases known : store.controllers.get? name with
      | none => exact .missed known
      | some controller => exact .found known
  | missed =>
      rw [step_missed]
      rcases loads : (loader.load name).runFrom store.shared with
        ⟨error | ⟨controller | mixin⟩, shared⟩
      · exact .failed loads
      · exact .loaded loads
      · exact .mixin loads
  | loaded controller =>
      rw [step_loaded]
      cases known : store.controllers.get? name with
      | none => exact .first known
      | some held => exact .late known
  | ended result => exact .done result

def remaining (loader : Loader σ ω) (name : String) :
    Resolution σ ω → Procedure (Store σ ω) PageError (Controller σ ω)
  | .begun => loader.resolve name
  | .missed => do
      match ← Store.onShared (loader.load name) with
      | .controller controller => Loader.remember name controller
      | .mixin _ => throw (.notAController name)
  | .loaded controller => Loader.remember name controller
  | .ended result => .ofRun fun store => (result, store)

theorem remaining_step (loader : Loader σ ω) (name : String) (resolution : Resolution σ ω)
    (store : Store σ ω) :
    let moved := resolution.step loader name store
    (moved.1.remaining loader name).runFrom moved.2 =
      (resolution.remaining loader name).runFrom store := by
  cases resolution with
  | begun =>
      rw [step_begun, remaining, Loader.resolve,
        runFrom_bind_ok (Loader.runFrom_remembered name store)]
      cases store.controllers.get? name <;> rfl
  | missed =>
      have loads := Loader.runFrom_onShared_load loader name store
      rw [step_missed, remaining]
      rcases run : (loader.load name).runFrom store.shared with
        ⟨error | ⟨controller | mixin⟩, shared⟩
      · rw [runFrom_bind_error (loads.trans (by rw [run]))]
        rfl
      · rw [runFrom_bind_ok (loads.trans (by rw [run]))]
        rfl
      · rw [runFrom_bind_ok (loads.trans (by rw [run]))]
        rfl
  | loaded controller =>
      rw [step_loaded, remaining, Loader.runFrom_remember]
      cases store.controllers.get? name <;> rfl
  | ended result => rfl

/-- How many steps there are at most until a resolution has ended. -/
def stepsLeft : Resolution σ ω → Nat
  | .begun => 3
  | .missed => 2
  | .loaded _ => 1
  | .ended _ => 0

theorem stepsLeft_step (loader : Loader σ ω) (name : String) (resolution : Resolution σ ω)
    (store : Store σ ω) :
    (resolution.step loader name store).1.stepsLeft ≤ resolution.stepsLeft - 1 := by
  have moves := moves_step loader name resolution store
  generalize resolution.step loader name store = moved at moves
  cases moves <;> simp [stepsLeft]

theorem exists_ended_of_stepsLeft {resolution : Resolution σ ω}
    (none : resolution.stepsLeft = 0) : ∃ result, resolution = .ended result := by
  cases resolution with
  | ended result => exact ⟨result, rfl⟩
  | begun | missed | loaded => cases none

/-- A client that is left alone resolves its name in three steps. -/
theorem step_alone (loader : Loader σ ω) (name : String) (store : Store σ ω) :
    let turn := fun state : Resolution σ ω × Store σ ω => state.1.step loader name state.2
    let resolved := (loader.resolve name).runFrom store
    turn (turn (turn (.begun, store))) = (.ended resolved.1, resolved.2) := by
  intro turn resolved
  have fewer (state : Resolution σ ω × Store σ ω) :
      (turn state).1.stepsLeft ≤ state.1.stepsLeft - 1 :=
    stepsLeft_step loader name state.1 state.2
  have kept (state : Resolution σ ω × Store σ ω) :
      ((turn state).1.remaining loader name).runFrom (turn state).2 =
        (state.1.remaining loader name).runFrom state.2 :=
    remaining_step loader name state.1 state.2
  obtain ⟨result, ended⟩ : ∃ result, (turn (turn (turn (.begun, store)))).1 = .ended result := by
    apply exists_ended_of_stepsLeft
    have first : (turn (.begun, store)).1.stepsLeft ≤ 2 := fewer (.begun, store)
    have second := fewer (turn (.begun, store))
    have third := fewer (turn (turn (.begun, store)))
    omega
  have whole := (kept (turn (turn (.begun, store)))).trans
    ((kept (turn (.begun, store))).trans (kept (.begun, store)))
  rw [ended] at whole
  have same : (result, (turn (turn (turn (.begun, store)))).2) = resolved := whole
  rw [← same]
  exact Prod.ext ended rfl

end Resolution

/-! ## Clients in turn -/

/-- Clients that ask for controllers, each with the name that it asks for, and what they share. -/
structure Clients (σ ω : Type) where
  store : Store σ ω
  asking : List (String × Resolution σ ω)

inductive Turn (ω : Type)
  /-- The client at a place takes its next step. -/
  | client (place : Nat)
  /-- Something else changes what loads depend on. -/
  | elsewhere (change : ω → ω)

namespace Clients

def turn (loader : Loader σ ω) (clients : Clients σ ω) : Turn ω → Clients σ ω
  | .client place =>
      match clients.asking[place]? with
      | none => clients
      | some (name, resolution) =>
          let (resolution, store) := resolution.step loader name clients.store
          ⟨store, clients.asking.set place (name, resolution)⟩
  | .elsewhere change =>
      { clients with store.shared := change clients.store.shared }

/-- Clients that ask for names, with no controller remembered. -/
def start (names : List String) (templates : Cache String) (capacity : Nat) (shared : ω) :
    Clients σ ω :=
  ⟨⟨templates, .empty capacity, shared⟩, names.map (·, .begun)⟩

def names (clients : Clients σ ω) : List String :=
  clients.asking.map Prod.fst

def after (loader : Loader σ ω) (clients : Clients σ ω) : List (Turn ω) → Clients σ ω
  | [] => clients
  | turn :: past => (after loader clients past).turn loader turn

variable {loader : Loader σ ω} {clients : Clients σ ω} {capacity : Nat}
  {past earlier : List (Turn ω)} {place : Nat} {name : String} {controller : Controller σ ω}

inductive Turned (loader : Loader σ ω) (clients : Clients σ ω) : Turn ω → Clients σ ω → Prop
  /-- There is no client at the place. -/
  | nobody {place : Nat} (none : clients.asking[place]? = none) :
      Turned loader clients (.client place) clients
  | moved {place : Nat} {name : String} {resolution : Resolution σ ω}
      {moved : Resolution σ ω × Store σ ω}
      (asks : clients.asking[place]? = some (name, resolution))
      (moves : Resolution.Moves loader name clients.store resolution moved) :
      Turned loader clients (.client place) ⟨moved.2, clients.asking.set place (name, moved.1)⟩
  | elsewhere (change : ω → ω) :
      Turned loader clients (.elsewhere change)
        { clients with store.shared := change clients.store.shared }

theorem turned (loader : Loader σ ω) (clients : Clients σ ω) (turn : Turn ω) :
    Turned loader clients turn (clients.turn loader turn) := by
  cases turn with
  | elsewhere change => exact .elsewhere change
  | client place =>
      rw [Clients.turn]
      cases asks : clients.asking[place]? with
      | none => exact .nobody asks
      | some entry => exact .moved asks (Resolution.moves_step loader entry.1 entry.2 clients.store)

/-- A load of a name yielded a controller at one of the turns. -/
def Loaded (loader : Loader σ ω) (clients : Clients σ ω) (past : List (Turn ω)) (name : String)
    (controller : Controller σ ω) : Prop :=
  ∃ place earlier, (.client place :: earlier) <:+ past ∧
    (clients.after loader earlier).asking[place]? = some (name, .missed) ∧
    ((loader.load name).runFrom (clients.after loader earlier).store.shared).1 =
      .ok (.controller controller)

theorem Loaded.later (loaded : Loaded loader clients past name controller) (turn : Turn ω) :
    Loaded loader clients (turn :: past) name controller := by
  obtain ⟨place, earlier, before, asks, loads⟩ := loaded
  exact ⟨place, earlier, before.trans (List.suffix_cons turn past), asks, loads⟩

/-- The entry of a client after its turn, or after the turn of another. -/
theorem asking_of_set {entry found : String × Resolution σ ω} {other : Nat}
    (asks : (clients.asking.set place entry)[other]? = some found) :
    other = place ∧ found = entry ∨ clients.asking[other]? = some found := by
  rw [List.getElem?_set] at asks
  by_cases own : place = other
  · rw [if_pos own] at asks
    split at asks
    · exact .inl ⟨own.symm, (Option.some.inj asks).symm⟩
    · cases asks
  · rw [if_neg own] at asks
    exact .inr asks

namespace Turned

variable {turn : Turn ω} {later : Clients σ ω}

theorem names_eq (turned : Turned loader clients turn later) : later.names = clients.names := by
  cases turned with
  | nobody none => rfl
  | elsewhere change => rfl
  | moved asks moves =>
      rw [names, List.map_set, names]
      apply List.ext_getElem?
      intro other
      rw [List.getElem?_set]
      split
      · rename_i own
        subst own
        rw [List.getElem?_map, asks, if_pos]
        · rfl
        · rw [List.length_map]
          exact (List.getElem?_eq_some_iff.mp asks).1
      · rfl

/-- A turn keeps what is remembered, or a client remembers what it has loaded. -/
theorem controllers (turned : Turned loader clients turn later) :
    later.store.controllers = clients.store.controllers ∨
      ∃ place name controller, turn = .client place ∧
        clients.asking[place]? = some (name, .loaded controller) ∧
        clients.store.controllers.get? name = none ∧
        later.store.controllers = clients.store.controllers.set name controller ∧
        later.asking[place]? = some (name, .ended (.ok controller)) := by
  cases turned with
  | nobody none => exact .inl rfl
  | elsewhere change => exact .inl rfl
  | moved asks moves =>
      cases moves with
      | first absent =>
          refine .inr ⟨_, _, _, rfl, asks, absent, rfl, ?_⟩
          exact List.getElem?_set_self (List.getElem?_eq_some_iff.mp asks).1
      | found | missed | loaded | mixin | failed | late | done => exact .inl rfl

/-- A client that carries a controller did so before, or its turn was to load the controller. -/
theorem carried (turned : Turned loader clients turn later)
    (asks : later.asking[place]? = some (name, .loaded controller)) :
    clients.asking[place]? = some (name, .loaded controller) ∨
      turn = .client place ∧ clients.asking[place]? = some (name, .missed) ∧
        ((loader.load name).runFrom clients.store.shared).1 = .ok (.controller controller) := by
  cases turned with
  | nobody none => exact .inl asks
  | elsewhere change => exact .inl asks
  | moved before moves =>
      rcases asking_of_set asks with ⟨rfl, same⟩ | kept
      · cases moves with
        | loaded loads =>
            cases same
            exact .inr ⟨rfl, before, by rw [loads]⟩
        | found | missed | mixin | failed | late | first | done => cases same
      · exact .inl kept

/-- A client that was given a controller had been given it before, or it is the one remembered, or
the client has just remembered it. -/
theorem given (turned : Turned loader clients turn later)
    (asks : later.asking[place]? = some (name, .ended (.ok controller))) :
    clients.asking[place]? = some (name, .ended (.ok controller)) ∨
      clients.store.controllers.get? name = some controller ∨
      clients.asking[place]? = some (name, .loaded controller) ∧
        clients.store.controllers.get? name = none ∧
        later.store.controllers = clients.store.controllers.set name controller := by
  cases turned with
  | nobody none => exact .inl asks
  | elsewhere change => exact .inl asks
  | moved before moves =>
      rcases asking_of_set asks with ⟨rfl, same⟩ | kept
      · cases moves with
        | found known => cases same; exact .inr (.inl known)
        | late known => cases same; exact .inr (.inl known)
        | first absent => cases same; exact .inr (.inr ⟨before, absent, rfl⟩)
        | done result => cases same; exact .inl before
        | missed | loaded | mixin | failed => cases same
      · exact .inl kept

/-- A result that was given stays. -/
theorem ended {result : Except PageError (Controller σ ω)}
    (turned : Turned loader clients turn later)
    (asks : clients.asking[place]? = some (name, .ended result)) :
    later.asking[place]? = some (name, .ended result) := by
  cases turned with
  | nobody none => exact asks
  | elsewhere change => exact asks
  | @moved other _ _ _ before moves =>
      by_cases own : other = place
      · subst own
        rw [before] at asks
        cases asks
        cases moves
        exact List.getElem?_set_self (List.getElem?_eq_some_iff.mp before).1
      · exact (List.getElem?_set_ne own).trans asks

end Turned

theorem names_after (loader : Loader σ ω) (clients : Clients σ ω) (past : List (Turn ω)) :
    (clients.after loader past).names = clients.names := by
  induction past with
  | nil => rfl
  | cons turn past same => exact (turned loader _ turn).names_eq.trans same

theorem mem_names {resolution : Resolution σ ω}
    (asks : (clients.after loader past).asking[place]? = some (name, resolution)) :
    name ∈ clients.names := by
  rw [← names_after loader clients past]
  exact List.mem_map_of_mem (List.mem_of_getElem? asks)

theorem Loaded.mem_names (loaded : Loaded loader clients past name controller) :
    name ∈ clients.names := by
  obtain ⟨place, earlier, -, asks, -⟩ := loaded
  exact Clients.mem_names asks

theorem ended_of_suffix {result : Except PageError (Controller σ ω)} (before : earlier <:+ past)
    (asks : (clients.after loader earlier).asking[place]? = some (name, .ended result)) :
    (clients.after loader past).asking[place]? = some (name, .ended result) := by
  induction past with
  | nil => rwa [List.suffix_nil.mp before] at asks
  | cons turn past later =>
      rcases List.suffix_cons_iff.mp before with rfl | before
      · exact asks
      · exact (turned loader (clients.after loader past) turn).ended (later before)

structure Sound (loader : Loader σ ω) (clients : Clients σ ω) (capacity : Nat)
    (past : List (Turn ω)) (now : Clients σ ω) : Prop where
  bounded : Cache.Bounded capacity now.store.controllers
  remembered (name : String) (controller : Controller σ ω)
    (known : now.store.controllers.get? name = some controller) :
    Loaded loader clients past name controller
  carried (place : Nat) (name : String) (controller : Controller σ ω)
    (asks : now.asking[place]? = some (name, .loaded controller)) :
    Loaded loader clients past name controller
  given (place : Nat) (name : String) (controller : Controller σ ω)
    (asks : now.asking[place]? = some (name, .ended (.ok controller))) :
    now.store.controllers.get? name = some controller

namespace Sound

variable {now later : Clients σ ω} {turn : Turn ω}

theorem start (loader : Loader σ ω) (names : List String) (templates : Cache String)
    (capacity : Nat) (shared : ω) :
    Sound loader (Clients.start names templates capacity shared) capacity []
      (Clients.start names templates capacity shared) := by
  have begun {place : Nat} {name : String} {resolution : Resolution σ ω}
      (asks : (Clients.start names templates capacity shared : Clients σ ω).asking[place]? =
        some (name, resolution)) : resolution = .begun := by
    obtain ⟨_, -, same⟩ := List.mem_map.mp (List.mem_of_getElem? asks)
    exact (congrArg Prod.snd same).symm
  constructor
  case bounded => exact Cache.Bounded.empty capacity
  case remembered =>
    intro name controller known
    cases (Cache.get?_empty capacity name).symm.trans known
  case carried => intro place name controller asks; cases begun asks
  case given => intro place name controller asks; cases begun asks

/-- There is room for each name that is asked for. -/
theorem room (sound : Sound loader clients capacity past now)
    (enough : clients.names.dedup.length ≤ capacity) (asked : name ∈ clients.names)
    (absent : now.store.controllers.get? name = none) :
    now.store.controllers.size < now.store.controllers.capacity := by
  have missing : name ∉ now.store.controllers.order := by
    apply sound.bounded.not_mem
    rw [Cache.contains_eq, absent]
    rfl
  have within : (name :: now.store.controllers.order) ⊆ clients.names.dedup := by
    intro key member
    rw [List.mem_dedup]
    rcases List.mem_cons.mp member with rfl | old
    · exact asked
    · rw [sound.bounded.ordered, Cache.contains_eq] at old
      obtain ⟨controller, known⟩ := Option.isSome_iff_exists.mp old
      exact (sound.remembered key controller known).mem_names
  have distinct : (name :: now.store.controllers.order).Nodup :=
    List.nodup_cons.mpr ⟨missing, sound.bounded.nodup⟩
  have short := (distinct.subperm within).length_le
  rw [sound.bounded.size_eq, sound.bounded.capacity_eq]
  rw [List.length_cons] at short
  omega

/-- A client that remembers what it has loaded forgets nothing else for it. -/
theorem get?_set (sound : Sound loader clients capacity past now)
    (enough : clients.names.dedup.length ≤ capacity)
    (asks : now.asking[place]? = some (name, .loaded controller))
    (absent : now.store.controllers.get? name = none) (other : String) :
    (now.store.controllers.set name controller).get? other =
      if name = other then some controller else now.store.controllers.get? other :=
  Cache.get?_set_of_room
    (sound.room enough (sound.carried place name controller asks).mem_names absent) name
    controller other

/-- What is remembered stays. -/
theorem get?_turned (sound : Sound loader clients capacity past now)
    (enough : clients.names.dedup.length ≤ capacity) (turned : Turned loader now turn later)
    (known : now.store.controllers.get? name = some controller) :
    later.store.controllers.get? name = some controller := by
  rcases turned.controllers with same | ⟨place, fresh, loaded, -, asks, absent, set, -⟩
  · rw [same, known]
  · have apart : fresh ≠ name := by
      rintro rfl
      cases absent.symm.trans known
    rw [set, sound.get?_set enough asks absent, if_neg apart, known]

theorem turned (sound : Sound loader clients capacity past now)
    (enough : clients.names.dedup.length ≤ capacity) (reached : clients.after loader past = now)
    (turned : Turned loader now turn later) :
    Sound loader clients capacity (turn :: past) later := by
  constructor
  case bounded =>
    rcases turned.controllers with same | ⟨place, fresh, loaded, -, -, -, set, -⟩
    · exact same ▸ sound.bounded
    · exact set ▸ sound.bounded.set fresh loaded
  case remembered =>
    intro name controller known
    rcases turned.controllers with same | ⟨place, fresh, loaded, -, asks, absent, set, -⟩
    · exact (sound.remembered name controller (same ▸ known)).later turn
    · rw [set, sound.get?_set enough asks absent] at known
      split at known
      · rename_i own
        cases own
        cases known
        exact (sound.carried place _ _ asks).later turn
      · exact (sound.remembered name controller known).later turn
  case carried =>
    intro place name controller asks
    rcases turned.carried asks with before | ⟨rfl, misses, loads⟩
    · exact (sound.carried place name controller before).later turn
    · exact ⟨place, past, List.suffix_rfl, reached ▸ misses, reached ▸ loads⟩
  case given =>
    intro place name controller asks
    rcases turned.given asks with before | known | ⟨loaded, absent, set⟩
    · exact sound.get?_turned enough turned (sound.given place name controller before)
    · exact sound.get?_turned enough turned known
    · rw [set, sound.get?_set enough loaded absent, if_pos rfl]

end Sound

/-! ## What clients agree on -/

section

variable {names : List String} {templates : Cache String} {shared : ω}

theorem names_start : (start names templates capacity shared : Clients σ ω).names = names := by
  rw [Clients.names, start, List.map_map]
  exact List.map_id names

theorem sound_after (enough : names.dedup.length ≤ capacity) (past : List (Turn ω)) :
    Sound loader (start names templates capacity shared) capacity past
      ((start names templates capacity shared).after loader past) := by
  induction past with
  | nil => exact Sound.start loader names templates capacity shared
  | cons turn past sound =>
      exact sound.turned (names_start.symm ▸ enough) rfl (turned loader _ turn)

/-- What is remembered stays through any later turns. -/
theorem get?_of_suffix (enough : names.dedup.length ≤ capacity) (before : earlier <:+ past)
    (known : ((start names templates capacity shared).after loader earlier).store.controllers.get?
      name = some controller) :
    ((start names templates capacity shared).after loader past).store.controllers.get? name =
      some controller := by
  induction past with
  | nil => rwa [List.suffix_nil.mp before] at known
  | cons turn past later =>
      rcases List.suffix_cons_iff.mp before with rfl | before
      · exact known
      · exact (sound_after enough past).get?_turned (names_start.symm ▸ enough)
          (turned loader _ turn) (later before)

/-- A client that takes three turns in a row resolves its name as it would alone. -/
theorem turns_in_a_row (asks : clients.asking[place]? = some (name, .begun)) :
    let turns : List (Turn ω) := [.client place, .client place, .client place]
    let resolved := (loader.resolve name).runFrom clients.store
    clients.after loader turns =
      ⟨resolved.2, clients.asking.set place (name, .ended resolved.1)⟩ := by
  intro turns resolved
  obtain ⟨within, own⟩ := List.getElem?_eq_some_iff.mp asks
  have turn_eq (resolution : Resolution σ ω) (store : Store σ ω) :
      (Clients.mk store (clients.asking.set place (name, resolution))).turn loader
          (.client place) =
        ⟨(resolution.step loader name store).2,
          clients.asking.set place (name, (resolution.step loader name store).1)⟩ := by
    simp only [Clients.turn, List.getElem?_set_self within, List.set_set]
  have begins : clients = ⟨clients.store, clients.asking.set place (name, .begun)⟩ := by
    rw [← own, List.set_getElem_self]
  have whole := Resolution.step_alone loader name clients.store
  rw [begins]
  change (((Clients.mk _ _).turn loader (.client place)).turn loader (.client place)).turn loader
    (.client place) = _
  rw [turn_eq, turn_eq, turn_eq, List.set_set]
  exact congrArg (fun ended : Resolution σ ω × Store σ ω =>
    Clients.mk ended.2 (clients.asking.set place (name, ended.1))) whole

def refusal (name : String) : Except PageError (Loadable σ ω) → Option PageError
  | .ok (.controller _) => none
  | .ok (.mixin _) => some (.notAController name)
  | .error error => some error

/-- What clients can rely on that ask at the same time: what becomes of them at turns of which the
latest stands first. -/
structure Memoized (loader : Loader σ ω) (clients : Clients σ ω) (past : List (Turn ω)) :
    Prop where
  /-- Alone a client does what a resolution does. -/
  alone (place : Nat) (name : String)
    (begins : (clients.after loader past).asking[place]? = some (name, .begun)) :
    let now := clients.after loader past
    let resolved := (loader.resolve name).runFrom now.store
    now.after loader [.client place, .client place, .client place] =
      ⟨resolved.2, now.asking.set place (name, .ended resolved.1)⟩
  /-- All that are given a controller of one name are given the same. -/
  agreed (here there : Nat) (name : String) (given found : Controller σ ω)
    (asks : (clients.after loader past).asking[here]? = some (name, .ended (.ok given)))
    (others : (clients.after loader past).asking[there]? = some (name, .ended (.ok found))) :
    given = found
  /-- What was remembered once still is. -/
  lasting (earlier : List (Turn ω)) (before : earlier <:+ past) (name : String)
    (controller : Controller σ ω)
    (known : (clients.after loader earlier).store.controllers.get? name = some controller) :
    (clients.after loader past).store.controllers.get? name = some controller
  /-- What is remembered was loaded, as a controller and under its name. -/
  loaded (name : String) (controller : Controller σ ω)
    (known : (clients.after loader past).store.controllers.get? name = some controller) :
    Loaded loader clients past name controller
  /-- Where a load yields no controller, the client that asked for it ends with an error. -/
  refused (place : Nat) (earlier : List (Turn ω)) (before : (.client place :: earlier) <:+ past)
    (name : String) (error : PageError)
    (misses : (clients.after loader earlier).asking[place]? = some (name, .missed))
    (refuses : refusal name
      ((loader.load name).runFrom (clients.after loader earlier).store.shared).1 = some error) :
    (clients.after loader past).asking[place]? = some (name, .ended (.error error))
  /-- A client that ends with an error has changed at no turn what is remembered. -/
  unchanged (place : Nat) (earlier : List (Turn ω))
    (before : (.client place :: earlier) <:+ past) (name : String) (error : PageError)
    (fails : (clients.after loader past).asking[place]? = some (name, .ended (.error error))) :
    (clients.after loader (.client place :: earlier)).store.controllers =
      (clients.after loader earlier).store.controllers

theorem refused_turn {error : PageError}
    (misses : clients.asking[place]? = some (name, .missed))
    (refuses : refusal name ((loader.load name).runFrom clients.store.shared).1 = some error) :
    (clients.turn loader (.client place)).asking[place]? = some (name, .ended (.error error)) := by
  have within : place < clients.asking.length := (List.getElem?_eq_some_iff.mp misses).1
  simp only [Clients.turn, misses]
  rw [List.getElem?_set_self within, Resolution.step_missed]
  rcases loads : (loader.load name).runFrom clients.store.shared with
    ⟨error | ⟨controller | mixin⟩, shared⟩
  · rw [loads] at refuses
    cases refuses
    rfl
  · rw [loads] at refuses
    cases refuses
  · rw [loads] at refuses
    cases refuses
    rfl

theorem unchanged_turn {error : PageError} (before : (.client place :: earlier) <:+ past)
    (fails : (clients.after loader past).asking[place]? = some (name, .ended (.error error))) :
    (clients.after loader (.client place :: earlier)).store.controllers =
      (clients.after loader earlier).store.controllers := by
  rcases (turned loader (clients.after loader earlier) (.client place)).controllers with
    same | ⟨here, fresh, loaded, own, -, -, -, remembers⟩
  · exact same
  · cases own
    cases fails.symm.trans (ended_of_suffix before remembers)

theorem memoized_after (loader : Loader σ ω) (names : List String) (templates : Cache String)
    (capacity : Nat) (shared : ω) (enough : names.dedup.length ≤ capacity)
    (past : List (Turn ω)) :
    Memoized loader (start names templates capacity shared) past := by
  have sound : Sound loader (start names templates capacity shared) capacity past _ :=
    sound_after enough past
  constructor
  case alone =>
    intro place name begins
    exact turns_in_a_row begins
  case agreed =>
    intro here there name given found asks others
    have held := sound.given here name given asks
    rw [sound.given there name found others] at held
    exact (Option.some.inj held).symm
  case lasting =>
    intro earlier before name controller known
    exact get?_of_suffix enough before known
  case loaded =>
    intro name controller known
    exact sound.remembered name controller known
  case refused =>
    intro place earlier before name error misses refuses
    exact ended_of_suffix before (refused_turn misses refuses)
  case unchanged =>
    intro place earlier before name error fails
    exact unchanged_turn before fails

end

/-! Two clients race for one name, each with a load of its own; a third meets a mixin. -/

def draft (count : Nat) : Controller Unit Nat :=
  ⟨"Home", fun _ => .ok (), .none, .empty, some (toString count), none⟩

def drafts : Loader Unit Nat where
  primary := ((Source.named "drafts").register "Home" (do
    let count ← get
    set (count + 1)
    return .controller (draft count))).withMixin (.named "Menu")
  fallback := none

theorem load_drafts_home (count : Nat) :
    (drafts.load "Home").runFrom count = (.ok (.controller (draft count)), count + 1) := rfl

theorem load_drafts_menu (count : Nat) :
    (drafts.load "Menu").runFrom count = (.ok (.mixin (.named "Menu")), count) := rfl

theorem racing_drafts :
    let names := ["Home", "Home", "Menu"]
    let past : List (Turn Nat) := [.client 0, .client 1, .client 1, .client 2, .client 0,
      .elsewhere (· + 1), .client 1, .client 2, .client 0]
    names.dedup.length ≤ 2 ∧ Memoized drafts (start names (.empty 1) 2 0) past ∧
      ((start names (.empty 1) 2 0).after drafts past).asking =
        [("Home", .ended (.ok (draft 2))), ("Home", .ended (.ok (draft 2))),
          ("Menu", .ended (.error (.notAController "Menu")))] := by
  intro names past
  refine ⟨by decide, memoized_after drafts names (.empty 1) 2 0 (by decide) past, ?_⟩
  have remembered : ((Cache.empty 2).set "Home" (draft 2)).get? "Home" = some (draft 2) :=
    Cache.get?_set_self (by simp [Cache.size, Cache.empty]) (draft 2)
  simp [past, names, Clients.after, Clients.turn, Clients.start, Resolution.step_begun,
    Resolution.step_missed, Resolution.step_loaded, load_drafts_home, load_drafts_menu, remembered]

end Clients

end ServerPages

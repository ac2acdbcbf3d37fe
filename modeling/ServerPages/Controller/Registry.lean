import ServerPages.Controller.Handler

/-!
# Registries of handlers

Handlers by name, in order of registration. Registering a name again replaces the
handler in its place; merging adds only names that are missing. Either way, no name
occurs twice.
-/

namespace ServerPages

/-- Handlers in order of registration. -/
structure Registry (σ ω : Type) where
  handlers : List (Handler σ ω)

namespace Registry

variable {σ ω : Type}

def empty : Registry σ ω := ⟨[]⟩

def find? (registry : Registry σ ω) (name : String) : Option (Handler σ ω) :=
  registry.handlers.find? (·.info.name = name)

def infos (registry : Registry σ ω) : List HandlerInfo :=
  registry.handlers.map (·.info)

def names (registry : Registry σ ω) : List String :=
  registry.handlers.map (·.info.name)

/-- A list with the handler of a name replaced, or with a new handler at the end. -/
def insertIn (handler : Handler σ ω) : List (Handler σ ω) → List (Handler σ ω)
  | [] => [handler]
  | first :: rest =>
      if first.info.name = handler.info.name then handler :: rest
      else first :: insertIn handler rest

def insert (registry : Registry σ ω) (handler : Handler σ ω) : Registry σ ω :=
  ⟨insertIn handler registry.handlers⟩

def insertMissing (registry : Registry σ ω) (handler : Handler σ ω) : Registry σ ω :=
  if (registry.find? handler.info.name).isSome then registry
  else ⟨registry.handlers ++ [handler]⟩

/-- Adds the handlers of another registry whose names are not taken. -/
def mergeMissing (registry other : Registry σ ω) : Registry σ ω :=
  other.handlers.foldl insertMissing registry

def allCallable (registry : Registry σ ω) : Registry σ ω :=
  ⟨registry.handlers.map fun handler =>
    { handler with info := { handler.info with callable := true } }⟩

theorem find?_isSome_iff (registry : Registry σ ω) (name : String) :
    (registry.find? name).isSome ↔ name ∈ registry.names := by
  simp [find?, names]

theorem names_insertIn (handler : Handler σ ω) (handlers : List (Handler σ ω)) :
    (insertIn handler handlers).map (·.info.name) =
      if handler.info.name ∈ handlers.map (·.info.name) then handlers.map (·.info.name)
      else handlers.map (·.info.name) ++ [handler.info.name] := by
  induction handlers with
  | nil => simp [insertIn]
  | cons first rest ih =>
      simp only [insertIn]
      split
      · rename_i same
        simp [same]
      · rename_i different
        simp only [List.map_cons, ih, List.mem_cons]
        by_cases later : handler.info.name ∈ rest.map (·.info.name)
        · simp [later]
        · simp [later, Ne.symm different]

end Registry

end ServerPages

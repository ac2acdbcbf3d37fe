import ServerPages.Json.Decode

/-!
# Parameters of handlers

A handler takes a fixed number of parameters or any number of one kind. Arguments are
read from the left, and the first that does not fit decides the message; arguments that
are missing at the end are null.
-/

namespace ServerPages

structure Parameters (α : Type) where
  /-- The number of parameters, or none for any number. -/
  arity : Option Nat
  read : List Json → Except String α

namespace Parameters

variable {α β : Type}

def nil : Parameters Unit :=
  ⟨some 0, fun _ => .ok ()⟩

def cons (first : Json → Except String α) (rest : Parameters β) : Parameters (α × β) where
  arity := rest.arity.map (· + 1)
  read args := do
    let value ← first (args.headD .null)
    let values ← rest.read args.tail
    return (value, values)

def each (item : Json → Except String α) : Parameters (List α) :=
  ⟨none, fun args => args.mapM item⟩

def map (f : α → β) (parameters : Parameters α) : Parameters β :=
  ⟨parameters.arity, fun args => (parameters.read args).map f⟩

def tooMany (limit given : Nat) : String :=
  "expected at most " ++ Text.decimal limit ++ " arguments, got " ++ Text.decimal given

/-- The parameters for the arguments of a call, if they fit. -/
def ofArguments (parameters : Parameters α) (args : List Json) : Except String α :=
  match parameters.arity with
  | none => parameters.read args
  | some limit =>
      if limit < args.length then .error (tooMany limit args.length) else parameters.read args

end Parameters

end ServerPages

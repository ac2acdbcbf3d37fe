/-!
# Dictionaries in order of key

A dictionary is an association list whose keys increase strictly. Writing a key
that is present replaces its value; the order of writing leaves no trace.
-/

namespace ServerPages

/-- Pairs of a key and a value in increasing order of key. -/
abbrev Dictionary (β : Type) := List (String × β)

namespace Dictionary

variable {β : Type}

def find? (key : String) : Dictionary β → Option β
  | [] => none
  | (name, value) :: rest => if name = key then some value else find? key rest

def put (key : String) (value : β) : Dictionary β → Dictionary β
  | [] => [(key, value)]
  | (name, old) :: rest =>
      if key < name then (key, value) :: (name, old) :: rest
      else if key = name then (key, value) :: rest
      else (name, old) :: put key value rest

def has (key : String) (entries : Dictionary β) : Bool :=
  (entries.find? key).isSome

/-- Writes pairs one after the other; the last value of a key stays. -/
def ofPairs (pairs : List (String × β)) : Dictionary β :=
  pairs.foldl (fun entries pair => entries.put pair.1 pair.2) []

theorem find?_put_self (key : String) (value : β) (entries : Dictionary β) :
    (entries.put key value).find? key = some value := by
  induction entries with
  | nil => simp [put, find?]
  | cons entry rest ih =>
      obtain ⟨name, old⟩ := entry
      simp only [put]
      split
      · simp [find?]
      · split
        · simp [find?]
        · rename_i different
          simp [find?, Ne.symm different, ih]

theorem find?_put_of_ne {key other : String} (different : other ≠ key) (value : β)
    (entries : Dictionary β) : (entries.put key value).find? other = entries.find? other := by
  induction entries with
  | nil => simp [put, find?, Ne.symm different]
  | cons entry rest ih =>
      obtain ⟨name, old⟩ := entry
      simp only [put]
      split
      · simp [find?, Ne.symm different]
      · split
        · rename_i same
          subst same
          simp [find?, Ne.symm different]
        · simp [find?, ih]

end Dictionary

end ServerPages

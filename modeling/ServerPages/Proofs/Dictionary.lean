import Mathlib.Data.List.Basic
import Mathlib.Data.List.Induction
import Mathlib.Data.List.Perm.Basic
import ServerPages.Dictionary

/-!
# Dictionaries made of pairs

Pairs whose keys increase already are the dictionary that they make. Pairs whose keys differ are
all found in theirs, and there is nothing else in it.
-/

namespace ServerPages.Dictionary

variable {β : Type}

def keys (entries : Dictionary β) : List String :=
  entries.map Prod.fst

def Increasing (entries : Dictionary β) : Prop :=
  entries.Pairwise fun first second => first.1 < second.1

instance (entries : Dictionary β) : Decidable entries.Increasing :=
  inferInstanceAs (Decidable (List.Pairwise _ _))

theorem Increasing.nodup_keys {entries : Dictionary β} (increasing : entries.Increasing) :
    entries.keys.Nodup :=
  List.pairwise_map.mpr (increasing.imp fun less => Std.ne_of_lt less)

/-! ## Entries in order -/

theorem put_eq_append {key : String} {entries : Dictionary β}
    (above : ∀ entry ∈ entries, entry.1 < key) (value : β) :
    entries.put key value = entries ++ [(key, value)] := by
  induction entries with
  | nil => rfl
  | cons entry rest ih =>
      have below : entry.1 < key := above entry List.mem_cons_self
      have others := ih fun other member => above other (List.mem_cons_of_mem _ member)
      rw [put, if_neg (String.lt_asymm below), if_neg ((Std.ne_of_lt below).symm), others,
        List.cons_append]

theorem foldl_put_eq_append (pairs : List (String × β)) {entries : Dictionary β}
    (increasing : (entries ++ pairs).Pairwise fun first second => first.1 < second.1) :
    pairs.foldl (fun entries pair => entries.put pair.1 pair.2) entries = entries ++ pairs := by
  induction pairs generalizing entries with
  | nil => exact (List.append_nil _).symm
  | cons pair pairs ih =>
      have above : ∀ entry ∈ entries, entry.1 < pair.1 := fun entry member =>
        (List.pairwise_append.mp increasing).2.2 entry member pair List.mem_cons_self
      rw [List.foldl_cons, put_eq_append above, ih (by simpa using increasing),
        List.append_assoc, List.singleton_append]

/-- A dictionary is made of its own entries. -/
theorem ofPairs_eq_self {entries : Dictionary β} (increasing : entries.Increasing) :
    ofPairs entries = entries :=
  foldl_put_eq_append entries increasing

/-! ## Entries with different keys -/

theorem put_perm {key : String} {entries : Dictionary β} (fresh : key ∉ entries.keys)
    (value : β) : (entries.put key value).Perm ((key, value) :: entries) := by
  induction entries with
  | nil => exact .refl _
  | cons entry rest ih =>
      obtain ⟨different, later⟩ : key ≠ entry.1 ∧ key ∉ keys rest := by
        simpa [keys] using fresh
      rw [put, if_neg different]
      split
      · exact .refl _
      · exact ((ih later).cons entry).trans (.swap _ _ _)

theorem foldl_put_perm (pairs : List (String × β)) {entries : Dictionary β}
    (distinct : (keys (pairs ++ entries)).Nodup) :
    (pairs.foldl (fun entries pair => entries.put pair.1 pair.2) entries).Perm
      (pairs ++ entries) := by
  induction pairs generalizing entries with
  | nil => exact .refl _
  | cons pair pairs ih =>
      obtain ⟨fresh, others⟩ : pair.1 ∉ keys (pairs ++ entries) ∧ (keys (pairs ++ entries)).Nodup :=
        List.nodup_cons.mp distinct
      have added : (entries.put pair.1 pair.2).Perm (pair :: entries) :=
        put_perm (fun member => fresh (by simp_all [keys])) pair.2
      have moved : (pairs ++ entries.put pair.1 pair.2).Perm (pair :: (pairs ++ entries)) :=
        (added.append_left pairs).trans List.perm_middle
      have apart : (keys (pairs ++ entries.put pair.1 pair.2)).Nodup :=
        (moved.map Prod.fst).nodup_iff.mpr distinct
      exact (ih apart).trans moved

/-- Pairs with different keys all stand in the dictionary that they make. -/
theorem ofPairs_perm {pairs : List (String × β)} (distinct : (keys pairs).Nodup) :
    (ofPairs pairs).Perm pairs := by
  rw [← List.append_nil pairs] at distinct
  have whole := foldl_put_perm pairs distinct
  rwa [List.append_nil] at whole

theorem find?_foldl_put_of_not_mem {key : String} {pairs : List (String × β)}
    (absent : key ∉ keys pairs) (entries : Dictionary β) :
    (pairs.foldl (fun entries pair => entries.put pair.1 pair.2) entries).find? key =
      entries.find? key := by
  induction pairs generalizing entries with
  | nil => rfl
  | cons pair pairs ih =>
      obtain ⟨different, later⟩ : key ≠ pair.1 ∧ key ∉ keys pairs := by simpa [keys] using absent
      rw [List.foldl_cons, ih later, find?_put_of_ne different]

/-- Of pairs with different keys, each decides what its key has after all are written. -/
theorem find?_foldl_put {key : String} {value : β} {pairs : List (String × β)}
    (distinct : (keys pairs).Nodup) (found : find? key pairs = some value)
    (entries : Dictionary β) :
    (pairs.foldl (fun entries pair => entries.put pair.1 pair.2) entries).find? key =
      some value := by
  induction pairs generalizing entries with
  | nil => simp [find?] at found
  | cons pair pairs ih =>
      obtain ⟨fresh, others⟩ : pair.1 ∉ keys pairs ∧ (keys pairs).Nodup :=
        List.nodup_cons.mp distinct
      rw [List.foldl_cons]
      rw [find?] at found
      split at found
      · rename_i same
        rw [← same, find?_foldl_put_of_not_mem fresh, find?_put_self, ← found]
      · exact ih others found _

theorem find?_eq_none_iff {key : String} {entries : Dictionary β} :
    entries.find? key = none ↔ key ∉ entries.keys := by
  induction entries with
  | nil => simp [find?, keys]
  | cons entry rest ih =>
      rw [find?]
      split
      · rename_i same
        simp [keys, same]
      · rename_i different
        simpa [keys, Ne.symm different] using ih

/-- Where keys differ, what a key has is the value that it is paired with. -/
theorem find?_eq_some_iff {key : String} {value : β} {entries : Dictionary β}
    (distinct : entries.keys.Nodup) : entries.find? key = some value ↔ (key, value) ∈ entries := by
  induction entries with
  | nil => simp [find?]
  | cons entry rest ih =>
      obtain ⟨name, old⟩ := entry
      obtain ⟨fresh, others⟩ : name ∉ keys rest ∧ (keys rest).Nodup := List.nodup_cons.mp distinct
      rw [find?, List.mem_cons, Prod.mk.injEq]
      split
      · rename_i same
        subst same
        have elsewhere : (name, value) ∉ rest := fun member => fresh (List.mem_map_of_mem member)
        simp [elsewhere, eq_comm]
      · rename_i different
        simp [ih others, Ne.symm different]

/-- Pairs with different keys are found in the dictionary that they make. -/
theorem find?_ofPairs {pairs : List (String × β)} (distinct : (keys pairs).Nodup)
    (key : String) : (ofPairs pairs).find? key = find? key pairs := by
  cases found : find? key pairs with
  | some value => exact find?_foldl_put distinct found []
  | none => exact find?_foldl_put_of_not_mem (find?_eq_none_iff.mp found) []

theorem mem_keys_put {key other : String} {value : β} {entries : Dictionary β} :
    other ∈ (entries.put key value).keys ↔ other = key ∨ other ∈ entries.keys := by
  rw [← not_iff_not, ← find?_eq_none_iff, not_or]
  by_cases same : other = key
  · subst same
    simp [find?_put_self]
  · rw [find?_put_of_ne same, find?_eq_none_iff]
    exact (and_iff_right same).symm

/-! ## Pairs with any keys -/

theorem mem_put {key : String} {value : β} {entries : Dictionary β} {entry : String × β}
    (member : entry ∈ entries.put key value) : entry = (key, value) ∨ entry ∈ entries := by
  induction entries with
  | nil => exact .inl (List.mem_singleton.mp member)
  | cons first rest ih =>
      rw [put] at member
      split at member
      · exact List.mem_cons.mp member
      · split at member
        · exact (List.mem_cons.mp member).imp_right (List.mem_cons_of_mem _)
        · rcases List.mem_cons.mp member with rfl | later
          · exact .inr List.mem_cons_self
          · exact (ih later).imp_right (List.mem_cons_of_mem _)

theorem increasing_put {entries : Dictionary β} (increasing : entries.Increasing) (key : String)
    (value : β) : (entries.put key value).Increasing := by
  induction entries with
  | nil => exact List.pairwise_singleton _ _
  | cons entry rest ih =>
      obtain ⟨below, others⟩ := List.pairwise_cons.mp increasing
      rw [put]
      split
      · rename_i less
        refine List.pairwise_cons.mpr ⟨?_, increasing⟩
        intro other member
        rcases List.mem_cons.mp member with rfl | later
        · exact less
        · exact Std.lt_trans less (below other later)
      · split
        · rename_i same
          subst same
          exact List.pairwise_cons.mpr ⟨below, others⟩
        · rename_i notLess different
          have less : entry.1 < key :=
            Std.lt_of_le_of_ne (Std.not_lt.mp notLess) (Ne.symm different)
          refine List.pairwise_cons.mpr ⟨?_, ih others⟩
          intro other member
          rcases mem_put member with rfl | old
          · exact less
          · exact below other old

/-- A dictionary that was made of pairs has each key once. -/
theorem increasing_ofPairs (pairs : List (String × β)) : (ofPairs pairs).Increasing := by
  unfold ofPairs
  induction pairs using List.reverseRecOn with
  | nil => exact List.Pairwise.nil
  | append_singleton pairs pair ih =>
      rw [List.foldl_append]
      exact increasing_put ih pair.1 pair.2

/-- The last pair of a key decides what the key has. -/
theorem find?_ofPairs_eq_last (pairs : List (String × β)) (key : String) :
    (ofPairs pairs).find? key = (pairs.reverse.find? (·.1 = key)).map (·.2) := by
  unfold ofPairs
  induction pairs using List.reverseRecOn with
  | nil => rfl
  | append_singleton pairs pair ih =>
      rw [List.foldl_append, List.foldl_cons, List.foldl_nil, List.reverse_append,
        List.reverse_singleton, List.singleton_append, List.find?_cons]
      by_cases same : pair.1 = key
      · subst same
        simp [find?_put_self]
      · simp [same, find?_put_of_ne (Ne.symm same), ih]

end ServerPages.Dictionary

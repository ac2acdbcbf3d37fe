import Mathlib.Data.List.Induction
import Mathlib.Data.List.Nodup
import ServerPages.Binding.Bind
import ServerPages.Proofs.Text

/-!
# Keys of calls

A table keeps one entry of each key. The key of a call is made of the mark of its element and
of its number in the click expression. Two calls never have the same key, so the table of calls
keeps all of them.
-/

namespace ServerPages.Binding

/-! ## Tables -/

section

variable {α : Type} {key : α → String} {table : List α} {entry : α}

theorem addMissing_of_mem (known : key entry ∈ table.map key) :
    addMissing key table entry = table := by
  obtain ⟨other, member, same⟩ := List.mem_map.mp known
  have equal : (key other == key entry) = true := beq_iff_eq.mpr same
  exact if_pos (List.any_eq_true.mpr ⟨other, member, equal⟩)

theorem addMissing_of_not_mem (new : key entry ∉ table.map key) :
    addMissing key table entry = table ++ [entry] := by
  refine if_neg fun known => new ?_
  obtain ⟨other, member, same⟩ := List.any_eq_true.mp known
  exact List.mem_map.mpr ⟨other, member, beq_iff_eq.mp same⟩

theorem tableOf_concat (entries : List α) (entry : α) :
    tableOf key (entries ++ [entry]) = addMissing key (tableOf key entries) entry :=
  List.foldl_concat _ _ _ _

theorem nodup_addMissing (distinct : (table.map key).Nodup) (entry : α) :
    ((addMissing key table entry).map key).Nodup := by
  by_cases known : key entry ∈ table.map key
  · rw [addMissing_of_mem known]
    exact distinct
  · rw [addMissing_of_not_mem known, List.map_append]
    refine List.nodup_append.mpr ⟨distinct, List.nodup_singleton _, ?_⟩
    rintro old member new added rfl
    exact known (List.mem_singleton.mp added ▸ member)

/-- The keys of a table are distinct. -/
theorem nodup_tableOf (key : α → String) (entries : List α) :
    ((tableOf key entries).map key).Nodup := by
  induction entries using List.reverseRecOn with
  | nil => exact List.nodup_nil
  | append_singleton entries entry ih =>
      rw [tableOf_concat]
      exact nodup_addMissing ih entry

/-- Entries of distinct keys are all kept. -/
theorem tableOf_of_nodup {entries : List α} (distinct : (entries.map key).Nodup) :
    tableOf key entries = entries := by
  induction entries using List.reverseRecOn with
  | nil => rfl
  | append_singleton entries entry ih =>
      rw [List.map_append] at distinct
      obtain ⟨earlier, _, apart⟩ := List.nodup_append.mp distinct
      rw [tableOf_concat, ih earlier]
      exact addMissing_of_not_mem fun member => apart _ member _ List.mem_cons_self rfl

/-- A table of names has each name where it comes first. -/
theorem tableOf_id (names : List String) : tableOf id names = names.eraseDups := by
  induction names using List.reverseRecOn with
  | nil => rfl
  | append_singleton names name ih =>
      rw [tableOf_concat, ih, List.eraseDups_append]
      by_cases known : name ∈ names
      · rw [addMissing_of_mem (by simpa using known)]
        simp [List.removeAll, known]
      · rw [addMissing_of_not_mem (by simpa using known)]
        simp [List.removeAll, known, List.eraseDups_cons]

end

/-! ## Keys -/

theorem newId_inj {first second : Nat} (same : Carrier.newId first = Carrier.newId second) :
    first = second :=
  Text.decimal_inj (String.append_right_inj _ |>.mp same)

theorem mark_inj {first second : Nat} (same : mark first = mark second) : first = second :=
  Text.decimal_inj (String.append_right_inj _ |>.mp same)

theorem toList_key {event : ClientEvent} {number : Nat} (marked : event.mark = mark number) :
    event.key.toList = markName.toList ++
      (Text.decimalDigits number ++ '_' :: Text.decimalDigits event.place) := by
  unfold ClientEvent.key
  rw [marked]
  simp [mark, Text.decimal]

/-- A key tells the number of its element and that of its call. -/
theorem key_inj {first second : ClientEvent} {left right : Nat} (ofFirst : first.mark = mark left)
    (ofSecond : second.mark = mark right) (same : first.key = second.key) :
    left = right ∧ first.place = second.place := by
  have texts := congrArg String.toList same
  rw [toList_key ofFirst, toList_key ofSecond] at texts
  have parts := congrArg (Text.splitOnce '_') (List.append_cancel_left texts)
  rw [Text.splitOnce_append (Text.not_mem_decimalDigits (by decide) left),
    Text.splitOnce_append (Text.not_mem_decimalDigits (by decide) right)] at parts
  simp only [Prod.mk.injEq, Option.some.injEq] at parts
  exact ⟨Text.decimalDigits_inj parts.1, Text.decimalDigits_inj parts.2⟩

/-- Calls of the first elements in order, with keys of their own. -/
structure Keyed (count : Nat) (events : List ClientEvent) : Prop where
  distinct : (events.map ClientEvent.key).Nodup
  marked (event : ClientEvent) (member : event ∈ events) :
    ∃ number < count, event.mark = mark number

theorem Keyed.nil : Keyed 0 [] :=
  ⟨List.nodup_nil, fun _ member => nomatch member⟩

/-- The calls of one more element have new keys. -/
theorem Keyed.append {count : Nat} {events more : List ClientEvent} (keyed : Keyed count events)
    (mine : ∀ event ∈ more, event.mark = mark count) (places : (more.map (·.place)).Nodup) :
    Keyed (count + 1) (events ++ more) where
  distinct := by
    rw [List.map_append]
    refine List.nodup_append.mpr ⟨keyed.distinct, ?_, ?_⟩
    · refine List.Nodup.map_on (fun first left second right same => ?_) (.of_map _ places)
      exact List.inj_on_of_nodup_map places left right
        (key_inj (mine first left) (mine second right) same).2
    · intro old earlier new later same
      obtain ⟨first, left, rfl⟩ := List.mem_map.mp earlier
      obtain ⟨second, right, rfl⟩ := List.mem_map.mp later
      obtain ⟨number, bounded, marked⟩ := keyed.marked first left
      exact Nat.ne_of_lt bounded (key_inj marked (mine second right) same).1
  marked event member := by
    rcases List.mem_append.mp member with earlier | later
    · obtain ⟨number, bounded, marked⟩ := keyed.marked event earlier
      exact ⟨number, Nat.lt_succ_of_lt bounded, marked⟩
    · exact ⟨count, Nat.lt_succ_self count, mine event later⟩

end ServerPages.Binding

import ServerPages.Proofs.Binding.Steps

/-!
# Bound elements

Elements are bound one after the other. What is kept from round to round is that each
element so far has its mark, and that its calls were read from what it had at the start and
go to the scope that it had at the start.
-/

namespace ServerPages.Binding

variable {before read : Document} {done : List NodeId} {state : BindingState}
  {bound : List BoundElement} {number : Nat} {node : NodeId} {scope : EventScope}
  {carrier : String}

/-! ## Rounds -/

structure Progress (before : Document) (done : List NodeId) (state : BindingState)
    (bound : List BoundElement) : Prop where
  length : bound.length = done.length
  marked {number : Nat} {node : NodeId} (reached : done[number]? = some node) :
    state.doc.attr? node markName = some (mark number)
  /-- What an element read as it was bound may differ in its mark, and in an `id` that it got as a
  carrier. -/
  served {number : Nat} {node : NodeId} (reached : done[number]? = some node) :
    ∃ scope carrier, ∃ read : Document,
      (PanelsNamed before → before.eventScope node = some scope) ∧
      (∀ name, name ≠ markName → (name = "id" → ¬ Unnamed before node) →
        read.attr? node name = before.attr? node name) ∧
      bound[number]? = some (outcome read node number scope carrier)

theorem Progress.start (before : Document) : Progress before [] ⟨before, 0⟩ [] where
  length := rfl
  marked reached := nomatch reached
  served reached := nomatch reached

/-- A call of the script belongs to the element of its mark. -/
theorem Progress.exists_of_mem (progress : Progress before done state bound)
    {callable : List String} {event : ClientEvent}
    (member : event ∈ (assemble callable bound).events) (mine : event.mark = mark number) :
    ∃ node scope carrier, ∃ read : Document, done[number]? = some node ∧
      (PanelsNamed before → before.eventScope node = some scope) ∧
      (∀ name, name ≠ markName → (name = "id" → ¬ Unnamed before node) →
        read.attr? node name = before.attr? node name) ∧
      bound[number]? = some (outcome read node number scope carrier) ∧
      event ∈ (outcome read node number scope carrier).events := by
  obtain ⟨element, inBound, inElement⟩ := List.mem_flatMap.mp member
  obtain ⟨place, known⟩ := List.mem_iff_getElem?.mp inBound
  have bounded : place < done.length :=
    progress.length ▸ (List.getElem?_eq_some_iff.mp known).1
  obtain ⟨scope, carrier, read, resolved, same, served⟩ :=
    progress.served (List.getElem?_eq_getElem bounded)
  cases known.symm.trans served
  obtain rfl : place = number := mark_inj ((mark_of_mem_outcome inElement).symm.trans mine)
  exact ⟨_, scope, carrier, read, List.getElem?_eq_getElem bounded, resolved, same, served,
    inElement⟩

/-- Reading a list with one more element. -/
theorem getElem?_concat_cases {α : Type} {items : List α} {last item : α} {place : Nat}
    (found : (items ++ [last])[place]? = some item) :
    items[place]? = some item ∨ place = items.length ∧ item = last := by
  rcases Nat.lt_or_ge place items.length with earlier | later
  · rw [List.getElem?_append_left earlier] at found
    exact Or.inl found
  · rw [List.getElem?_append_right later] at found
    obtain ⟨bound, same⟩ := List.getElem?_eq_some_iff.mp found
    have here : place = items.length := by
      rw [List.length_singleton] at bound
      omega
    subst here
    simp only [Nat.sub_self, List.getElem_cons_zero] at same
    exact Or.inr ⟨rfl, same.symm⟩

theorem Progress.next (wf : before.WellFormed) {element : Element} {ensured : BindingState}
    (round : Round before done node state element scope carrier ensured)
    (progress : Progress before done state bound) :
    Progress before (done ++ [node]) ⟨unclicked ensured.doc node, ensured.carriers⟩
      (bound ++ [outcome ensured.doc node done.length scope carrier]) where
  length := by rw [List.length_append, List.length_append, progress.length]; rfl
  marked := by
    intro number other reached
    rcases getElem?_concat_cases reached with earlier | ⟨rfl, rfl⟩
    · have different : other ≠ node := by
        rintro rfl
        exact round.not_mem_behind wf (List.mem_of_getElem? earlier)
      have known := progress.marked earlier
      rw [round.attr?_mark other (Document.has_of_attr? known), if_neg different]
      exact known
    · rw [round.attr?_mark other (round.frame.has round.old), if_pos rfl]
  served := by
    intro number other reached
    rcases getElem?_concat_cases reached with earlier | ⟨rfl, rfl⟩
    · obtain ⟨scope, carrier, read, found, same, known⟩ := progress.served earlier
      refine ⟨scope, carrier, read, found, same, ?_⟩
      rw [List.getElem?_append_left (List.getElem?_eq_some_iff.mp known).1]
      exact known
    · refine ⟨scope, carrier, ensured.doc, round.eventScope_eq wf,
        fun name => round.attr?_node wf, ?_⟩
      rw [← progress.length, List.getElem?_concat_length]

end ServerPages.Binding

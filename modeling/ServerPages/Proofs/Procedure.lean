import ServerPages.Procedure

/-!
# Running procedures

Equations that run a procedure step by step, and the two ways to reason about a whole one:
by what it keeps of a state, ending well or in any way, and by comparing two runs from states that
are alike.
-/

namespace ServerPages.Procedure

variable {σ τ ε δ α β : Type}

@[simp] theorem runFrom_get (state : σ) :
    (get : Procedure σ ε σ).runFrom state = (.ok state, state) := rfl

@[simp] theorem runFrom_set (next state : σ) :
    (set next : Procedure σ ε PUnit).runFrom state = (.ok PUnit.unit, next) := rfl

@[simp] theorem runFrom_modify (change : σ → σ) (state : σ) :
    (modify change : Procedure σ ε PUnit).runFrom state = (.ok PUnit.unit, change state) := rfl

@[simp] theorem runFrom_modifyGet (change : σ → α × σ) (state : σ) :
    (modifyGet change : Procedure σ ε α).runFrom state =
      (.ok (change state).1, (change state).2) := rfl

@[simp] theorem runFrom_throw (error : ε) (state : σ) :
    (throw error : Procedure σ ε α).runFrom state = (.error error, state) := rfl

theorem runFrom_tryCatch (procedure : Procedure σ ε α) (handle : ε → Procedure σ ε α)
    (state : σ) :
    (tryCatch procedure handle).runFrom state =
      match procedure.runFrom state with
      | (.ok value, state) => (.ok value, state)
      | (.error error, state) => (handle error).runFrom state := by
  simp only [runFrom, tryCatch, tryCatchThe, MonadExceptOf.tryCatch, ExceptT.tryCatch]
  simp only [ExceptT.run, ExceptT.mk, StateT.run_bind]
  rcases h : StateT.run procedure state with ⟨result, next⟩
  cases result <;> rfl

theorem runFrom_bind_ok {first : Procedure σ ε α} {next : α → Procedure σ ε β} {state after : σ}
    {value : α} (done : first.runFrom state = (.ok value, after)) :
    (first >>= next).runFrom state = (next value).runFrom after := by
  rw [runFrom_bind, done]

theorem runFrom_bind_error {first : Procedure σ ε α} {next : α → Procedure σ ε β}
    {state after : σ} {error : ε} (failed : first.runFrom state = (.error error, after)) :
    (first >>= next).runFrom state = (.error error, after) := by
  rw [runFrom_bind, failed]

/-- A loop over numbered items. What each round keeps of the items behind it, of the state and of
the results so far holds at the end, unless a round fails. -/
theorem mapM_zipIdx_cases (each : α × Nat → Procedure σ ε β) (items : List α) {start : σ}
    (keeps : List α → σ → List β → Prop) (fails : ε → Prop) (first : keeps [] start [])
    (round : ∀ behind item ahead state results, items = behind ++ item :: ahead →
      keeps behind state results →
      (∃ value next, (each (item, behind.length)).runFrom state = (.ok value, next) ∧
        keeps (behind ++ [item]) next (results ++ [value])) ∨
      ∃ error next, (each (item, behind.length)).runFrom state = (.error error, next) ∧
        fails error) :
    (∃ results after, (items.zipIdx.mapM each).runFrom start = (.ok results, after) ∧
      keeps items after results) ∨
    ∃ error after, (items.zipIdx.mapM each).runFrom start = (.error error, after) ∧
      fails error := by
  have ahead : ∀ ahead behind state results, items = behind ++ ahead →
      keeps behind state results →
      (∃ more after, ((ahead.zipIdx behind.length).mapM each).runFrom state = (.ok more, after) ∧
        keeps items after (results ++ more)) ∨
      ∃ error after, ((ahead.zipIdx behind.length).mapM each).runFrom state =
        (.error error, after) ∧ fails error := by
    intro ahead
    induction ahead with
    | nil =>
        intro behind state results whole kept
        rw [List.append_nil] at whole
        refine Or.inl ⟨[], state, rfl, ?_⟩
        rw [whole, List.append_nil]
        exact kept
    | cons item ahead ih =>
        intro behind state results whole kept
        rw [List.zipIdx_cons, List.mapM_cons]
        rcases round behind item ahead state results whole kept with
          ⟨value, next, run, later⟩ | ⟨error, next, run, failed⟩
        · rw [runFrom_bind_ok run]
          have rest := ih (behind ++ [item]) next (results ++ [value]) (by simp [whole]) later
          rw [List.length_append, List.length_singleton] at rest
          rcases rest with ⟨more, after, run, kept⟩ | ⟨error, after, run, failed⟩
          · refine Or.inl ⟨value :: more, after, ?_, ?_⟩
            · rw [runFrom_bind_ok run, runFrom_pure]
            · rw [List.append_cons]
              exact kept
          · exact Or.inr ⟨error, after, runFrom_bind_error run, failed⟩
        · exact Or.inr ⟨error, next, runFrom_bind_error run, failed⟩
  simpa using ahead items [] start [] rfl first

/-! ## Runs that end well -/

/-- From states with a property a procedure ends well, in a state with the property. -/
def Keeps (property : σ → Prop) (procedure : Procedure σ ε α) : Prop :=
  ∀ state, property state →
    ∃ value next, procedure.runFrom state = (.ok value, next) ∧ property next

namespace Keeps

variable {property : σ → Prop}

theorem pure (value : α) : Keeps property (pure value : Procedure σ ε α) :=
  fun state holds => ⟨value, state, rfl, holds⟩

theorem bind {first : Procedure σ ε α} {next : α → Procedure σ ε β}
    (start : Keeps property first) (rest : ∀ value, Keeps property (next value)) :
    Keeps property (first >>= next) := by
  intro state holds
  obtain ⟨value, middle, run, holds⟩ := start state holds
  rw [runFrom_bind_ok run]
  exact rest value middle holds

theorem foldlM {each : β → α → Procedure σ ε β} {items : List α}
    (one : ∀ total, ∀ item ∈ items, Keeps property (each total item)) (start : β) :
    Keeps property (items.foldlM each start) := by
  induction items generalizing start with
  | nil => exact pure start
  | cons item rest ih =>
      rw [List.foldlM_cons]
      refine bind (one start item List.mem_cons_self) fun total => ih ?_ total
      exact fun total item member => one total item (List.mem_cons_of_mem _ member)

end Keeps

/-! ## Runs of any end -/

/-- From states with a property a run leaves a state with the property, whether it fails or not. -/
def Preserves (property : σ → Prop) (procedure : Procedure σ ε α) : Prop :=
  ∀ state, property state → property (procedure.runFrom state).2

namespace Preserves

variable {property : σ → Prop}

theorem pure (value : α) : Preserves property (pure value : Procedure σ ε α) :=
  fun _ holds => holds

theorem throw (error : ε) : Preserves property (throw error : Procedure σ ε α) :=
  fun _ holds => holds

theorem modify {change : σ → σ} (keeps : ∀ state, property state → property (change state)) :
    Preserves property (modify change : Procedure σ ε PUnit) :=
  keeps

/-- What follows a procedure from a state may rely on the result that it comes to there. -/
theorem bind_at {first : Procedure σ ε α} {next : α → Procedure σ ε β} {state : σ}
    (start : property (first.runFrom state).2)
    (rest : ∀ value after, first.runFrom state = (.ok value, after) → property after →
      property ((next value).runFrom after).2) :
    property ((first >>= next).runFrom state).2 := by
  rcases run : first.runFrom state with ⟨result, after⟩
  rw [run] at start
  cases result with
  | error error =>
      rw [runFrom_bind_error run]
      exact start
  | ok value =>
      rw [runFrom_bind_ok run]
      exact rest value after run start

theorem bind {first : Procedure σ ε α} {next : α → Procedure σ ε β}
    (start : Preserves property first) (rest : ∀ value, Preserves property (next value)) :
    Preserves property (first >>= next) :=
  fun state holds => bind_at (start state holds) fun value after _ => rest value after

/-- What follows a look at the state may rely on what the state is. -/
theorem get_bind {next : σ → Procedure σ ε α}
    (rest : ∀ state, property state → property ((next state).runFrom state).2) :
    Preserves property (get >>= next) :=
  rest

theorem tryCatch {procedure : Procedure σ ε α} {handle : ε → Procedure σ ε α}
    (tried : Preserves property procedure)
    (handles : ∀ error, Preserves property (handle error)) :
    Preserves property (tryCatch procedure handle) := by
  intro state holds
  have kept := tried state holds
  rw [runFrom_tryCatch]
  rcases run : procedure.runFrom state with ⟨result, middle⟩
  rw [run] at kept
  cases result with
  | error error => exact handles error middle kept
  | ok value => exact kept

theorem foldlM {each : β → α → Procedure σ ε β} {items : List α}
    (one : ∀ total, ∀ item ∈ items, Preserves property (each total item)) (start : β) :
    Preserves property (items.foldlM each start) := by
  induction items generalizing start with
  | nil => exact pure start
  | cons item rest ih =>
      rw [List.foldlM_cons]
      refine bind (one start item List.mem_cons_self) fun total => ih ?_ total
      exact fun total item member => one total item (List.mem_cons_of_mem _ member)

theorem mapM {items : List β} {each : β → Procedure σ ε α}
    (one : ∀ item, Preserves property (each item)) : Preserves property (items.mapM each) := by
  induction items with
  | nil => exact pure []
  | cons item rest ih =>
      rw [List.mapM_cons]
      exact bind (one item) fun _ => bind ih fun _ => pure _

end Preserves

/-! ## What runs come to -/

end ServerPages.Procedure

namespace ServerPages

/-- A good value, or an error of an expected kind. -/
inductive Fits {ε α : Type} (good : α → Prop) (expected : ε → Prop) : Except ε α → Prop
  | ok {value : α} (holds : good value) : Fits good expected (.ok value)
  | error {error : ε} (holds : expected error) : Fits good expected (.error error)

namespace Fits

variable {ε δ α β : Type} {good : α → Prop} {fine : β → Prop} {expected : ε → Prop}
  {result : Except ε α}

theorem imp {other : α → Prop} (fits : Fits good expected result)
    (implies : ∀ value, good value → other value) : Fits other expected result := by
  cases fits with
  | ok holds => exact .ok (implies _ holds)
  | error holds => exact .error holds

theorem map (fits : Fits good expected result) {f : α → β}
    (implies : ∀ value, good value → fine (f value)) : Fits fine expected (result.map f) := by
  cases fits with
  | ok holds => exact .ok (implies _ holds)
  | error holds => exact .error holds

theorem mapError {expectedThere : δ → Prop} (fits : Fits good expected result) {f : ε → δ}
    (seen : ∀ error, expected error → expectedThere (f error)) :
    Fits good expectedThere (result.mapError f) := by
  cases fits with
  | ok holds => exact .ok holds
  | error holds => exact .error (seen _ holds)

end Fits

end ServerPages

namespace ServerPages.Procedure

variable {σ τ ε δ α β : Type}

/-- From states with a property a run comes to a good value or to an expected error, and leaves a
state with the property. -/
def Yields (property : σ → Prop) (good : α → Prop) (expected : ε → Prop)
    (procedure : Procedure σ ε α) : Prop :=
  ∀ state, property state →
    Fits good expected (procedure.runFrom state).1 ∧ property (procedure.runFrom state).2

namespace Yields

variable {property : σ → Prop} {good : α → Prop} {fine : β → Prop} {expected : ε → Prop}

theorem pure {value : α} (holds : good value) :
    Yields property good expected (pure value : Procedure σ ε α) :=
  fun _ kept => ⟨.ok holds, kept⟩

theorem throw {error : ε} (holds : expected error) :
    Yields property good expected (throw error : Procedure σ ε α) :=
  fun _ kept => ⟨.error holds, kept⟩

/-- What follows a procedure from a state may rely on what that comes to there. -/
theorem bind_at {first : Procedure σ ε α} {next : α → Procedure σ ε β} {state : σ}
    (start : Fits good expected (first.runFrom state).1 ∧ property (first.runFrom state).2)
    (rest : ∀ value, good value → Yields property fine expected (next value)) :
    Fits fine expected ((first >>= next).runFrom state).1 ∧
      property ((first >>= next).runFrom state).2 := by
  rcases run : first.runFrom state with ⟨result, middle⟩
  rw [run] at start
  obtain ⟨fits, kept⟩ := start
  cases fits with
  | error holds =>
      rw [runFrom_bind_error run]
      exact ⟨.error holds, kept⟩
  | ok holds =>
      rw [runFrom_bind_ok run]
      exact rest _ holds middle kept

theorem bind {first : Procedure σ ε α} {next : α → Procedure σ ε β}
    (start : Yields property good expected first)
    (rest : ∀ value, good value → Yields property fine expected (next value)) :
    Yields property fine expected (first >>= next) :=
  fun state kept => bind_at (start state kept) rest

/-- Where any value is good, what follows relies on none. -/
theorem andThen {first : Procedure σ ε α} {next : α → Procedure σ ε β}
    (start : Yields property (fun _ => True) expected first)
    (rest : ∀ value, Yields property fine expected (next value)) :
    Yields property fine expected (first >>= next) :=
  start.bind fun value _ => rest value

theorem mapError {expectedThere : δ → Prop} {procedure : Procedure σ ε α}
    (yields : Yields property good expected procedure) {f : ε → δ}
    (seen : ∀ error, expected error → expectedThere (f error)) :
    Yields property good expectedThere (procedure.mapError f) :=
  fun state kept => (yields state kept).imp_left fun fits => fits.mapError seen

theorem tryCatch {expectedThere : ε → Prop} {procedure : Procedure σ ε α}
    {handle : ε → Procedure σ ε α} (tried : Yields property good expectedThere procedure)
    (handles : ∀ error, expectedThere error → Yields property good expected (handle error)) :
    Yields property good expected (tryCatch procedure handle) := by
  intro state kept
  have begun := tried state kept
  rw [runFrom_tryCatch]
  rcases run : procedure.runFrom state with ⟨result, middle⟩
  rw [run] at begun
  obtain ⟨fits, kept⟩ := begun
  cases fits with
  | error holds => exact handles _ holds middle kept
  | ok holds => exact ⟨.ok holds, kept⟩

end Yields

/-! ## Comparing runs -/

/-- From related states two procedures come to the same result and to related states, and a result
that is no error is a good one. -/
def Simulates (related : σ → τ → Prop) (good : α → Prop) (outer : Procedure σ ε α)
    (inner : Procedure τ ε α) : Prop :=
  ∀ first second, related first second →
    (outer.runFrom first).1 = (inner.runFrom second).1 ∧
      related (outer.runFrom first).2 (inner.runFrom second).2 ∧
        ∀ value, (outer.runFrom first).1 = .ok value → good value

namespace Simulates

variable {related : σ → τ → Prop} {good : α → Prop} {fine : β → Prop}

theorem pure {value : α} (holds : good value) :
    Simulates related good (pure value : Procedure σ ε α) (pure value) := by
  refine fun _ _ same => ⟨rfl, same, fun other done => ?_⟩
  cases done
  exact holds

theorem throw (error : ε) :
    Simulates related good (throw error : Procedure σ ε α) (throw error) :=
  fun _ _ same => ⟨rfl, same, nofun⟩

theorem bind {outer : Procedure σ ε α} {inner : Procedure τ ε α} {next : α → Procedure σ ε β}
    {rest : α → Procedure τ ε β} (start : Simulates related good outer inner)
    (continues : ∀ value, good value → Simulates related fine (next value) (rest value)) :
    Simulates related fine (outer >>= next) (inner >>= rest) := by
  intro left right same
  obtain ⟨results, states, holds⟩ := start left right same
  rw [runFrom_bind, runFrom_bind]
  rcases hl : outer.runFrom left with ⟨resultLeft, left'⟩
  rcases hr : inner.runFrom right with ⟨resultRight, right'⟩
  rw [hl, hr] at results states
  rw [hl] at holds
  cases results
  cases resultLeft with
  | error error => exact ⟨rfl, states, nofun⟩
  | ok value => exact continues value (holds value rfl) left' right' states

theorem mapError {outer : Procedure σ ε α} {inner : Procedure τ ε α} (f : ε → δ)
    (same : Simulates related good outer inner) :
    Simulates related good (outer.mapError f) (inner.mapError f) := by
  intro left right alike
  obtain ⟨results, states, holds⟩ := same left right alike
  refine ⟨congrArg (Except.mapError f) results, states, fun value done => holds value ?_⟩
  cases result : (outer.runFrom left).1 with
  | error error =>
      have failed : Except.mapError f (outer.runFrom left).1 = .ok value := done
      rw [result] at failed
      cases failed
  | ok found =>
      have found : Except.mapError f (outer.runFrom left).1 = .ok value := done
      rw [result] at found
      cases found
      rfl

end Simulates

def Respects (alike : σ → σ → Prop) (procedure : Procedure σ ε α) : Prop :=
  ∀ first second, alike first second →
    (procedure.runFrom first).1 = (procedure.runFrom second).1 ∧
      alike (procedure.runFrom first).2 (procedure.runFrom second).2

theorem respects_iff_simulates {alike : σ → σ → Prop} {procedure : Procedure σ ε α} :
    Respects alike procedure ↔ Simulates alike (fun _ => True) procedure procedure :=
  ⟨fun respects left right same =>
      ⟨(respects left right same).1, (respects left right same).2, fun _ _ => trivial⟩,
    fun simulates left right same =>
      ⟨(simulates left right same).1, (simulates left right same).2.1⟩⟩

namespace Respects

variable {alike : σ → σ → Prop}

theorem pure (value : α) : Respects alike (pure value : Procedure σ ε α) :=
  fun _ _ same => ⟨rfl, same⟩

theorem throw (error : ε) : Respects alike (throw error : Procedure σ ε α) :=
  fun _ _ same => ⟨rfl, same⟩

theorem bind {first : Procedure σ ε α} {next : α → Procedure σ ε β}
    (start : Respects alike first) (rest : ∀ value, Respects alike (next value)) :
    Respects alike (first >>= next) :=
  respects_iff_simulates.mpr <|
    (respects_iff_simulates.mp start).bind fun value _ => respects_iff_simulates.mp (rest value)

theorem mapError {procedure : Procedure σ ε α} (f : ε → δ) (respects : Respects alike procedure) :
    Respects alike (procedure.mapError f) :=
  respects_iff_simulates.mpr ((respects_iff_simulates.mp respects).mapError f)

theorem modify {change : σ → σ}
    (keeps : ∀ first second, alike first second → alike (change first) (change second)) :
    Respects alike (modify change : Procedure σ ε PUnit) :=
  fun first second same => ⟨rfl, keeps first second same⟩

theorem tryCatch {procedure : Procedure σ ε α} {handle : ε → Procedure σ ε α}
    (tried : Respects alike procedure) (handles : ∀ error, Respects alike (handle error)) :
    Respects alike (tryCatch procedure handle) := by
  intro left right same
  obtain ⟨results, states⟩ := tried left right same
  rw [runFrom_tryCatch, runFrom_tryCatch]
  rcases hl : procedure.runFrom left with ⟨resultLeft, left'⟩
  rcases hr : procedure.runFrom right with ⟨resultRight, right'⟩
  rw [hl, hr] at results states
  cases results
  cases resultLeft with
  | error error => exact handles error left' right' states
  | ok value => exact ⟨rfl, states⟩

/-- What follows a look at the state may use only what alike states have in common. -/
theorem get_bind {next : σ → Procedure σ ε α}
    (rest : ∀ left right, alike left right →
      ((next left).runFrom left).1 = ((next right).runFrom right).1 ∧
        alike ((next left).runFrom left).2 ((next right).runFrom right).2) :
    Respects alike (get >>= next) :=
  fun left right same => rest left right same

theorem mapM {items : List β} {each : β → Procedure σ ε α}
    (one : ∀ item, Respects alike (each item)) : Respects alike (items.mapM each) := by
  induction items with
  | nil => exact pure []
  | cons item rest ih =>
      rw [List.mapM_cons]
      exact bind (one item) fun _ => bind ih fun _ => pure _

end Respects

/-! ## Many runs in turn -/

/-- Where each of some runs comes to a result of its own, as long as the state has what every run
keeps, all of them do so in turn. -/
theorem run_mapM_of_kept {kept : σ → Prop} {each : α → StateM σ β} {result : α → β}
    (one : ∀ item state, kept state →
      ((each item).run state).1 = result item ∧ kept ((each item).run state).2)
    (items : List α) {state : σ} (start : kept state) :
    ((items.mapM each).run state).1 = items.map result ∧ kept ((items.mapM each).run state).2 := by
  induction items generalizing state with
  | nil => exact ⟨rfl, start⟩
  | cons item items ih =>
      obtain ⟨first, next⟩ := one item state start
      obtain ⟨others, last⟩ := ih next
      have run : ((item :: items).mapM each).run state =
          (((each item).run state).1 :: ((items.mapM each).run ((each item).run state).2).1,
            ((items.mapM each).run ((each item).run state).2).2) := by
        rw [List.mapM_cons]
        rfl
      rw [run]
      exact ⟨by rw [first, others, List.map_cons], last⟩

end ServerPages.Procedure

import ServerPages.Proofs.Procedure

/-!
# Recorded procedures

A recorded procedure works on a state beside a list of notes. It does what a plain
procedure does and adds to the notes what is worth telling: its course. Notes are never
read and never taken back, so that a recorded run and the plain one come to the same
result and the same state.
-/

namespace ServerPages.Procedure

variable {σ ε ν α β : Type}

def silently (procedure : Procedure σ ε α) : Procedure (σ × List ν) ε α :=
  .within (·.1) (fun state recorded => (state, recorded.2)) procedure

/-- A recorded procedure with a note of how it ended, and where, after all its others. -/
def noting (note : Except ε α → σ → ν) (procedure : Procedure (σ × List ν) ε α) :
    Procedure (σ × List ν) ε α :=
  .ofRun fun recorded =>
    let (result, state, course) := procedure.runFrom recorded
    (result, state, course ++ [note result state])

/-- From a state, a plain procedure and a recorded one come to the same result and the same state,
and the recorded one adds a course to the notes. -/
structure Traces (plain : Procedure σ ε α) (recorded : Procedure (σ × List ν) ε α) (start : σ)
    (course : List ν) (result : Except ε α) (after : σ) : Prop where
  plain : plain.runFrom start = (result, after)
  recorded (notes : List ν) :
    recorded.runFrom (start, notes) = (result, after, notes ++ course)

namespace Traces

variable {start middle after : σ} {course more : List ν} {plain : Procedure σ ε α}
  {recorded : Procedure (σ × List ν) ε α} {result : Except ε α}

theorem silently (run : plain.runFrom start = (result, after)) :
    Traces plain (silently plain) start ([] : List ν) result after where
  plain := run
  recorded notes := by
    rw [Procedure.silently, within, runFrom_ofRun, run, List.append_nil]

theorem pure (value : α) :
    Traces (pure value : Procedure σ ε α) (pure value) start ([] : List ν) (.ok value) start where
  plain := rfl
  recorded notes := by rw [runFrom_pure, List.append_nil]

theorem throw (error : ε) :
    Traces (throw error : Procedure σ ε α) (throw error) start ([] : List ν) (.error error)
      start where
  plain := rfl
  recorded notes := by rw [runFrom_throw, List.append_nil]

theorem noting (traces : Traces plain recorded start course result after)
    (note : Except ε α → σ → ν) :
    Traces plain (noting note recorded) start (course ++ [note result after]) result after where
  plain := traces.plain
  recorded notes := by
    rw [Procedure.noting, runFrom_ofRun, traces.recorded, ← List.append_assoc]

section

variable {value : α} {error : ε} {next : α → Procedure σ ε β}
  {nextRecorded : α → Procedure (σ × List ν) ε β} {outcome : Except ε β}

theorem bind (first : Traces plain recorded start course (.ok value) middle)
    (rest : Traces (next value) (nextRecorded value) middle more outcome after) :
    Traces (plain >>= next) (recorded >>= nextRecorded) start (course ++ more) outcome after where
  plain := (runFrom_bind_ok first.plain).trans rest.plain
  recorded notes := by
    rw [runFrom_bind_ok (first.recorded notes), rest.recorded, List.append_assoc]

/-- What a part that notes nothing is followed by has the whole course. -/
theorem bind_silent (first : Traces plain recorded start [] (.ok value) middle)
    (rest : Traces (next value) (nextRecorded value) middle more outcome after) :
    Traces (plain >>= next) (recorded >>= nextRecorded) start more outcome after :=
  first.bind rest

/-- So has what a part that notes nothing follows. -/
theorem bind_last (first : Traces plain recorded start course (.ok value) middle)
    (rest : Traces (next value) (nextRecorded value) middle [] outcome after) :
    Traces (plain >>= next) (recorded >>= nextRecorded) start course outcome after := by
  have whole := first.bind rest
  rw [List.append_nil] at whole
  exact whole

theorem bind_error (first : Traces plain recorded start course (.error error) after) :
    Traces (plain >>= next) (recorded >>= nextRecorded) start course (.error error) after where
  plain := runFrom_bind_error first.plain
  recorded notes := runFrom_bind_error (first.recorded notes)

end

/-- Another view of the result adds nothing to the course. -/
theorem bind_pure (traces : Traces plain recorded start course result after) (view : α → β) :
    Traces (plain >>= fun value => Pure.pure (view value))
      (recorded >>= fun value => Pure.pure (view value)) start course (result.map view) after := by
  cases result with
  | error error => exact traces.bind_error
  | ok value => exact traces.bind_last (pure (view value))

section

variable {value : α} {error : ε} {handle : ε → Procedure σ ε α}
  {handleRecorded : ε → Procedure (σ × List ν) ε α}

theorem tryCatch_ok (traces : Traces plain recorded start course (.ok value) after) :
    Traces (tryCatch plain handle) (tryCatch recorded handleRecorded) start course (.ok value)
      after where
  plain := by rw [runFrom_tryCatch, traces.plain]
  recorded notes := by rw [runFrom_tryCatch, traces.recorded]

theorem tryCatch_error (traces : Traces plain recorded start course (.error error) middle)
    (handled : Traces (handle error) (handleRecorded error) middle more result after) :
    Traces (tryCatch plain handle) (tryCatch recorded handleRecorded) start (course ++ more) result
      after where
  plain := by rw [runFrom_tryCatch, traces.plain]; exact handled.plain
  recorded notes := by
    rw [runFrom_tryCatch, traces.recorded]
    dsimp only
    rw [handled.recorded, List.append_assoc]

end

end Traces

end ServerPages.Procedure

import ServerPages.Document.Edit
import ServerPages.Failure
import ServerPages.Procedure

/-!
# Edits as procedures

An edit that is refused fails with the error of a page and leaves the document as it
was.
-/

namespace ServerPages.Document

def edit (change : Document → Except EditError Document) : Procedure Document PageError Unit :=
  .step fun doc => (change doc).mapError .document

theorem runFrom_edit_ok {change : Document → Except EditError Document} {doc next : Document}
    (h : change doc = .ok next) : (edit change).runFrom doc = (.ok (), next) := by
  rw [edit, Procedure.step, Procedure.runFrom_ofRun, h]
  rfl

theorem runFrom_edit_error {change : Document → Except EditError Document} {doc : Document}
    {error : EditError} (h : change doc = .error error) :
    (edit change).runFrom doc = (.error (.document error), doc) := by
  rw [edit, Procedure.step, Procedure.runFrom_ofRun, h]
  rfl

end ServerPages.Document

import GuidedTour.Text.Basic

/-!
# Line ends

A carriage return, alone or before a line feed, ends a line just as a line feed does. Text that comes
from a file or from another program is brought to line feeds first.
-/

set_option autoImplicit false

namespace GuidedTour.Text

/-- The text with a line feed for every line end. -/
def unifyLineEnds : Text → Text
  | [] => []
  | '\r' :: '\n' :: rest => '\n' :: unifyLineEnds rest
  | '\r' :: rest => '\n' :: unifyLineEnds rest
  | c :: rest => c :: unifyLineEnds rest

/-- A text without carriage returns is left alone. -/
theorem unifyLineEnds_of_notMem {text : Text} (h : '\r' ∉ text) : unifyLineEnds text = text := by
  induction text with
  | nil => rfl
  | cons c rest ih =>
    simp only [List.mem_cons, not_or] at h
    rw [unifyLineEnds.eq_4 _ _ (fun r hc _ => h.1 hc.symm) (fun hc => h.1 hc.symm), ih h.2]

end GuidedTour.Text

import GuidedTour.Text.Basic

/-!
# Log lines

What the parts of the tour report while they work. An operation that reports returns its lines with its
result; the outer layer decides where they go.
-/

set_option autoImplicit false

namespace GuidedTour

/-- How serious a log line is. -/
inductive Level where
  | debug | info | warning | error
deriving DecidableEq, Repr, Inhabited

/-- The part of the tour that a log line comes from. -/
inductive Reporter where
  | highlighting | interpreter | verification | content | window | tour
deriving DecidableEq, Repr, Inhabited

/-- The word for a level. -/
def Level.name : Level → String
  | debug => "DEBUG"
  | info => "INFO"
  | warning => "WARNING"
  | error => "ERROR"

/-- The name of a reporter in the log. -/
def Reporter.name : Reporter → String
  | highlighting => "highlighting"
  | interpreter => "interpreter_bridge"
  | verification => "verification"
  | content => "tutorial_content"
  | window => "tutorial_widget"
  | tour => "blockpipe_tour"

/-- One line of the log. -/
structure LogLine where
  level : Level
  reporter : Reporter
  message : Text
deriving DecidableEq, Repr, Inhabited

/-- A log line as it is printed. -/
def LogLine.shown (line : LogLine) : Text :=
  line.level.name.toList ++ ' ' :: line.reporter.name.toList ++ [':', ' '] ++ line.message

/-- Whether a line is printed; details for looking into the program are kept back unless asked for. -/
def LogLine.visible (verbose : Bool) (line : LogLine) : Bool :=
  verbose || line.level != .debug

end GuidedTour

import GuidedTour.CommandLine.Options
import GuidedTour.Tour.Window

/-!
# Launching the tour

The language is registered, the tour is loaded, and the window is opened. A tour that cannot be loaded is
reported and ends the program with a status of its own.
-/

set_option autoImplicit false

namespace GuidedTour.CommandLine

/-- How a launch ends. -/
inductive Ending where
  /-- The window is open. -/
  | opened (window : Tour.Window Pattern)
  /-- The tour could not be loaded, which was reported. -/
  | refused (error : Content.ContentError)
  /-- Loading came to a fault that no report is prepared for. -/
  | broken (fault : Content.LoadFault)
  /-- The language could not be registered. -/
  | unregistered (error : RegistrationError)
deriving Inhabited

/-- A launch: its report, and how it ends. -/
structure Launch where
  logs : List LogLine
  ending : Ending
deriving Inhabited

/-- The status that the program ends with, unless it comes to a fault. -/
def Ending.status? : Ending → Option Nat
  | opened _ => some 0
  | refused _ => some 1
  | broken _ => none
  | unregistered _ => none

/-- The status that the program ends with when it is used in a wrong way. -/
def usageStatus : Nat := 2

/-- What is printed when the program is used in a wrong way. -/
def usageReport (e : UnknownOption) : Text := e.message ++ '\n' :: usage ++ ['\n']

/-- The report that the tour cannot be started. -/
def cannotStartLog (error : Content.ContentError) : LogLine :=
  ⟨.error, .tour, "Cannot start the tour: ".toList ++ error.message⟩

/-- Opens the window of a tour in the registered language. -/
def openTour (registered : Registered Pattern) (families : List String) (lessons : List Section) :
    Tour.Window Pattern × LogLine :=
  let window := Tour.Window.ofSections registered.language families lessons
  (window, window.shownLog)

/-- Launches the tour that the options ask for. -/
def launch (options : Options) (files : Content.Files) (families : List String) : Launch :=
  match Registry.empty.ensure options.rules with
  | .error error => ⟨[], .unregistered error⟩
  | .ok accepted =>
    match Content.load files options.content with
    | .error (.content error) => ⟨accepted.logs ++ [cannotStartLog error], .refused error⟩
    | .error (.fault fault) => ⟨accepted.logs, .broken fault⟩
    | .ok lessons =>
      let (window, shown) := openTour accepted.registered families lessons
      ⟨accepted.logs ++ [Content.loadedLog options.content lessons, shown], .opened window⟩

/-- The lines of a log as they are printed, each on a line of its own. -/
def printedLog (verbose : Bool) (logs : List LogLine) : Text :=
  (logs.filter (·.visible verbose)).flatMap fun line => line.shown ++ ['\n']

end GuidedTour.CommandLine

import GuidedTour.Tour.View

/-!
# The tour window

The window shows a header, one view for each section in order, and a closing note. All sections share one
interpreter.
-/

set_option autoImplicit false

namespace GuidedTour.Tour

/-- A line of text in the window. -/
structure Label where
  text : Text
  font : Font
  colour : Colour
deriving DecidableEq, Repr, Inhabited

/-- The outward properties of the window. -/
structure Frame where
  title : Text
  geometry : String
  leastWidth : Nat
  leastHeight : Nat
  background : Colour
deriving DecidableEq, Repr, Inhabited

/-- The window: its views, the font of program text, and how often the interpreter has been called. -/
structure Window (α : Type) where
  views : List (View α)
  codeFont : Font
  calls : Nat
deriving Inhabited

namespace Window

variable {α κ : Type}

/-- The heading of the tour. -/
def heading : Text := "An Interactive Tour of BlockPipe".toList

/-- The frame of the window. -/
def frame : Frame := ⟨heading, "960x800", 640, 480, Shade.backgroundTertiary.colour⟩

/-- The labels of the header. -/
def header : List Label :=
  [⟨"()|\x7b\x7d".toList, .ui 32 true, Shade.accent.colour⟩,
   ⟨heading, .ui 20 true, Shade.text.colour⟩,
   ⟨"A functional language built around the pipe operator".toList, .ui 13 false,
     Shade.subtext.colour⟩]

/-- The labels of a section. -/
def sectionLabels (lesson : Section) : List Label :=
  [⟨lesson.title, .ui 18 true, Shade.text.colour⟩,
   ⟨lesson.narrative, .ui 12 false, Shade.subtext.colour⟩]

/-- The labels of the closing note. -/
def footer : List Label :=
  [⟨"You made it! That was a whirlwind tour of BlockPipe.".toList, .ui 14 true,
    Shade.text.colour⟩]

/-- The window of some sections, given the language of the editors and the installed fonts. -/
def ofSections [Matching α κ] (language : Language α) (families : List String) (lessons : List Section) : Window α :=
  ⟨lessons.map fun lesson => .ofSession language (.ofSection lesson),
    Font.code families Font.codeSize, 0⟩

/-- All labels of the window, from top to bottom. -/
def labels (window : Window α) : List Label :=
  header ++ (window.views.flatMap fun view => sectionLabels view.session.lesson) ++ footer

/-- The fonts of the text panes, two for each section: the editor and the output. -/
def paneFonts (window : Window α) : List Font :=
  window.views.flatMap fun _ => [window.codeFont, window.codeFont]

/-- The report that the window is shown. -/
def shownLog (window : Window α) : LogLine :=
  ⟨.info, .window, "Showing ".toList ++ Text.ofNat window.views.length
    ++ " tutorial sections".toList⟩

/-- The window after a step on one of its sections, if it is there, and what the step did. -/
def step [Matching α κ] (window : Window α) (interpreter : Interpreter) (index : Nat) (step : Step) :
    Option (Window α × Stepped α) :=
  (window.views[index]?).map fun view =>
    let stepped := view.step interpreter window.calls step
    ({ window with
        views := window.views.set index stepped.view
        calls := window.calls + stepped.call.toList.length }, stepped)

end Window

end GuidedTour.Tour

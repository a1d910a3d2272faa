/-!
# The palette

The colours of the tour, by what they are for, and the fonts it asks for.
-/

set_option autoImplicit false

namespace GuidedTour

/-- A colour as `#rrggbb`. -/
abbrev Colour := String

/-- What a colour of the palette is for. -/
inductive Shade where
  | background | backgroundSecondary | backgroundTertiary
  | surface | overlay | text | subtext | accent | lavender
  | cursor | selection | outputBackground | border
  | green | orange | error
deriving DecidableEq, Repr, Inhabited

namespace Shade

/-- Every shade, in the order of the palette. -/
def all : List Shade :=
  [background, backgroundSecondary, backgroundTertiary, surface, overlay, text, subtext, accent,
   lavender, cursor, selection, outputBackground, border, green, orange, error]

/-- The key of a shade in the palette. -/
def key : Shade → String
  | background => "bg"
  | backgroundSecondary => "bg_secondary"
  | backgroundTertiary => "bg_tertiary"
  | surface => "surface"
  | overlay => "overlay"
  | text => "text"
  | subtext => "subtext"
  | accent => "accent"
  | lavender => "lavender"
  | cursor => "cursor"
  | selection => "selection"
  | outputBackground => "output_bg"
  | border => "border"
  | green => "green"
  | orange => "orange"
  | error => "error"

/-- The colour of a shade. -/
def colour : Shade → Colour
  | background => "#1e1e2e"
  | backgroundSecondary => "#181825"
  | backgroundTertiary => "#11111b"
  | surface => "#313244"
  | overlay => "#45475a"
  | text => "#cdd6f4"
  | subtext => "#a6adc8"
  | accent => "#89b4fa"
  | lavender => "#b4befe"
  | cursor => "#f5e0dc"
  | selection => "#45475a"
  | outputBackground => "#11111b"
  | border => "#313244"
  | green => "#2f9e44"
  | orange => "#f08c00"
  | error => "#f38ba8"

end Shade

/-! ## Fonts -/

/-- A font: its family, its size in points, and whether it is bold. -/
structure Font where
  family : String
  size : Int
  bold : Bool
deriving DecidableEq, Repr, Inhabited

namespace Font

/-- The families for program text, the preferred one first. -/
def codeFamilies : List String :=
  ["Iosevka", "Cascadia Code", "JetBrains Mono", "Consolas", "Courier New"]

/-- The size of program text. -/
def codeSize : Int := 12

/-- The family for everything that is not program text. -/
def uiFamily : String := "Segoe UI"

/-- A font for everything that is not program text. -/
def ui (size : Int) (bold : Bool) : Font := ⟨uiFamily, size, bold⟩

/-- The font for program text: the first preferred family that is installed, or a plain one. -/
def code (installed : List String) (size : Int) : Font :=
  ⟨(codeFamilies.find? (· ∈ installed)).getD "Courier", size, false⟩

end Font

end GuidedTour

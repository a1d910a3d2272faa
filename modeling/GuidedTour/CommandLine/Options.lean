import GuidedTour.Content.Load
import GuidedTour.Interpreter.Program
import GuidedTour.Token.Rule

/-!
# Options

The arguments of the program from left to right: the option for the interpreter takes the argument behind
it, whatever that is, two options stand alone, and anything else that does not look like an option is the
path of the tour. Of repeated arguments the last counts.
-/

set_option autoImplicit false

namespace GuidedTour.CommandLine

/-- What the program was asked for. -/
structure Options where
  content : Content.Source
  interpreter : Text
  legacyRules : Bool
  verbose : Bool
deriving DecidableEq, Repr, Inhabited

/-- An argument that looks like an option and is none. -/
structure UnknownOption where
  argument : Text
deriving DecidableEq, Repr

/-- The words for an unknown option. -/
def UnknownOption.message (e : UnknownOption) : Text := "Unknown option: ".toList ++ e.argument

/-- How the program is used. -/
def usage : Text :=
  ("Usage: python main.py [tutorial.yml] [--interpreter PATH] [--legacy-lexer] [--verbose]").toList

namespace Options

/-- The options when no argument is given, in an installation that keeps its document at a path. -/
def standard (installed : Text) : Options := ⟨.bundled installed, Program.standardName, false, false⟩

/-- The option in front of the name of the interpreter. -/
def interpreterFlag : Text := "--interpreter".toList

/-- The option for the older order of the rules. -/
def legacyFlag : Text := "--legacy-lexer".toList

/-- The option for a detailed log. -/
def verboseFlag : Text := "--verbose".toList

/-- Whether an argument looks like an option. -/
def looksLikeOption (argument : Text) : Bool := ['-', '-'].isPrefixOf argument

/-- The options after an argument that stands alone. -/
def alone (options : Options) (argument : Text) : Except UnknownOption Options :=
  if argument = legacyFlag then .ok { options with legacyRules := true }
  else if argument = verboseFlag then .ok { options with verbose := true }
  else if looksLikeOption argument then .error ⟨argument⟩
  else .ok { options with content := .path argument }

/-- The options after some more arguments. -/
def extend (options : Options) : List Text → Except UnknownOption Options
  | [] => .ok options
  | [argument] => options.alone argument
  | argument :: value :: more =>
    if argument = interpreterFlag then extend { options with interpreter := value } more
    else do extend (← options.alone argument) (value :: more)

/-- The options that some arguments ask for. -/
def parse (installed : Text) (arguments : List Text) : Except UnknownOption Options :=
  (standard installed).extend arguments

/-- The rules that program text is coloured by. -/
def rules (options : Options) : List (Rule Pattern) :=
  if options.legacyRules then Rule.legacy else Rule.standard

end Options

end GuidedTour.CommandLine

import GuidedTour.Token.Stream

/-!
# Listings

A listing shows the tokens of a program text, one on a line, and passes over what no rule matches. A short
program is at hand to show what a listing looks like.
-/

set_option autoImplicit false

namespace GuidedTour.Token

/-- The tokens of a text that some rule has matched. -/
def classified (tokens : List Token) : List Token :=
  tokens.filter fun token => token.cls != .unclassified

/-- The listing of some tokens. -/
def listing (tokens : List Token) : Text :=
  (classified tokens).flatMap fun token => token.shown ++ ['\n']

/-- The lines of a short program with every kind of bracket, both pipes, and numbers of either kind. -/
def sampleLines : List String :=
  ["",
   "    (",
   "        main: \x7b ($1 $0) \x7d",
   "        (1 2.5) |* main | \x7b ($0 \"done\") \x7d",
   "    )",
   "    "]

/-- A short program. -/
def sample : Text := Text.join ['\n'] (sampleLines.map String.toList)

/-- The listing of the short program by the rules in use. -/
def sampleListing : Text := listing (stream Rule.standard sample)

end GuidedTour.Token

import GuidedTour.Text.Basic

/-!
# The tour that comes with the program

The document that is read when no other is asked for, line by line.
-/

set_option autoImplicit false

namespace GuidedTour.Content

/-- The lines of the document of the tour that comes with the program. -/
def bundledLines : List String :=
  ["literals:",
   "  title: \"Literals\"",
   "  content: >-",
   "    Every BlockPipe program is a block, and running it prints the value of its",
   "    last expression. The simplest expressions are literals: integers, floats,",
   "    strings, and the booleans T and F. Press the play button to evaluate the",
   "    snippet.",
   "  startingCode: \"\x7b 5 \x7d\"",
   "  expect: \"5\"",
   "",
   "tuples:",
   "  title: \"Tuples\"",
   "  content: >-",
   "    Parentheses group values into a tuple. Tuples can hold any mix of values,",
   "    including other tuples. Try adding the string \"four\" to the end of this one.",
   "  startingCode: \"\x7b (1 2 3) \x7d\"",
   "  expect: \"(1 2 3 four)\"",
   "",
   "blocks:",
   "  title: \"Blocks\"",
   "  content: >-",
   "    Braces create a block: a closure that receives its arguments as $0, $1 and",
   "    so on. Bindings inside a block use a colon. The value of a block is its",
   "    last expression.",
   "  startingCode: |",
   "    \x7b",
   "        greeting: \"hello\"",
   "        greeting",
   "    \x7d",
   "  expect: \"hello\"",
   "",
   "pipes:",
   "  title: \"The pipe operator\"",
   "  content: >-",
   "    The pipe | hands the value on its left to the block on its right as a",
   "    single argument. Change the block so it returns its argument twice.",
   "  startingCode: |",
   "    \x7b",
   "        \"bruh\" | \x7b $0 \x7d",
   "    \x7d",
   "  expect: \"(bruh bruh)\"",
   "",
   "spread:",
   "  title: \"Spreading with |*\"",
   "  content: >-",
   "    The spread pipe |* unpacks a tuple into separate arguments, so the block",
   "    sees $0 and $1 instead of one tuple. Swap the two values.",
   "  startingCode: |",
   "    \x7b",
   "        (1 2) |* \x7b ($0 $1) \x7d",
   "    \x7d",
   "  expect: \"(2 1)\"",
   "",
   "runtime:",
   "  title: \"Talking to the runtime\"",
   "  content: >-",
   "    Arithmetic lives in the runtime. Send a tuple of arguments and an operation",
   "    name to plz with the spread pipe. Make this add the two floats instead of",
   "    subtracting them.",
   "  startingCode: |",
   "    \x7b",
   "        add: \x7b",
   "            (($0 $1 \"-\") \"binop_arith\") |* plz",
   "        \x7d",
   "        (1.0 2.0) |* add",
   "    \x7d",
   "  expect: \"3\"",
   ""]

/-- The document of the tour that comes with the program. -/
def bundled : Text := Text.join ['\n'] (bundledLines.map String.toList)

end GuidedTour.Content

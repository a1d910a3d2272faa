import GuidedTour.Text.Basic

/-!
# Characters of YAML text

The classes of characters that the lexical rules of YAML 1.1 are told in. Most rules look at the next
character or at the end of the text, so their classes are of optional characters and hold of the end.
-/

set_option autoImplicit false

namespace GuidedTour.Yaml

/-- Whether a character may stand in a text at all. -/
def isAllowed (c : Char) : Bool :=
  let n := c.toNat
  n = 0x9 || n = 0xa || n = 0xd || (0x20 ≤ n && n ≤ 0x7e) || n = 0x85
    || (0xa0 ≤ n && n ≤ 0xd7ff) || (0xe000 ≤ n && n ≤ 0xfffd) || 0x10000 ≤ n

/-- Whether a character breaks a line. -/
def isBreak (c : Char) : Bool :=
  c == '\n' || c == '\r' || c == '\x85' || c == '\u2028' || c == '\u2029'

/-- Whether a line ends here. -/
def atLineEnd (c : Option Char) : Bool := c.all isBreak

/-- Whether a line ends here or a space follows. -/
def atSpace (c : Option Char) : Bool := c.all fun c => c == ' ' || isBreak c

/-- Whether a line ends here or a space or a tab follows. -/
def atBlank (c : Option Char) : Bool := c.all fun c => c == ' ' || c == '\t' || isBreak c

/-- Whether a character may stand in the name of an anchor, a directive or a tag handle. -/
def inName (c : Char) : Bool := c.isAlphanum || c == '-' || c == '_'

/-- Whether a character may stand in the address of a tag. -/
def inAddress (c : Char) : Bool := c.isAlphanum || "-;/?:@&=+$,_.!~*'()[]%".toList.contains c

/-- Whether a character is a hexadecimal digit. -/
def isHexDigit (c : Char) : Bool := c.isDigit || ('a' ≤ c && c ≤ 'f') || ('A' ≤ c && c ≤ 'F')

/-- The byte order mark. -/
def byteOrderMark : Char := '\uFEFF'

/-- Line breaks with the first one folded: it becomes a space if it is the only one. Line breaks of Unicode
stay. -/
def foldedBreaks (first : Char) (more : Text) : Text :=
  if first != '\n' then first :: more else if more.isEmpty then [' '] else more

end GuidedTour.Yaml

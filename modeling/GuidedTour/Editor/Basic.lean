import GuidedTour.Editor.AutoClose
import GuidedTour.Editor.Buffer
import GuidedTour.Language.Registry
import GuidedTour.Token.Span

/-!
# Code editors

A code editor shows program text in the colours of a language. Colouring is put off: a change starts a
timer, a further change replaces the timer that the editor has in mind, and the text is coloured when a
timer runs out, in whatever order the timers do. Text that is set from outside is coloured at once, and the
editor then has no timer in mind, though one that was started before goes on running.
-/

set_option autoImplicit false

namespace GuidedTour.Editor

/-- How long colouring is put off, in milliseconds. -/
def highlightDelay : Nat := 80

/-- A timer that is running: its number, and after how long it runs out. -/
structure Timer where
  number : Nat
  delay : Nat
deriving DecidableEq, Repr, Inhabited

/-- An editor: the buffer, the language, whether its columns are wide, the tags on its text, the timers that
are running in the order in which they were started, the timer it has in mind, and the number of timers started
so far. -/
structure CodeEditor (α : Type) where
  buffer : Buffer
  language : Language α
  wide : Bool
  tags : List Token.Tag
  timers : List Timer
  job : Option Nat
  started : Nat
deriving Inhabited

/-- What happens to an editor: what a user does, a timer that runs out, or all of them, the first one first. -/
inductive Step where
  | key (typed : Text)
  | cursor (offset : Nat)
  | select (start stop : Nat)
  | backspace
  | setSource (source : Text)
  | expire (number : Nat)
  | tick
deriving DecidableEq, Repr, Inhabited

/-- What a step tells the outside: whether a key was dealt with, and whether the text has changed under the
user's hands. -/
structure Effect where
  handled : Bool
  changed : Bool
deriving DecidableEq, Repr, Inhabited

namespace CodeEditor

variable {α κ : Type}

/-- Whether columns are counted so that characters beyond U+FFFF take two, unless told otherwise. -/
def wideColumns : Bool := true

/-- The empty editor of a language. -/
def ofLanguage (language : Language α) : CodeEditor α := ⟨.empty, language, wideColumns, [], [], none, 0⟩

/-- The empty editor of a registered language. -/
def ofRegistry (registry : Registry α) (id : Text) : Except RegistrationError (CodeEditor α) :=
  (registry.get id).map fun registered => ofLanguage registered.language

/-- The text of an editor. -/
def source (e : CodeEditor α) : Text := e.buffer.text

/-- Colours the whole text: takes off the tags of the classes that the theme colours, and puts on a tag for
every token. No timer is in mind afterwards. -/
def highlight [Matching α κ] (e : CodeEditor α) : CodeEditor α :=
  { e with
    tags := (e.tags.filter fun tag => (e.language.colour? tag.cls).isNone)
      ++ Token.tags e.wide e.source (e.language.tokens e.source)
    job := none }

/-- Sets the text from outside and colours it. -/
def setSource [Matching α κ] (e : CodeEditor α) (source : Text) : CodeEditor α :=
  { e with buffer := (e.buffer.replace source).settled }.highlight

/-- Deals with a key that closes automatically: the editor after it, or nothing for any other key. -/
def closeKey? (e : CodeEditor α) (typed : Text) : Option (CodeEditor α) :=
  (autoClose? typed [e.buffer.next] e.buffer.selected).map fun edit =>
    let buffer := if e.buffer.selected.isEmpty then e.buffer else e.buffer.deleteSelected
    { e with buffer := (buffer.insert edit.text).shift edit.shift }

/-- Puts colouring off after a change: the timer in mind is stopped and another one started. -/
def postpone (e : CodeEditor α) : CodeEditor α :=
  { e with
    buffer := e.buffer.settled
    timers := (e.timers.filter fun timer => some timer.number != e.job)
      ++ [⟨e.started, highlightDelay⟩]
    job := some e.started
    started := e.started + 1 }

/-- Lets a timer run out, whether the editor has it in mind or not. It colours the text. A timer that is not
running does nothing. -/
def expire [Matching α κ] (e : CodeEditor α) (number : Nat) : CodeEditor α :=
  if e.timers.any (·.number == number) then
    { e with timers := e.timers.filter (·.number != number) }.highlight
  else e

/-- Lets all timers run out, the first one first. -/
def tick [Matching α κ] (e : CodeEditor α) : CodeEditor α := e.timers.foldl (fun e timer => e.expire timer.number) e

/-- What a step does by itself, and whether a key was dealt with. -/
def act [Matching α κ] (e : CodeEditor α) : Step → CodeEditor α × Bool
  | .key typed =>
    match e.closeKey? typed with
    | some e => (e, true)
    | none => ({ e with buffer := if typed.isEmpty then e.buffer else e.buffer.type typed }, false)
  | .cursor offset => ({ e with buffer := e.buffer.moveTo offset }, false)
  | .select start stop => ({ e with buffer := e.buffer.select start stop }, false)
  | .backspace => ({ e with buffer := e.buffer.backspace }, false)
  | .setSource source => (e.setSource source, false)
  | .expire number => (e.expire number, false)
  | .tick => (e.tick, false)

/-- The editor after a step. If the text was modified, colouring is put off and the change is told. -/
def step [Matching α κ] (e : CodeEditor α) (s : Step) : CodeEditor α × Effect :=
  let (e, handled) := e.act s
  if e.buffer.modified then (e.postpone, ⟨handled, true⟩) else (e, ⟨handled, false⟩)

end CodeEditor

end GuidedTour.Editor

import GuidedTour.Interpreter.Basic
import GuidedTour.Text.LineEnds
import GuidedTour.Text.Utf8

/-!
# Interpreters made of a program

A program that the system finds makes an interpreter: the program text goes into a file, the program is
started on it, and what it prints is read back. A status other than zero is a refusal whatever was printed,
and its message is what the program wrote to its error stream, or else to its output, or else the status.

Where programs lie, what the file is called and what comes of starting a program is up to the system
(`System`), which may change from one call to the next. A system without room for the file is not among them.
-/

set_option autoImplicit false

namespace GuidedTour

/-- The bytes of the file that a program is started on. -/
def Start.bytes (start : Start) : Text.Bytes := Text.encode start.file

/-- A program that was started and has ended: its status, and what it wrote to its two streams. -/
structure Program.Ended where
  status : Int
  output : Text.Bytes
  errors : Text.Bytes
deriving DecidableEq, Repr, Inhabited

/-- What a call finds of the system that it is made on. -/
structure System where
  /-- The path of a program that is asked for by a name or by a path of its own. -/
  locate? : Text → Option Text
  /-- No path holds NUL. -/
  locate?_nul : ∀ {executable path : Text}, locate? executable = some path → '\x00' ∉ path
  /-- The file that a program text is put into. -/
  file : Text
  /-- No file has a name with NUL. -/
  file_nul : '\x00' ∉ file
  /-- What comes of starting a program: it ends, or it cannot be started, with the words of the system. -/
  start : Start → Except Text Program.Ended

namespace Program

/-- The command that is started for a call. Arguments are only handed over for execution. -/
def command (path file : Text) (call : Call) : List Text :=
  if call.verbose then path :: "interpret-execute".toList :: file :: call.arguments
  else [path, "interpret".toList, file]

/-- The text that a stream of bytes spells, with unified line ends. -/
def streamText (bytes : Text.Bytes) : Text := Text.unifyLineEnds (Text.decodeLenient bytes)

/-- Why a program ended with a status other than zero. Which stream speaks is settled before the blanks
are dropped. -/
def stopReason (errors output : Text) (status : Int) : InterpreterError :=
  let diagnostics := Text.strip (if errors.isEmpty then output else errors)
  if diagnostics.isEmpty then .stoppedSilently status else .stopped diagnostics

/-- The result of a program that was started and has ended. -/
def finished (ended : Ended) : Except Failure CodeText :=
  if ended.status ≠ 0 then
    .error (.refused (stopReason (streamText ended.errors) (streamText ended.output) ended.status))
  else Interpreter.resultOf (streamText ended.output)

/-- Evaluates a call with the program that the system finds for a name or a path. -/
def evaluate (system : System) (executable : Text) (call : Call) : Evaluation :=
  match system.locate? executable with
  | none => ⟨.error (.refused (.notFound executable)), [], []⟩
  | some path =>
    let start : Start := ⟨command path system.file call, call.source⟩
    let logs : List LogLine :=
      [⟨.debug, .interpreter, "Running ".toList ++ Text.quotedList start.command⟩]
    if start.command.any (·.contains '\x00') then ⟨.error (.fault .nulArgument), [start], logs⟩
    else
      match system.start start with
      | .error words => ⟨.error (.refused (.notStarted words)), [start], logs⟩
      | .ok ended => ⟨finished ended, [start], logs⟩

/-- The name of the interpreter when none is asked for. -/
def standardName : Text := "blockpipe".toList

end Program

/-- The interpreter made of a program, on the system that each call meets. -/
def Interpreter.ofProgram (systems : Nat → System) (executable : Text) : Interpreter :=
  fun count call => Program.evaluate (systems count) executable call

end GuidedTour

import GuidedTour.CommandLine.Launch

/-!
# The program

The command line of the tour. The log goes to the error stream and the texts of the window to the output;
the interpreter is not started from here.
-/

set_option autoImplicit false

namespace GuidedTour.CommandLine

/-- The file error for an error of the system. -/
def fileErrorOf : IO.Error → Content.FileError
  | .noFileOrDirectory .. => .notFound
  | .inappropriateType .. => .notDirectory
  | .resourceExhausted .. => .nameTooLong
  | error => .other (toString error).toList

/-- The path that messages show for the document that comes with the program. -/
def installedPath : Text := "tutorial.yml".toList

/-- Reads what the options ask for and shows the tour. -/
def showTour (options : Options) : IO UInt32 := do
  let found ←
    match options.content with
    | .bundled _ => pure (.error Content.FileError.notFound)
    | .path path =>
      try
        let bytes ← IO.FS.readBinFile (String.ofList path)
        pure (.ok bytes.toList)
      catch error => pure (.error (fileErrorOf error))
  let launched := launch options (fun _ => found) []
  (← IO.getStderr).putStr (String.ofList (printedLog options.verbose launched.logs))
  match launched.ending with
  | .opened window =>
    for label in window.labels do
      IO.println (String.ofList label.text)
  | _ => pure ()
  return (launched.ending.status?.getD 1).toUInt32

end GuidedTour.CommandLine

open GuidedTour.CommandLine in
/-- Runs the program with its arguments. -/
def main (arguments : List String) : IO UInt32 := do
  match Options.parse installedPath (arguments.map String.toList) with
  | .ok options => showTour options
  | .error unknown =>
    IO.print (String.ofList (usageReport unknown))
    return usageStatus.toUInt32

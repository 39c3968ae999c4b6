import Comparand.CommandLine

/-!
# The program

Reads the files that the command line names, carries out the command, and prints the output or what
went wrong.
-/
namespace Comparand.CommandLine

/-- The contents of some files, or the reasons why they cannot be read. -/
def readFiles (names : List String) : IO (List (String × Except String String)) :=
  names.mapM fun (name : String) => do
    match ← (IO.FS.readFile name).toBaseIO with
    | .ok content => return (name, .ok content)
    | .error reason => return (name, .error (toString reason))

/-- Carries out a command and says with which code the program ends. -/
def execute (arguments : List String) : IO UInt32 := do
  let names := match Request.ofArguments? arguments with
    | some request => request.fileNames
    | none => []
  let contents ← readFiles names
  let files : Files := fun name => (contents.lookup name).getD (.error "No such file")
  match run files arguments with
  | .ok output =>
    IO.println output
    return 0
  | .error problem =>
    IO.eprintln problem.message
    return if problem = .usage then 2 else 1

end Comparand.CommandLine

def main (arguments : List String) : IO UInt32 := Comparand.CommandLine.execute arguments

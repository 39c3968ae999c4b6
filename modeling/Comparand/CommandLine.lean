import Comparand.Calculation
import Comparand.Document.OfText
import Comparand.Operand.Comparison

/-!
# The command line

The command evaluates an expression over a context and prints its value, or compares it with a value
and prints the answer. Options and the expression stand in any order:

* `-f`, `--file`: the expression is in the file named instead of it;
* `-c`, `--context`, or `--context-file`: the context, given directly or by the name of a file;
* `-s`, `--separator`: the separator of identifiers, `:` by default;
* `--equals`, `--greater-than`, `--less-than`: compare instead of printing the value.

Values are attached to their option or follow it; one that begins with `-` has to be attached. After
`--` nothing is an option. No option is given twice, at most one context and at most one comparison.
-/
namespace Comparand.CommandLine

/-- The options that take a value. -/
inductive Setting where
  | context
  | contextFile
  | separator
  | equals
  | greaterThan
  | lessThan
  deriving DecidableEq, Repr

def Setting.ofLong? : String → Option Setting
  | "context" => some .context
  | "context-file" => some .contextFile
  | "separator" => some .separator
  | "equals" => some .equals
  | "greater-than" => some .greaterThan
  | "less-than" => some .lessThan
  | _ => none

def Setting.ofShort? : Char → Option Setting
  | 'c' => some .context
  | 's' => some .separator
  | _ => none

/-- What the arguments read so far say. -/
structure Arguments where
  fromFile : Bool := false
  settings : List (Setting × String) := []
  positionals : List String := []
  deriving Repr

namespace Arguments

def markFile? (a : Arguments) : Option Arguments :=
  if a.fromFile then none else some { a with fromFile := true }

def set? (a : Arguments) (setting : Setting) (value : String) : Option Arguments :=
  if (a.settings.lookup setting).isSome then none
  else some { a with settings := (setting, value) :: a.settings }

/-- Reads an option with a long name; a setting without an attached value stays pending. -/
def long? (a : Arguments) (body : List Char) : Option (Arguments × Option Setting) :=
  let name := String.ofList (body.takeWhile (· != '='))
  match body.dropWhile (· != '=') with
  | [] =>
    if name = "file" then (a.markFile?).map (·, none)
    else (Setting.ofLong? name).map fun setting => (a, some setting)
  | _ :: value => do
    let setting ← Setting.ofLong? name
    return (← a.set? setting (String.ofList value), none)

/-- Reads a group of short options, the last of which may have a value attached. -/
def short? (a : Arguments) : List Char → Option (Arguments × Option Setting)
  | [] => some (a, none)
  | 'f' :: rest => do (← a.markFile?).short? rest
  | c :: rest => do
    let setting ← Setting.ofShort? c
    match rest with
    | [] => return (a, some setting)
    | '=' :: value => return (← a.set? setting (String.ofList value), none)
    | value => return (← a.set? setting (String.ofList value), none)

/-- Whether an argument is an option or the mark behind which there are none. -/
def isOption (argument : String) : Bool := argument.startsWith "-" && argument != "-"

/-- Reads all arguments; `pending` is a setting whose value has to come next. -/
def read? (a : Arguments) (pending : Option Setting) : List String → Option Arguments
  | [] => if pending.isNone then some a else none
  | argument :: rest =>
    match pending with
    | some setting =>
      if isOption argument then none else do read? (← a.set? setting argument) none rest
    | none =>
      if !isOption argument then
        read? { a with positionals := a.positionals ++ [argument] } none rest
      else if argument = "--" then some { a with positionals := a.positionals ++ rest }
      else match argument.toList with
        | '-' :: '-' :: body => do
          let (a, pending) ← a.long? body
          read? a pending rest
        | body => do
          let (a, pending) ← a.short? (body.drop 1)
          read? a pending rest

end Arguments

/-- Where a text comes from. -/
inductive Input where
  | inline (text : String)
  | file (name : String)
  deriving DecidableEq, Repr

/-- What is printed: the value, or the answer to a comparison with a text. -/
inductive Goal where
  | value
  | compare (question : Value → Question) (bound : String)

/-- A complete command. -/
structure Request where
  expression : Input
  context : Option Input
  separator : String
  goal : Goal

/-- The command that arguments spell, if they are complete and free of conflicts. -/
def Request.ofArguments? (arguments : List String) : Option Request := do
  let a ← Arguments.read? {} none arguments
  let contents ← match a.positionals with
    | [contents] => some contents
    | _ => none
  let value? (setting : Setting) := a.settings.lookup setting
  let context ← match value? .context, value? .contextFile with
    | none, none => some none
    | some text, none => some (some (Input.inline text))
    | none, some name => if name.isEmpty then none else some (some (Input.file name))
    | some _, some _ => none
  let goal ← match value? .equals, value? .greaterThan, value? .lessThan with
    | none, none, none => some Goal.value
    | some bound, none, none => some (.compare .equals bound)
    | none, some bound, none => some (.compare .greaterThan bound)
    | none, none, some bound => some (.compare .lessThan bound)
    | _, _, _ => none
  return {
    expression := if a.fromFile then .file contents else .inline contents
    context
    separator := (value? .separator).getD Arithmetic.defaultSeparator
    goal
  }

/-- Why a command has no output. -/
inductive Problem where
  | usage
  | unreadableExpression (name reason : String)
  | unreadableContext (reason : String)
  | malformedContext
  | failure (cause : Failure)
  deriving DecidableEq

def Problem.message : Problem → String
  | .usage =>
    "usage: [-f] [-c JSON | --context-file FILE] [-s SEPARATOR] " ++
      "[--equals VALUE | --greater-than VALUE | --less-than VALUE] EXPRESSION"
  | .unreadableExpression name reason =>
    "Failed to read the input file '" ++ name ++ "': " ++ reason
  | .unreadableContext reason => reason
  | .malformedContext => "The context is not valid JSON."
  | .failure cause => cause.message

/-- How the content of a file is found by its name; the error is the reason why it cannot be. -/
abbrev Files := String → Except String String

def Input.read (files : Files) : Input → Except String String
  | .inline text => .ok text
  | .file name => files name

/-- The source text of the expression. -/
def Request.source (request : Request) (files : Files) : Except Problem String :=
  let name := match request.expression with
    | .inline text => text
    | .file name => name
  (request.expression.read files).mapError (.unreadableExpression name)

def Request.document (request : Request) (files : Files) : Except Problem Document :=
  match request.context with
  | none => .ok .null
  | some input => do
    let text ← (input.read files).mapError .unreadableContext
    ((Document.ofText? text).elim (.error .malformedContext) .ok)

/-- The output for an expression: its value, or the answer to a comparison. -/
def Goal.output (goal : Goal) (operand : Operand PathVariable) (context : Context) :
    Except Failure String :=
  match goal with
  | .value => do return (← operand.toValue context).print
  | .compare question bound => do
    return if ← operand.answer (question (.text bound)) context then "true" else "false"

/-- Carries out a command: the expression is read, then the context, then they are evaluated. -/
def Request.run (request : Request) (files : Files) : Except Problem String := do
  let source ← request.source files
  let context ← request.document files
  let source := String.ofList (Text.trim source.toList)
  Except.mapError .failure do
    let expression ← Arithmetic.ofText source (Namespace.paths .number) request.separator
    request.goal.output (.arithmetic expression) context

/-- The names of the files that a command reads. -/
def Request.fileNames (request : Request) : List String :=
  [some request.expression, request.context].filterMap fun
    | some (.file name) => some name
    | _ => none

/-- The output of the command line. -/
def run (files : Files) (arguments : List String) : Except Problem String :=
  match Request.ofArguments? arguments with
  | none => .error .usage
  | some request => request.run files

end Comparand.CommandLine

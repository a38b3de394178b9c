import Descent.CommandLine.Arguments
import Descent.Generation
import Descent.Languages.Calculator
import Descent.Languages.Sum

/-!
# The command lines

The generator takes a grammar description and a directory. The calculator takes an
expression, or a file that holds one. The arguments of a program are a request, and a
run of the program on a tree of files has an outcome. Arguments that do not fit end a
program with code 2, any other failure with code 1 and a message.
-/

namespace Descent.CommandLine

open Files (FileTree)

/-- What a run of a program leaves behind. -/
structure Outcome where
  code : Nat
  output : String := ""
  errors : String := ""
  files : FileTree

/-- The outcome for arguments that do not fit. -/
def misuse (files : FileTree) : Outcome := { code := 2, files }

/-- The report of a failure: the outermost message, and what caused it line by line. The causes
are numbered if there are several. -/
def report : List String → String
  | [] => ""
  | outer :: causes =>
    let line (p : String × Nat) : String :=
      if causes.length < 2 then "    " ++ p.1 ++ "\n"
      else "    " ++ toString p.2 ++ ": " ++ p.1 ++ "\n"
    "Error: " ++ outer ++ "\n" ++
      if causes.isEmpty then "" else "\nCaused by:\n" ++ String.join (causes.zipIdx.map line)

/-- The options of the generator. -/
def generatorOptions : List OptionSpec :=
  [⟨'g', "grammar", .path⟩, ⟨'o', "output-dir", .path⟩, ⟨'n', "name", .value⟩,
    ⟨'d', "debug", .flag⟩]

/-- What the arguments of the generator ask for. -/
inductive GeneratorRequest where
  /-- The arguments do not fit. -/
  | misuse
  /-- Help, or the version. -/
  | information
  /-- No name is given, and the path of the grammar has none. -/
  | unnamed
  | generate (grammar outputDir name : String) (debug : Bool)
deriving DecidableEq, Repr

/-- Reads the arguments. Without a name the grammar is named after its file. -/
def GeneratorRequest.ofArguments (arguments : List String) : GeneratorRequest :=
  match read? generatorOptions arguments.length {} arguments with
  | none => .misuse
  | some given =>
    if given.information then .information
    else
      match given.value? "grammar", given.value? "output-dir", given.operands with
      | some grammar, some outputDir, [] =>
        match (given.value? "name") <|> FileTree.fileStem? grammar with
        | none => .unnamed
        | some name => .generate grammar outputDir name (given.has "debug")
      | _, _, _ => .misuse

/-- The complaint of a generator that knows no name. -/
def unnamedMessage : String := "cannot derive a name from the grammar path; pass --name"

/-- The generator. -/
def generator (files : FileTree) (arguments : List String) : Outcome :=
  match GeneratorRequest.ofArguments arguments with
  | .misuse => misuse files
  | .information => { code := 0, files }
  | .unnamed => { code := 1, files, errors := report [unnamedMessage] }
  | .generate grammar outputDir name debug =>
    match generate files grammar outputDir name debug with
    | (files, .ok ()) => { code := 0, files }
    | (files, .error e) => { code := 1, files, errors := report e.chain }

/-- The options of the calculator. -/
def calculatorOptions : List OptionSpec := [⟨'f', "file", .path⟩, ⟨'s', "sum", .flag⟩]

/-- What the arguments of the calculator ask for. -/
inductive CalculatorRequest where
  /-- The arguments do not fit. -/
  | misuse
  /-- Help, or the version. -/
  | information
  /-- Neither an expression nor a file is given. -/
  | nothing
  | evaluate (expression : String)
  /-- The expression is to be split into its operands. -/
  | operands (expression : String)
  | evaluateFile (path : String)
deriving DecidableEq, Repr

/-- Reads the arguments; the expression in a file is never split. -/
def CalculatorRequest.ofArguments (arguments : List String) : CalculatorRequest :=
  match read? calculatorOptions arguments.length {} arguments with
  | none => .misuse
  | some given =>
    if given.information then .information
    else
      match given.operands, given.value? "file" with
      | [expression], none =>
        if given.has "sum" then .operands expression else .evaluate expression
      | [], some path => .evaluateFile path
      | [], none => .nothing
      | _, _ => .misuse

/-- The complaint of a calculator that is given nothing. -/
def nothingMessage : String := "nothing to evaluate: pass an expression or --file"

/-- The outcome of an evaluation: the value on a line, or the message of the failure. -/
def evaluated (files : FileTree) : Except Languages.Failure String → Outcome
  | .ok text => { code := 0, files, output := text ++ "\n" }
  | .error e => { code := 1, files, errors := "error: " ++ e.message ++ "\n" }

/-- A list of integers in brackets. -/
def listed (ns : List Int64) : String :=
  "[" ++ ", ".intercalate (ns.map fun n => toString n.toInt) ++ "]"

/-- The value of an expression as a text. -/
def valueText (r : Except Languages.Failure Int64) : Except Languages.Failure String :=
  r.map fun n => toString n.toInt

/-- The calculator. -/
def calculator (files : FileTree) (arguments : List String) : Outcome :=
  match CalculatorRequest.ofArguments arguments with
  | .misuse => misuse files
  | .information => { code := 0, files }
  | .nothing => { code := 1, files, errors := nothingMessage ++ "\n" }
  | .evaluate expression => evaluated files (valueText (Languages.Calculator.eval expression))
  | .operands expression => evaluated files ((Languages.Sum.operands expression).map listed)
  | .evaluateFile path => evaluated files (valueText (Languages.Calculator.evalFile files path))

end Descent.CommandLine

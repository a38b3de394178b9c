import Descent.CommandLine.Programs

/-!
# The program

The first argument chooses between the generator and the calculator, the others are
theirs. Requests are carried out on the disk.
-/

namespace Descent

open CommandLine
open Files (FileError FileOperations)

/-- The error number of the system, which comes with either sign. -/
def errorNumber (code : UInt32) : UInt32 := min code (0 - code)

/-- The reason for which the system refuses a file operation, if it is one of the usual ones. -/
def fileError? : IO.Error → Option FileError
  | .noFileOrDirectory _ _ _ => some .notFound
  | .alreadyExists _ _ _ => some .alreadyExists
  | .inappropriateType _ code _ =>
    some (if errorNumber code = 20 then .notADirectory else .isADirectory)
  | .invalidArgument _ code _ => if errorNumber code = 36 then some .nameTooLong else none
  | _ => none

/-- Carries out a file operation; an unusual failure is left to the system to report. -/
def attempt {α : Type} (act : IO α) : IO (Except FileError α) := do
  try return .ok (← act)
  catch e =>
    match fileError? e with
    | some reason => return .error reason
    | none => throw e

/-- The text of a file. -/
def readText (path : String) : IO (Except FileError String) := do
  match ← attempt (IO.FS.readBinFile path) with
  | .error e => return .error e
  | .ok bytes =>
    match String.fromUTF8? bytes with
    | some text => return .ok text
    | none => return .error .notText

/-- The path leads to a directory, given that something is there. -/
def isDirectory (path : String) : IO Bool := do
  match ← attempt (IO.FS.createDirAll path) with
  | .ok () => return true
  | .error _ => return false

/-- Makes the first of some directories, each of which lies in the next one; those that are missing
above it are made first. -/
def makeDirectories : List String → IO (Except FileError Unit)
  | [] => return .ok ()
  | path :: above => do
    let made ← match ← attempt (IO.FS.createDir path) with
      | .error .notFound =>
        match ← makeDirectories above with
        | .error e => return .error e
        | .ok () => attempt (IO.FS.createDir path)
      | made => pure made
    match made with
    | .ok () => return .ok ()
    | .error .alreadyExists =>
      if ← isDirectory path then return .ok () else return .error .alreadyExists
    | .error e => return .error e

/-- The operations on the disk. -/
def diskOperations : FileOperations IO where
  readText := readText
  makeDirectories := makeDirectories
  writeText path contents := attempt (IO.FS.writeFile path contents)

/-- Runs the generator. -/
def runGenerator (arguments : List String) : IO UInt32 := do
  match GeneratorRequest.ofArguments arguments with
  | .misuse =>
    IO.eprintln "usage: --grammar PATH --output-dir PATH [--name NAME] [--debug]"
    return 2
  | .information =>
    IO.println "usage: --grammar PATH --output-dir PATH [--name NAME] [--debug]"
    return 0
  | .unnamed =>
    IO.eprint (report [unnamedMessage])
    return 1
  | .generate grammar outputDir name debug =>
    match ← generateIn diskOperations grammar outputDir name debug with
    | .ok () => return 0
    | .error e =>
      IO.eprint (report e.chain)
      return 1

/-- Prints the outcome of an evaluation. -/
def finish (result : Except Languages.Failure String) : IO UInt32 := do
  let outcome := evaluated .empty result
  IO.print outcome.output
  IO.eprint outcome.errors
  return outcome.code.toUInt32

/-- Runs the calculator. -/
def runCalculator (arguments : List String) : IO UInt32 := do
  match CalculatorRequest.ofArguments arguments with
  | .misuse =>
    IO.eprintln "usage: [EXPRESSION | --file PATH] [--sum]"
    return 2
  | .information =>
    IO.println "usage: [EXPRESSION | --file PATH] [--sum]"
    return 0
  | .nothing =>
    IO.eprintln nothingMessage
    return 1
  | .evaluate expression => finish (valueText (Languages.Calculator.eval expression))
  | .operands expression => finish ((Languages.Sum.operands expression).map listed)
  | .evaluateFile path =>
    finish (valueText (← Languages.Calculator.evalFileIn diskOperations path))

end Descent

/-- Runs the program that the first argument names. -/
def main (arguments : List String) : IO UInt32 :=
  match arguments with
  | "generate" :: rest => Descent.runGenerator rest
  | "calculate" :: rest => Descent.runCalculator rest
  | _ => do
    IO.eprintln "usage: (generate | calculate) ARGUMENTS"
    return 2

import Descent.Artifact.LexerSource
import Descent.Artifact.ParserSource
import Descent.Artifact.TokenKinds
import Descent.Description.Reading
import Descent.Files.Operations

/-!
# Generation

A grammar description becomes three source files: the token kinds, the lexer and the
parser. Nothing is written unless all three can be made. The files are those of a tree,
or of any other system of files.
-/

namespace Descent

open Artifact (Names SourceFile)

/-- The three artifacts of an analysed grammar. -/
def Artifact.ofAnalysis (g : Grammar) (a : Analysis) (names : Names) (debug : Bool) :
    List SourceFile :=
  [⟨names.tokensFile, tokensSource g names⟩, ⟨names.lexerFile, lexerSource g names⟩,
    ⟨names.parserFile, parserSource g a names debug⟩]

/-- Why a description has no artifacts. -/
inductive RenderError where
  | badName (name : String)
  | description (e : Description.ReadError)
  | analysis (e : GrammarError)
deriving DecidableEq, Repr

namespace RenderError

/-- The message of the cause. -/
def message : RenderError → String
  | badName name => Artifact.invalidNameMessage name
  | description e => e.message
  | analysis e => e.message

/-- The fault of the grammar, if the grammar itself is at fault. -/
def grammarError? : RenderError → Option GrammarError
  | badName _ => none
  | description (.invalid e) => some e
  | description _ => none
  | analysis e => some e

end RenderError

/-- The artifacts of a description for a grammar of the given name. The name is checked first. -/
def render (source name : String) (debug : Bool) : Except RenderError (List SourceFile) := do
  let names ← match Names.ofName? name with
    | some names => .ok names
    | none => .error (.badName name)
  let g ← (Description.read source).mapError .description
  let a ← (Analysis.ofGrammar g).mapError .analysis
  .ok (Artifact.ofAnalysis g a names debug)

open Files (FileTree FileError FileOperations)

/-- Why the artifacts of a file cannot be generated. -/
inductive GenerateError where
  | read (path : String) (e : FileError)
  | render (path : String) (e : RenderError)
  | create (directory : String) (e : FileError)
  | write (path : String) (e : FileError)
deriving DecidableEq, Repr

namespace GenerateError

/-- The messages from the outermost one to the cause. -/
def chain : GenerateError → List String
  | read path e => ["cannot read grammar " ++ path, e.message]
  | render path e => ["cannot generate from " ++ path, e.message]
  | create directory e => ["cannot create " ++ directory, e.message]
  | write path e => ["cannot write " ++ path, e.message]

/-- The fault of the grammar, if the grammar is at fault. -/
def grammarError? : GenerateError → Option GrammarError
  | render _ e => e.grammarError?
  | _ => none

end GenerateError

section

variable {m : Type → Type} [Monad m]

/-- Writes files into a directory, one after the other; the files before a failure stay. -/
def writeFiles (system : FileOperations m) (directory : String) :
    List SourceFile → m (Except GenerateError Unit)
  | [] => return .ok ()
  | file :: rest => do
    let path := FileTree.join directory file.name
    match ← system.writeText path file.contents with
    | .error e => return .error (.write path e)
    | .ok () => writeFiles system directory rest

/-- Generates the artifacts of the description in a file into a directory. -/
def generateIn (system : FileOperations m) (grammarPath outputDir name : String) (debug : Bool) :
    m (Except GenerateError Unit) := do
  match ← system.readText grammarPath with
  | .error e => return .error (.read grammarPath e)
  | .ok source =>
    match render source name debug with
    | .error e => return .error (.render grammarPath e)
    | .ok files =>
      match ← system.makeDirectories (FileTree.ancestors outputDir) with
      | .error e => return .error (.create outputDir e)
      | .ok () => writeFiles system outputDir files

end

/-- Generates the artifacts of the description in a file of a tree into a directory. The tree is the
one that is left behind, also by a failure. -/
def generate (t : FileTree) (grammarPath outputDir name : String) (debug : Bool) :
    FileTree × Except GenerateError Unit :=
  ((generateIn FileTree.operations grammarPath outputDir name debug).run t).swap

end Descent

/-!
# Command line arguments

Options are given by a letter behind one hyphen or by a name behind two. A value
follows its option as the next argument or, with or without an equals sign, in the
same one. Letters of options without values may be written together. Behind a lone
pair of hyphens everything is an operand. An option may be given once.
-/

namespace Descent.CommandLine

/-- What an option takes. -/
inductive Arity where
  | flag
  | value
  /-- A value that is a path and so not empty. -/
  | path
deriving DecidableEq, Repr

/-- An option: its letter and its name. -/
structure OptionSpec where
  letter : Char
  name : String
  arity : Arity

/-- The options and operands that were given; a flag has an empty value. -/
structure Given where
  options : List (String × String) := []
  operands : List String := []
  /-- Help or the version was asked for. -/
  information : Bool := false

namespace Given

/-- Whether the option was given. -/
def has (g : Given) (name : String) : Bool := g.options.any fun o => o.1 == name

/-- The value that was given for the option, if there is one. -/
def value? (g : Given) (name : String) : Option String :=
  (g.options.find? fun o => o.1 == name).map (·.2)

/-- Adds an option that was not given yet, with a value that it accepts. -/
def add? (g : Given) (spec : OptionSpec) (value : String) : Option Given :=
  if g.has spec.name || (spec.arity == .path && value.isEmpty) then none
  else some { g with options := g.options ++ [(spec.name, value)] }

end Given

/-- The argument begins another option, so it is no value. -/
def startsOption (argument : String) : Bool :=
  match argument.toList with
  | '-' :: _ :: _ => true
  | _ => false

/-- What an option takes from the arguments behind it, if it brings no value along. -/
def takeValue? (g : Given) (spec : OptionSpec) : List String → Option (Given × List String)
  | [] => none
  | v :: rest => if startsOption v then none else (g.add? spec v).map (·, rest)

/-- Reads the letters behind one hyphen. -/
def letters? (specs : List OptionSpec) (g : Given) (rest : List String) :
    List Char → Option (Given × List String)
  | [] => some (g, rest)
  | c :: more =>
    if c == 'h' || c == 'V' then some ({ g with information := true }, [])
    else
      match specs.find? fun s => s.letter == c with
      | none => none
      | some spec =>
        match spec.arity with
        | .flag =>
          match g.add? spec "" with
          | none => none
          | some g => letters? specs g rest more
        | _ =>
          match more with
          | [] => takeValue? g spec rest
          | '=' :: value => (g.add? spec (String.ofList value)).map (·, rest)
          | value => (g.add? spec (String.ofList value)).map (·, rest)

/-- Reads a name behind two hyphens, with the value behind an equals sign. -/
def long? (specs : List OptionSpec) (g : Given) (rest : List String) (text : List Char) :
    Option (Given × List String) :=
  let name := text.takeWhile (· != '=')
  let attached := text.drop name.length
  let name := String.ofList name
  if name == "help" || name == "version" then
    if attached.isEmpty then some ({ g with information := true }, []) else none
  else
    match specs.find? fun s => s.name == name with
    | none => none
    | some spec =>
      match spec.arity, attached with
      | .flag, [] => (g.add? spec "").map (·, rest)
      | .flag, _ => none
      | _, [] => takeValue? g spec rest
      | _, _ :: value => (g.add? spec (String.ofList value)).map (·, rest)

/-- Reads all arguments; `none` if they do not fit the options. Every step takes an argument. -/
def read? (specs : List OptionSpec) : Nat → Given → List String → Option Given
  | 0, g, _ => some g
  | _, g, [] => some g
  | fuel + 1, g, argument :: rest =>
    match argument.toList with
    | ['-', '-'] => some { g with operands := g.operands ++ rest }
    | '-' :: '-' :: text =>
      match long? specs g rest text with
      | none => none
      | some (g, rest) => read? specs fuel g rest
    | '-' :: c :: more =>
      match letters? specs g rest (c :: more) with
      | none => none
      | some (g, rest) => read? specs fuel g rest
    | _ => read? specs fuel { g with operands := g.operands ++ [argument] } rest

end Descent.CommandLine

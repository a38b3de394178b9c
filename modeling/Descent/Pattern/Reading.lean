import Descent.Pattern.Bracket

/-!
# Reading regular expressions

`Regex.ofText?` reads the written form of a regular expression and returns `none`
for a text that is none. The reader goes through the text once, from left to
right. Groups that are still open form a stack; flags set inside a group end with
it. A tree may be at most 250 levels deep.
-/

namespace Descent.Pattern

open Descent.Text

/-- A piece of a sequence: an expression with its height, or a directive that sets flags. -/
inductive Piece where
  | directive
  | expression (r : Regex) (height : Nat)

/-- A tree with its height. -/
structure Draft where
  regex : Regex
  height : Nat

/-- The sequence of the pieces read so far, the last first. -/
def sequenced (pieces : List Piece) : Draft :=
  let tree := pieces.foldl (fun (acc : Option Regex) p =>
    match p, acc with
    | .directive, acc => acc
    | .expression r _, none => some r
    | .expression r _, some s => some (.cat r s)) none
  let height := pieces.foldl (fun h p =>
    match p with
    | .directive => h
    | .expression _ k => h.max k) 0
  ⟨tree.getD .empty, if pieces.length < 2 then height else height + 1⟩

/-- The choice between branches, the last first. -/
def chosen (last : Draft) (earlier : List Draft) : Draft :=
  if earlier.isEmpty then last
  else
    earlier.foldl (fun acc d => ⟨.alt d.regex acc.regex, acc.height.max d.height⟩) last |>
      fun d => { d with height := d.height + 1 }

/-- A group that is still open: the branches and the pieces before it, the flags to go back
to, and whether its match could be asked for. -/
structure OpenGroup where
  branches : List Draft
  pieces : List Piece
  flags : Flags
  capturing : Bool

/-- What has been read so far: the flags in force, the finished branches and the pieces of the
current one, the groups around, and the names of groups. -/
structure Progress where
  flags : Flags := {}
  branches : List Draft := []
  pieces : List Piece := []
  outer : List OpenGroup := []
  names : List (List Char) := []

namespace Progress

/-- Adds an expression to the current branch. -/
def push (p : Progress) (r : Regex) (height : Nat) : Progress :=
  { p with pieces := .expression r height :: p.pieces }

/-- The current branches as one tree. -/
def tree (p : Progress) : Draft := chosen (sequenced p.pieces) p.branches

/-- Opens a group with the given flags. -/
def openGroup (p : Progress) (flags : Flags) (capturing : Bool) : Progress :=
  { p with
    flags, branches := [], pieces := []
    outer := ⟨p.branches, p.pieces, p.flags, capturing⟩ :: p.outer }

/-- Closes the innermost group. -/
def closeGroup? (p : Progress) : Option Progress :=
  match p.outer with
  | [] => none
  | g :: outer =>
    let inner := p.tree
    let r := if g.capturing then .group inner.regex else inner.regex
    some { p with
      flags := g.flags, branches := g.branches, outer
      pieces := .expression r (inner.height + 1) :: g.pieces }

/-- Begins the next branch. -/
def nextBranch (p : Progress) : Progress :=
  { p with branches := sequenced p.pieces :: p.branches, pieces := [] }

/-- Repeats the last piece, if there is one that can be repeated. -/
def repeatLast? (p : Progress) (min : Nat) (max : Option Nat) (greedy : Bool) : Option Progress :=
  match p.pieces with
  | .expression r height :: before =>
    let r := r.repeated min max (greedy != p.flags.swapGreed)
    some { p with pieces := .expression r (height + 1) :: before }
  | _ => none

end Progress

/-- The flag that a letter stands for, as the change that switches it. -/
def flagSetter? (c : Char) : Option (Bool → Flags → Flags) :=
  match c with
  | 'i' => some fun on f => { f with ignoreCase := on }
  | 'm' => some fun on f => { f with multiLine := on }
  | 's' => some fun on f => { f with dotAll := on }
  | 'U' => some fun on f => { f with swapGreed := on }
  | 'u' => some fun on f => { f with unicode := on }
  | 'R' => some fun on f => { f with crlf := on }
  | 'x' => some fun on f => { f with verbose := on }
  | _ => none

/-- Reads flags up to the colon or the parenthesis that ends them: each letter once, and at most
one minus, with a letter after it. The result holds the change, whether any letter was there,
the character at the end and the rest. -/
def flagList? (seen : List Char) (change : Flags → Flags) :
    List Char → Option ((Flags → Flags) × Bool × Char × List Char)
  | [] => none
  | c :: rest =>
    if c == ':' || c == ')' then
      if seen.head? == some '-' then none else some (change, !seen.isEmpty, c, rest)
    else if seen.contains c then none
    else if c == '-' then flagList? (c :: seen) change rest
    else
      match flagSetter? c with
      | none => none
      | some set => flagList? (c :: seen) (set (!seen.contains '-') ∘ change) rest

/-- The character may stand in the name of a group. -/
def isNameChar (first : Bool) (c : Char) : Bool :=
  c == '_' || (if c.toNat < 128 then isAsciiLower c || isAsciiUpper c else alphabetic.contains c) ||
    (!first && (c == '.' || c == '[' || c == ']' ||
      (if c.toNat < 128 then isAsciiDigit c else numeric.contains c)))

/-- Reads the name of a group up to the angle bracket that ends it. -/
def groupName? (rest : List Char) : Option (List Char × List Char) :=
  let name := rest.takeWhile (· != '>')
  match name, rest.drop name.length with
  | first :: others, _ :: rest =>
    if isNameChar true first && others.all (isNameChar false) then some (name, rest) else none
  | _, _ => none

/-- Reads what follows an opening parenthesis and opens the group or sets the flags. -/
def groupOpening? (p : Progress) (rest : List Char) : Option (Progress × List Char) :=
  let named (rest : List Char) : Option (Progress × List Char) := do
    let (name, rest) ← groupName? rest
    if p.names.contains name then none
    else some ({ p with names := name :: p.names }.openGroup p.flags true, rest)
  match skipLayout p.flags.verbose rest with
  | '?' :: 'P' :: '<' :: rest => named rest
  | '?' :: '<' :: '=' :: _ => none
  | '?' :: '<' :: '!' :: _ => none
  | '?' :: '<' :: rest => named rest
  | '?' :: rest => do
    let (change, any, stop, rest) ← flagList? [] id rest
    if stop == ':' then some (p.openGroup (change p.flags) false, rest)
    else if any then
      some ({ p with flags := change p.flags, pieces := .directive :: p.pieces }, rest)
    else none
  | rest => some (p.openGroup p.flags true, rest)

/-- The greatest bound of a repetition. -/
def maxBound : Nat := 0xFFFFFFFF

/-- Reads decimal digits, layout dropped after each. -/
def digitRun (verbose : Bool) : Nat → List Char → List Char × List Char
  | fuel + 1, c :: rest =>
    if isAsciiDigit c then
      let (ds, r) := digitRun verbose fuel (skipLayout verbose rest)
      (c :: ds, r)
    else ([], c :: rest)
  | _, rest => ([], rest)

/-- Drops white space, with the layout after it. -/
def blankRun (verbose : Bool) : Nat → List Char → List Char
  | fuel + 1, c :: rest =>
    if isBlank c then blankRun verbose fuel (skipLayout verbose rest) else c :: rest
  | _, rest => rest

/-- A number that may have white space on both sides; `none` stands for one that is missing. -/
def bound? (verbose : Bool) (rest : List Char) : Option (Option Nat × List Char) :=
  let (digits, rest) := digitRun verbose rest.length (rest.dropWhile isBlank)
  let rest := blankRun verbose rest.length rest
  if digits.isEmpty then some (none, rest)
  else
    let n := digits.foldl (fun n c => 10 * n + (c.toNat - 48)) 0
    if n ≤ maxBound then some (some n, rest) else none

/-- Reads the bounds of a repetition, after the opening brace and up to the closing one. -/
def bounds? (verbose : Bool) (rest : List Char) : Option (Nat × Option Nat × List Char) := do
  let (low, rest) ← bound? verbose (skipLayout verbose rest)
  let low ← low
  match rest with
  | ',' :: rest =>
    match skipLayout verbose rest with
    | '\x7d' :: rest => some (low, none, rest)
    | [] => none
    | rest =>
      let (high, rest) ← bound? verbose rest
      let high ← high
      match rest with
      | '\x7d' :: rest => if low ≤ high then some (low, some high, rest) else none
      | _ => none
  | '\x7d' :: rest => some (low, some low, rest)
  | _ => none

/-- A question mark right after a repetition makes it lazy. -/
def greedyMark : List Char → Bool × List Char
  | '?' :: rest => (false, rest)
  | rest => (true, rest)

namespace Flags

/-- The expression of one character outside brackets. -/
def literal? (f : Flags) (c : Char) (byteForm : Bool) : Option Regex :=
  if f.unicode then some (.chars (f.fold (.singleton c)))
  else if byteForm && 128 ≤ c.toNat then none
  else some (.chars (f.fold (.singleton c)))

/-- The expression of the dot. Without the whole of Unicode it would match bytes that are no
characters, so there is none. -/
def dot? (f : Flags) : Option Regex :=
  if !f.unicode then none
  else if f.dotAll then some (.chars .full)
  else if f.crlf then some (.chars (CharSet.complement ⟨[(10, 10), (13, 13)]⟩))
  else some (.chars (CharSet.complement ⟨[(10, 10)]⟩))

/-- The condition of the circumflex. -/
def lineStart (f : Flags) : Look :=
  if f.multiLine then if f.crlf then .crlfLineStart else .lineStart else .textStart

/-- The condition of the dollar sign. -/
def lineEnd (f : Flags) : Look :=
  if f.multiLine then if f.crlf then .crlfLineEnd else .lineEnd else .textEnd

/-- The expression of an escape outside brackets. -/
def escape? (f : Flags) : Escape → Option Regex
  | .char c byteForm => f.literal? c byteForm
  | .letterClass kind negated => (f.letterClass? kind negated).map .chars
  | .property name negated => (f.property? name negated).map .chars
  | .look build => some (.look (build f.unicode))

end Flags

/-- One step of the reader: takes the next piece of the text, which is not empty. -/
def readStep? (p : Progress) : List Char → Option (Progress × List Char)
  | [] => none
  | c :: rest =>
    let repeatWith (min : Nat) (max : Option Nat) (rest : List Char) :=
      let (greedy, rest) := greedyMark rest
      (p.repeatLast? min max greedy).map (·, rest)
    match c with
    | '(' => groupOpening? p rest
    | ')' => p.closeGroup?.map (·, rest)
    | '|' => some (p.nextBranch, rest)
    | '[' => do
      let (set, height, rest) ← bracketLoop p.flags (rest.length + 2) [] {} (c :: rest)
      some (p.push (.chars set) height, rest)
    | '?' => repeatWith 0 (some 1) rest
    | '*' => repeatWith 0 none rest
    | '+' => repeatWith 1 none rest
    | '\x7b' => do
      let (min, max, rest) ← bounds? p.flags.verbose rest
      repeatWith min max (skipLayout p.flags.verbose rest)
    | '\\' => do
      let (e, rest) ← escape? p.flags.verbose rest
      let r ← p.flags.escape? e
      some (p.push r 0, rest)
    | '.' => p.flags.dot?.map fun r => (p.push r 0, rest)
    | '^' => some (p.push (.look p.flags.lineStart) 0, rest)
    | '$' => some (p.push (.look p.flags.lineEnd) 0, rest)
    | _ => (p.flags.literal? c false).map fun r => (p.push r 0, rest)

/-- Reads to the end of the text; each step takes at least one character. -/
def readLoop : Nat → Progress → List Char → Option Draft
  | 0, _, _ => none
  | fuel + 1, p, rest =>
    match skipLayout p.flags.verbose rest with
    | [] => if p.outer.isEmpty then some p.tree else none
    | rest => do
      let (p, rest) ← readStep? p rest
      readLoop fuel p rest

/-- The greatest height of a tree. -/
def maxHeight : Nat := 250

/-- The regular expression that a text writes, if it is one. -/
def Regex.ofText? (text : List Char) : Option Regex := do
  let draft ← readLoop (text.length + 1) {} text
  if draft.height ≤ maxHeight then some draft.regex else none

end Descent.Pattern

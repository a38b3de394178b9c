import Descent.Proofs.Files.Writing
import Descent.CommandLine.Programs
import Mathlib.Data.List.Nodup

/-!
# Expressions on the command line and in files

Options may come in any order and in more than one form, and what stands behind a pair of
hyphens is an operand whatever it begins with. A calculator that reads its expression from
a file does what it does with the text of the file as an operand, but for the flag that
asks for the operands of a sum: with a file nothing comes of it.
-/

namespace Descent.CommandLine

open Files (FileTree)
open Languages (Failure Calculator.eval Sum.operands)

/-! ### Arguments -/

/-- The ways to give the calculator an option. -/
inductive GivesOption : List String → String × String → Prop where
  | sum {flag : String} (hflag : flag = "--sum" ∨ flag = "-s") : GivesOption [flag] ("sum", "")
  /-- The path is the next argument, and does not look like an option. -/
  | file {option path : String} (hoption : option = "--file" ∨ option = "-f")
      (hpath : startsOption path = false) : GivesOption [option, path] ("file", path)
  /-- The path is in the same argument, and may be any. -/
  | attached (path : String) : GivesOption ["--file=" ++ path] ("file", path)

/-- The arguments give the options, one after the other. -/
inductive GivesOptions : List String → List (String × String) → Prop where
  | nil : GivesOptions [] []
  | cons {arguments rest : List String} {option : String × String}
      {options : List (String × String)} (h : GivesOption arguments option)
      (hrest : GivesOptions rest options) : GivesOptions (arguments ++ rest) (option :: options)

/-- The options that set the flag, or leave it. -/
def sumOptions (sum : Bool) : List (String × String) := if sum then [("sum", "")] else []

variable {g : Given} {path : String} {arguments rest : List String}
  {options : List (String × String)} {fuel : Nat}

/-- With more options behind those that were given. -/
def Given.extend (g : Given) (options : List (String × String)) : Given :=
  { g with options := g.options ++ options }

private theorem Given.extend_extend (options' : List (String × String)) :
    (g.extend options).extend options' = g.extend (options ++ options') := by
  simp [extend]

/-- An option that is new is added. -/
theorem Given.add?_eq_some (spec : OptionSpec) (value : String)
    (hnew : spec.name ∉ g.options.map (·.1)) (hvalue : spec.arity = .path → value ≠ "") :
    g.add? spec value = some (g.extend [(spec.name, value)]) := by
  have hhas : g.has spec.name = false := by
    rw [has, List.any_eq_false]
    intro o ho heq
    exact hnew (List.mem_map.mpr ⟨o, ho, eq_of_beq heq⟩)
  have hempty : (spec.arity == .path && value.isEmpty) = false := by
    rw [Bool.and_eq_false_imp, beq_iff_eq]
    intro harity
    simpa using hvalue harity
  rw [add?, hhas, hempty]
  rfl

/-- Among options with different names the value of one is found by its name. -/
theorem Given.value?_eq_some {name value : String} (hnodup : (g.options.map (·.1)).Nodup)
    (h : (name, value) ∈ g.options) : g.value? name = some value := by
  rw [value?, Option.map_eq_some_iff]
  cases hfind : g.options.find? fun o => o.1 == name with
  | none => simpa using List.find?_eq_none.mp hfind (name, value) h
  | some o =>
      have hname : o.1 = name := by simpa using List.find?_some hfind
      obtain rfl := List.inj_on_of_nodup_map hnodup (List.mem_of_find?_eq_some hfind) h hname
      exact ⟨_, rfl, rfl⟩

/-- Behind a pair of hyphens all arguments are operands. -/
theorem read?_operands : read? calculatorOptions (fuel + 1) g ("--" :: rest) =
    some { g with operands := g.operands ++ rest } := by
  simp [read?]

/-- An option that is new is read, in whatever form it is given. -/
theorem GivesOption.read?_append {option : String × String} (h : GivesOption arguments option)
    (hnew : option.1 ∉ g.options.map (·.1)) (hne : option ≠ ("file", "")) (fuel : Nat)
    (rest : List String) :
    ∃ left ≥ fuel, read? calculatorOptions (arguments.length + fuel) g (arguments ++ rest) =
      read? calculatorOptions left (g.extend [option]) rest := by
  cases h with
  | @sum flag hflag =>
      have hadd := Given.add?_eq_some ⟨'s', "sum", .flag⟩ "" hnew nofun
      refine ⟨fuel, Nat.le_refl fuel, ?_⟩
      rcases hflag with rfl | rfl <;>
        simp [Nat.add_comm, read?, long?, letters?, calculatorOptions, hadd]
  | @file name path hoption hpath =>
      have hadd := Given.add?_eq_some ⟨'f', "file", .path⟩ path hnew
        fun _ hpath => hne (by rw [hpath])
      refine ⟨fuel + 1, Nat.le_succ fuel, ?_⟩
      rcases hoption with rfl | rfl <;>
        simp [Nat.add_comm, read?, long?, letters?, takeValue?, calculatorOptions, hpath, hadd]
  | @attached path =>
      have hadd := Given.add?_eq_some ⟨'f', "file", .path⟩ path hnew
        fun _ hpath => hne (by rw [hpath])
      exact ⟨fuel, Nat.le_refl fuel, by simp [Nat.add_comm, read?, long?, calculatorOptions, hadd]⟩

/-- Options with different names are read one after the other. -/
theorem GivesOptions.read?_append (h : GivesOptions arguments options)
    (hnodup : ((g.options ++ options).map (·.1)).Nodup) (hne : ("file", "") ∉ options) (fuel : Nat)
    (rest : List String) :
    ∃ left ≥ fuel, read? calculatorOptions (arguments.length + fuel) g (arguments ++ rest) =
      read? calculatorOptions left (g.extend options) rest := by
  induction h generalizing g fuel with
  | nil => exact ⟨fuel, Nat.le_refl fuel, by simp [Given.extend]⟩
  | @cons arguments behind option options h _ ih =>
      rw [List.append_cons] at hnodup
      obtain ⟨hoption, hoptions⟩ := not_or.mp (fun h => hne (List.mem_cons.mpr h))
      have hnew : option.1 ∉ g.options.map (·.1) := by
        rw [List.map_append, List.map_append] at hnodup
        have hfront := (List.nodup_append.mp hnodup).1
        exact fun hmem => (List.nodup_append.mp hfront).2.2 _ hmem _ List.mem_cons_self rfl
      obtain ⟨left, hleft, hread⟩ :=
        h.read?_append hnew (Ne.symm hoption) (behind.length + fuel) (behind ++ rest)
      obtain ⟨extra, rfl⟩ := Nat.exists_eq_add_of_le hleft
      obtain ⟨left', hleft', hread'⟩ := ih (g := g.extend [option]) hnodup hoptions (fuel + extra)
      rw [Given.extend_extend] at hread'
      refine ⟨left', by omega, ?_⟩
      rw [List.length_append, List.append_assoc, Nat.add_assoc, hread, Nat.add_assoc, hread']
      rfl

/-- A file asks for the value of its expression, with the flag and without it. -/
theorem ofArguments_file {sum : Bool} (h : GivesOptions arguments options)
    (hoptions : options.Perm (("file", path) :: sumOptions sum)) (hpath : path ≠ "") :
    CalculatorRequest.ofArguments arguments = .evaluateFile path := by
  have hnodup : (options.map (·.1)).Nodup := by
    rw [(hoptions.map _).nodup_iff]
    cases sum <;> simp [sumOptions]
  have hne : ("file", "") ∉ options := by
    rw [hoptions.mem_iff]
    cases sum <;> simp [sumOptions, Ne.symm hpath]
  obtain ⟨left, -, hread⟩ := h.read?_append (g := {}) hnodup hne 0 []
  have hgiven : read? calculatorOptions arguments.length {} arguments =
      some (Given.extend {} options) := by
    rw [Nat.add_zero, List.append_nil] at hread
    rw [hread]
    cases left <;> rfl
  have hvalue : (Given.extend {} options).value? "file" = some path :=
    Given.value?_eq_some hnodup (hoptions.mem_iff.mpr List.mem_cons_self)
  rw [CalculatorRequest.ofArguments, hgiven]
  simp only [hvalue]
  rfl

/-- An operand asks for its operands with the flag, and for its value without it. -/
theorem ofArguments_operand {sum : Bool} (h : GivesOptions arguments (sumOptions sum))
    (expression : String) : CalculatorRequest.ofArguments (arguments ++ ["--", expression]) =
      if sum then .operands expression else .evaluate expression := by
  obtain ⟨left, hleft, hread⟩ := h.read?_append (g := {}) (by cases sum <;> simp [sumOptions])
    (by cases sum <;> simp [sumOptions]) 2 ["--", expression]
  obtain ⟨more, rfl⟩ := Nat.exists_eq_add_of_le' hleft
  rw [CalculatorRequest.ofArguments, List.length_append]
  simp only [List.length_cons, List.length_nil, hread, read?_operands]
  cases sum <;> rfl

/-! ### Outcomes -/

/-- No integer is printed with a bracket. -/
theorem bracket_not_mem_toString (n : Int) : '[' ∉ (toString n).toList := by
  have hdigits : ∀ k : Nat, '[' ∉ k.repr.toList := by
    intro k h
    rw [Nat.toList_repr] at h
    have hdigit := Nat.isDigit_of_mem_toDigits (by decide) (by decide) h
    exact absurd hdigit (by decide)
  cases n with
  | ofNat k => exact hdigits k
  | negSucc k =>
      change '[' ∉ ("-" ++ (k + 1).repr).toList
      rw [String.toList_append, List.mem_append]
      exact not_or.mpr ⟨by decide, hdigits (k + 1)⟩

/-- Two evaluations have the same outcome if they have the same value, or fail with one message. -/
theorem evaluated_eq_iff {files : FileTree} {r r' : Except Failure String} :
    evaluated files r = evaluated files r' ↔
      r.mapError Failure.message = r'.mapError Failure.message := by
  cases r <;> cases r' <;> simp [evaluated, Except.mapError]

/-- A value and a list of operands are never printed alike, so both are refused if their outcomes
agree. -/
theorem mapError_valueText_eq_iff {r : Except Failure Int64} {r' : Except Failure (List Int64)} :
    (valueText r).mapError Failure.message = (r'.map listed).mapError Failure.message ↔
      ∃ e e', r = .error e ∧ r' = .error e' ∧ e.message = e'.message := by
  cases r with
  | error e => cases r' <;> simp [valueText, Except.map, Except.mapError]
  | ok n =>
      cases r' with
      | error e' => simp [valueText, Except.map, Except.mapError]
      | ok ns =>
          refine iff_of_false (fun h => bracket_not_mem_toString n.toInt ?_) (by simp)
          have hsame : toString n.toInt = listed ns := Except.ok.inj h
          rw [hsame, listed]
          simp

/-- The expression in a file that can be read has the value of its text. -/
theorem evalFile_of_readText {files : FileTree} {source : String}
    (hsource : files.readText path = .ok source) :
    Languages.Calculator.evalFile files path = Calculator.eval source := by
  rw [Languages.Calculator.evalFile, Languages.Calculator.evalFileIn, StateT.run_bind,
    FileTree.run_readText, pure_bind, hsource]
  rfl

/-- The outcome of a run with a file, whether the flag is set or not. -/
theorem calculator_file {files : FileTree} {source : String} {sum : Bool}
    (hsource : files.readText path = .ok source) (h : GivesOptions arguments options)
    (hoptions : options.Perm (("file", path) :: sumOptions sum)) :
    calculator files arguments = evaluated files (valueText (Calculator.eval source)) := by
  have hpath : path ≠ "" := by
    rintro rfl
    cases hsource
  rw [calculator, ofArguments_file h hoptions hpath]
  dsimp only
  rw [evalFile_of_readText hsource]

/-- The outcome of a run with an operand behind a pair of hyphens, whether the flag is set or
not. -/
theorem calculator_operand (files : FileTree) (sum : Bool)
    (h : GivesOptions arguments (sumOptions sum)) (expression : String) :
    calculator files (arguments ++ ["--", expression]) =
      evaluated files (if sum then (Sum.operands expression).map listed
        else valueText (Calculator.eval expression)) := by
  rw [calculator, ofArguments_operand h]
  cases sum <;> rfl

/-- A file and an operand with the text of the file give the same run where the flag is not set. With
a file nothing comes of the flag: the run is that with the operand and without the flag. So with the flag
the two runs are the same only where the text is refused, as an expression and as a sum, with one
message. -/
theorem file_agrees_with_operand {files : FileTree} {source : String} {sum : Bool}
    {flag : List String} (hsource : files.readText path = .ok source)
    (hfile : GivesOptions arguments options)
    (hoptions : options.Perm (("file", path) :: sumOptions sum))
    (hflag : GivesOptions flag (sumOptions sum)) :
    calculator files arguments = calculator files ["--", source] ∧
    (calculator files arguments = calculator files (flag ++ ["--", source]) ↔
      sum = false ∨ ∃ e e', Calculator.eval source = .error e ∧ Sum.operands source = .error e' ∧
        e.message = e'.message) := by
  have hplain := calculator_operand files false .nil source
  rw [calculator_file hsource hfile hoptions, calculator_operand files sum hflag]
  refine ⟨hplain.symm, ?_⟩
  cases sum with
  | false => exact iff_of_true rfl (Or.inl rfl)
  | true =>
      rw [if_pos rfl, evaluated_eq_iff, mapError_valueText_eq_iff]
      simp

/-- A directory with a file that holds the text. -/
def directoryWith (source : String) : FileTree := ⟨[(["f"], .text source)]⟩

/-- A product in a file is evaluated, and an unknown character is refused in the same words, with
the flag and without it. -/
theorem file_agrees_with_operand_product :
    ((directoryWith "2 * 3").readText "f" = .ok "2 * 3" ∧
      calculator (directoryWith "2 * 3") ["-f", "f"] =
        calculator (directoryWith "2 * 3") ["--", "2 * 3"]) ∧
    (directoryWith "1 @").readText "f" = .ok "1 @" ∧
      calculator (directoryWith "1 @") ["--file=f", "-s"] =
        calculator (directoryWith "1 @") ["--sum", "--", "1 @"] := by
  have hproduct : (directoryWith "2 * 3").readText "f" = .ok "2 * 3" := by decide
  have hunknown : (directoryWith "1 @").readText "f" = .ok "1 @" := by decide
  have hfile : GivesOptions ["-f", "f"] [("file", "f")] := .cons (.file (Or.inr rfl) rfl) .nil
  have hboth : GivesOptions ["--file=f", "-s"] [("file", "f"), ("sum", "")] :=
    .cons (.attached "f") (.cons (.sum (Or.inr rfl)) .nil)
  have hsum : GivesOptions ["--sum"] (sumOptions true) := .cons (.sum (Or.inl rfl)) .nil
  have hplain : GivesOptions [] (sumOptions false) := .nil
  refine ⟨⟨hproduct, ?_⟩, hunknown, ?_⟩
  · exact (file_agrees_with_operand hproduct hfile (.refl _) hplain).1
  · refine (file_agrees_with_operand hunknown hboth (.refl _) hsum).2.mpr (Or.inr ?_)
    exact ⟨.parse (.lexical ⟨2, "@"⟩), .parse (.lexical ⟨2, "@"⟩), by decide +kernel,
      by decide +kernel, rfl⟩

/-- The flag asks for the operands of a sum, but those of a sum in a file are added up. -/
theorem sum_in_file_not_split :
    (directoryWith "1 + 2").readText "f" = .ok "1 + 2" ∧
      (calculator (directoryWith "1 + 2") ["--sum", "--file", "f"]).output = "3\n" ∧
      (calculator (directoryWith "1 + 2") ["--sum", "--", "1 + 2"]).output = "[1, 2]\n" := by
  decide +kernel

end Descent.CommandLine

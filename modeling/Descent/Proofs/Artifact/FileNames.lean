import Descent.Proofs.Artifact.CaseForms
import Descent.Proofs.Files.Places
import Mathlib.Data.List.Nodup

/-!
# Names of the artifacts

Just the identifiers are names of grammars. The names of the three files of a grammar are
plain names of files, and no two of them are equal. The names derived from the name of a
grammar are also those of a grammar that has its stem of types for a name.
-/

namespace Descent.Artifact

open Descent.Text
open Descent.Description (isNamePart)
open Descent.Files.FileTree (IsPlain)

variable {name : String} {n : Names}

namespace Names

/-! ### The two stems -/

/-- An identifier gives names: its form of types, and the form of files of that. -/
theorem ofName?_of_isIdentifier (h : IsIdentifier name.toList) :
    ofName? name = some ⟨String.ofList (pascalCase name.toList),
      String.ofList (snakeCase (pascalCase name.toList))⟩ := by
  rw [ofName?, if_pos (isGrammarName_iff.mpr h)]

/-- What is no identifier gives no names. -/
theorem ofName?_eq_none (h : ¬ IsIdentifier name.toList) : ofName? name = none := by
  rw [ofName?, if_neg (mt isGrammarName_iff.mp h)]

/-- Names are derived from an identifier: its form of types and the form of files of that. -/
theorem stems_of_ofName? (h : ofName? name = some n) :
    IsTypeStem n.typeStem.toList ∧ n.fileStem.toList = snakeCase n.typeStem.toList := by
  by_cases hname : IsIdentifier name.toList
  · rw [ofName?_of_isIdentifier hname] at h
    cases h
    rw [String.toList_ofList, String.toList_ofList]
    exact ⟨isTypeStem_pascalCase hname, rfl⟩
  · rw [ofName?_eq_none hname] at h
    cases h

/-- The files of a grammar have a stem of files in front. -/
theorem isFileStem_fileStem (h : ofName? name = some n) : IsFileStem n.fileStem.toList := by
  obtain ⟨htype, hfile⟩ := stems_of_ofName? h
  rw [hfile]
  exact htype.isFileStem

/-! ### The three files -/

private theorem isPlain_append {ending : String} (h : ofName? name = some n)
    (hslash : '/' ∉ ending.toList) (hlong : 2 < ending.toList.length) :
    IsPlain (n.fileStem ++ ending) := by
  have hne : ∀ other : String, other.toList.length ≤ 2 → n.fileStem ++ ending ≠ other := by
    rintro _ hother rfl
    rw [String.toList_append, List.length_append] at hother
    omega
  refine ⟨fun hmem => ?_, hne _ (by decide), hne _ (by decide), hne _ (by decide)⟩
  rw [String.toList_append, List.mem_append] at hmem
  rcases hmem with hmem | hmem
  · exact absurd ((isFileStem_fileStem h).isNamePart _ hmem) (by decide)
  · exact hslash hmem

/-- The names of the files of the artifacts, in the order in which they are written. -/
def files (n : Names) : List String := [n.tokensFile, n.lexerFile, n.parserFile]

/-- The files are the stem with three different endings. -/
theorem files_eq (n : Names) :
    n.files = ["_tokens.rs", "_lexer.rs", "_parser.rs"].map (n.fileStem ++ ·) := by
  simp only [files, tokensFile, lexerFile, parserFile, tokensModule, lexerModule, parserModule,
    String.append_assoc, List.map_cons, List.map_nil]
  rfl

/-- The names of the files are plain names. -/
theorem isPlain_of_mem_files (h : ofName? name = some n) {file : String} (hfile : file ∈ n.files) :
    IsPlain file := by
  rw [files_eq] at hfile
  obtain ⟨ending, hending, rfl⟩ := List.mem_map.mp hfile
  have hendings : ∀ ending ∈ ["_tokens.rs", "_lexer.rs", "_parser.rs"],
      '/' ∉ ending.toList ∧ 2 < ending.toList.length := by
    decide
  exact isPlain_append h (hendings ending hending).1 (hendings ending hending).2

/-- The three files have distinct names. -/
theorem nodup_files (n : Names) : n.files.Nodup := by
  rw [files_eq]
  refine List.Nodup.map (fun a b hab => ?_) (by decide)
  exact String.toList_inj.mp (List.append_cancel_left (by
    simpa only [String.toList_append] using congrArg String.toList hab))

/-! ### All names of a grammar -/

/-- The shape of the names of a grammar. -/
structure WellShaped (n : Names) : Prop where
  typeStem : IsTypeStem n.typeStem.toList
  fileStem : IsFileStem n.fileStem.toList
  /-- The two stems have the same letters and digits. -/
  letters : n.fileStem.toList.filter (· != '_') = n.typeStem.toList.map Char.toLower
  distinct : n.files.Nodup
  /-- The names are those of a grammar that has the stem of types for a name. -/
  stable : ofName? n.typeStem = some n

/-- Names that come of an identifier are well shaped. -/
theorem wellShaped_of_ofName? (h : ofName? name = some n) : n.WellShaped := by
  obtain ⟨htype, hfile⟩ := stems_of_ofName? h
  refine ⟨htype, isFileStem_fileStem h, ?_, nodup_files n, ?_⟩
  · rw [hfile]
    exact filter_snakeFrom htype.isAlphanum
  · rw [ofName?_of_isIdentifier htype.isIdentifier, htype.pascalCase_eq, ← hfile,
      String.ofList_toList, String.ofList_toList]

/-- Just the identifiers are names of grammars, and all names derived from them are well shaped. -/
theorem names_exact (name : String) :
    (IsIdentifier name.toList ∧ ∃ n, ofName? name = some n ∧ n.WellShaped) ∨
      (¬ IsIdentifier name.toList ∧ ofName? name = none) := by
  by_cases h : IsIdentifier name.toList
  · have hname := ofName?_of_isIdentifier h
    exact .inl ⟨h, _, hname, wellShaped_of_ofName? hname⟩
  · exact .inr ⟨h, ofName?_eq_none h⟩

end Names
end Descent.Artifact

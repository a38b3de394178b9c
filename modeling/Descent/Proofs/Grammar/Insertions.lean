import Descent.Proofs.Grammar.Offenders

/-!
# Tables made by insertions

A table is made by inserting names one after the other, and a name may come again. The
table lists the names in the order in which each came first, numbers them without a gap,
and is left as it was by a name that is there already. A table that must be made of
distinct names is the one that the insertions make.
-/

namespace Descent.SymbolTable

variable {t u : SymbolTable} {name : String} {names : List String}

/-- What a table tells of the names that were inserted into it one after the other, and what
inserting one more comes to. -/
structure Numbers (t : SymbolTable) (inserted : List String) : Prop where
  /-- The names stand in the order in which each was inserted first. -/
  names : t.names = inserted.eraseDups
  /-- Names and numbers find each other. -/
  inverse : ∀ name id, t.id? name = some id ↔ t.name? id = some name
  /-- The numbers are those below the size. -/
  range : ∀ id, (∃ name, t.name? id = some name) ↔ id < t.size
  contains : ∀ name, t.contains name = true ↔ name ∈ inserted
  /-- A name that was not inserted gets the next number and goes behind the others. -/
  new : ∀ name, name ∉ inserted →
    ∃ u, t.insert name = (.new t.size, u) ∧ u.names = t.names ++ [name]
  /-- A name that was inserted is reported with its number, and the table stays as it is. -/
  old : ∀ name, name ∈ inserted → ∃ id, t.id? name = some id ∧ t.insert name = (.old id, t)

/-- Insertions list the names in the order in which each comes first. -/
theorem names_ofList_eq_eraseDups (names : List String) :
    (ofList names).names = names.eraseDups := by
  induction names using List.reverseRecOn with
  | nil => rfl
  | append_singleton names name ih =>
      rw [names_ofList_concat, List.eraseDups_append, ih]
      split
      · next hname =>
          have hold : [name].removeAll names = [] := by simp [List.removeAll, hname]
          rw [hold, List.eraseDups_nil, List.append_nil]
      · next hname =>
          have hnew : [name].removeAll names = [name] := by simp [List.removeAll, hname]
          rw [hnew]
          rfl

/-- The table of any names numbers them. -/
theorem numbers_ofList (inserted : List String) : (ofList inserted).Numbers inserted where
  names := names_ofList_eq_eraseDups inserted
  inverse := fun _ _ => id?_eq_some_iff
  range := fun id => by
    rw [← Option.isSome_iff_exists, name?, isSome_getElem?, size]
  contains := fun _ => contains_iff.trans mem_names_ofList
  new := fun _ hname => ⟨_, insert_of_not_mem (mt mem_names_ofList.mp hname), rfl⟩
  old := fun _ hname =>
    have hmem := mem_names_ofList.mpr hname
    ⟨_, id?_of_mem hmem, insert_of_mem hmem⟩

/-- Names that are all new are added by inserting them. -/
theorem foldl_insert_of_insertAll (h : t.insertAll names = .ok u) :
    names.foldl (fun t name => (t.insert name).2) t = u := by
  induction names generalizing t with
  | nil => exact Except.ok.inj h
  | cons a rest ih =>
      rw [insertAll] at h
      by_cases ha : a ∈ t.names
      · rw [insert_of_mem ha] at h
        cases h
      · rw [insert_of_not_mem ha] at h
        rw [List.foldl_cons, insert_of_not_mem ha]
        exact ih h

/-- The check of distinct names passes exactly for them, with the table that inserting them
makes. -/
theorem unique_eq_ok_iff : unique names = .ok t ↔ names.Nodup ∧ t = ofList names := by
  constructor
  · intro h
    exact ⟨(nodup_of_unique h).1, (foldl_insert_of_insertAll h).symm⟩
  · rintro ⟨hnodup, rfl⟩
    cases hunique : unique names with
    | error name => exact absurd hnodup (unique_eq_error_iff.mp hunique).not_nodup
    | ok u => rw [← foldl_insert_of_insertAll hunique, ofList]

/-- Insertions into an empty table number the names that are inserted. Names that are to be distinct
make the table of their insertions if they are, and otherwise the first that repeats an earlier one
is reported. -/
theorem insertions_exact :
    (∀ inserted, (ofList inserted).Numbers inserted) ∧
    ∀ names, (∀ t, unique names = .ok t ↔ names.Nodup ∧ t = ofList names) ∧
      ∀ name, unique names = .error name ↔ FirstRepeat names name :=
  ⟨numbers_ofList, fun _ => ⟨fun _ => unique_eq_ok_iff, fun _ => unique_eq_error_iff⟩⟩

/-- A name that comes again leaves no gap in the numbers. -/
example : (ofList ["expr", "term", "expr", "factor"]).id? "factor" = some 2 := by decide

end Descent.SymbolTable

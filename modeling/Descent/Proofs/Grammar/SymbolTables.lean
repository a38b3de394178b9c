import Descent.Grammar.SymbolTable
import Mathlib.Data.List.Induction
import Mathlib.Data.List.Nodup

/-!
# Tables of distinct names

The number of a name in a table is its position. A table has the names of which it is
made, a table made of distinct names is their list, and the check that names are distinct
passes only for such a list.
-/

namespace Descent.SymbolTable

variable {t u : SymbolTable} {name : String} {names : List String}

/-- A name has a number exactly if the number has the name. -/
theorem id?_eq_some_iff {id : Nat} : t.id? name = some id ↔ t.names[id]? = some name :=
  t.agree name id

/-- The names of a table are distinct. -/
theorem nodup_names (t : SymbolTable) : t.names.Nodup := by
  refine List.nodup_iff_getElem?_ne_getElem?.mpr fun i j hij hj he => Nat.ne_of_lt hij ?_
  have hname := List.getElem?_eq_getElem hj
  have hi := id?_eq_some_iff.mpr (he.trans hname)
  exact Option.some.inj (hi.symm.trans (id?_eq_some_iff.mpr hname))

/-- A name of a table is found at its first position. -/
theorem id?_of_mem (h : name ∈ t.names) : t.id? name = some (t.names.idxOf name) := by
  have hlt := List.idxOf_lt_length_iff.mpr h
  rw [id?_eq_some_iff, List.getElem?_eq_getElem hlt, List.getElem_idxOf hlt]

/-- A name has no number exactly if it is not in the table. -/
theorem id?_eq_none_iff : t.id? name = none ↔ name ∉ t.names := by
  constructor
  · intro hnone hmem
    exact nomatch hnone.symm.trans (id?_of_mem hmem)
  · intro hmem
    by_contra hsome
    obtain ⟨id, hid⟩ := Option.ne_none_iff_exists'.mp hsome
    exact hmem (List.mem_of_getElem? (id?_eq_some_iff.mp hid))

/-- A name that is not in the table has no number. -/
theorem id?_of_not_mem (h : name ∉ t.names) : t.id? name = none := id?_eq_none_iff.mpr h

/-- Inserting a name that is not there puts it behind the others. -/
theorem insert_of_not_mem (h : name ∉ t.names) :
    t.insert name = (.new t.size, t.push name (id?_of_not_mem h)) := by
  unfold insert
  split
  · next id hid => exact nomatch (id?_of_not_mem h).symm.trans hid
  · rfl

/-- Inserting a name that is there reports its number and leaves the table as it is. -/
theorem insert_of_mem (h : name ∈ t.names) :
    t.insert name = (.old (t.names.idxOf name), t) := by
  unfold insert
  split
  · next id hid => rw [Option.some.inj (hid.symm.trans (id?_of_mem h))]
  · next hnone => exact absurd h (id?_eq_none_iff.mp hnone)

private theorem ofList_concat (names : List String) (name : String) :
    ofList (names ++ [name]) = ((ofList names).insert name).2 := by
  rw [ofList, List.foldl_append]
  rfl

/-- The table of any names has just these. -/
theorem mem_names_ofList : name ∈ (ofList names).names ↔ name ∈ names := by
  induction names using List.reverseRecOn with
  | nil => rfl
  | append_singleton names a ih =>
      rw [ofList_concat, List.mem_append, List.mem_singleton, ← ih]
      by_cases ha : a ∈ (ofList names).names
      · rw [insert_of_mem ha]
        exact (or_iff_left_of_imp fun h => h ▸ ha).symm
      · rw [insert_of_not_mem ha, names_push, List.mem_append, List.mem_singleton]

/-- One more name goes behind the others, unless it was there. -/
theorem names_ofList_concat (names : List String) (name : String) :
    (ofList (names ++ [name])).names =
      if name ∈ names then (ofList names).names else (ofList names).names ++ [name] := by
  rw [ofList_concat]
  split
  · next h => rw [insert_of_mem (mem_names_ofList.mpr h)]
  · next h => rw [insert_of_not_mem (mt mem_names_ofList.mp h), names_push]

/-- The table of distinct names is their list. -/
theorem names_ofList (h : names.Nodup) : (ofList names).names = names := by
  induction names using List.reverseRecOn with
  | nil => rfl
  | append_singleton names name ih =>
      obtain ⟨hnames, -, hdistinct⟩ := List.nodup_append.mp h
      have hnew : name ∉ names := fun hmem => hdistinct name hmem name List.mem_cons_self rfl
      rw [names_ofList_concat, if_neg hnew, ih hnames]

/-- Adding names that must all be new succeeds only where they are. -/
theorem nodup_of_insertAll (h : t.insertAll names = .ok u) :
    (t.names ++ names).Nodup ∧ u.names = t.names ++ names := by
  induction names generalizing t with
  | nil =>
      obtain rfl := Except.ok.inj h
      simpa only [List.append_nil, and_true] using nodup_names t
  | cons a rest ih =>
      rw [insertAll] at h
      by_cases ha : a ∈ t.names
      · rw [insert_of_mem ha] at h
        cases h
      · rw [insert_of_not_mem ha] at h
        simpa only [names_push, List.append_assoc, List.singleton_append] using ih h

/-- The check of distinct names passes only where they are, and makes a table of them. -/
theorem nodup_of_unique (h : unique names = .ok u) : names.Nodup ∧ u.names = names := by
  have hall := nodup_of_insertAll (t := empty) h
  simpa only [empty, List.nil_append] using hall

/-- A table contains exactly its names. -/
theorem contains_iff : t.contains name = true ↔ name ∈ t.names := by
  rw [contains, ← id?, Option.isSome_iff_ne_none, ne_eq, id?_eq_none_iff, not_not]

end Descent.SymbolTable

import Descent.Proofs.Files.Places

/-!
# Texts of files

A text that is written to the file at a path is put at the place of the path, which was
no directory. To write it once more changes nothing, and a text that was read is read
again as long as directories and the entry at its place stay.
-/

namespace Descent.Files.FileTree

variable {t t₁ t₂ : FileTree} {path contents : String} {place : Place} {entry : Entry}

/-! ### Writing -/

/-- A text that is written goes to the place of its path, which was no directory. -/
theorem writeText_ok (h : t₁.writeText path contents = .ok t₂) :
    ∃ target, t₁.target path = .ok target ∧ target.asDirectory = false ∧
      target.place = placeOf path ∧ t₁.at? (placeOf path) ≠ some .directory ∧
      t₂ = t₁.put (placeOf path) (.text contents) := by
  rw [writeText] at h
  split at h
  next => cases h
  next target htarget =>
    have hplace := (target_ok htarget).1
    rw [hplace] at h
    split at h
    next => cases h
    next hfile hthere =>
      split at h
      next => cases h
      next hdemand =>
        cases h
        refine ⟨target, htarget, by simpa using hdemand, hplace, fun hdir => ?_, rfl⟩
        exact hfile (Option.some.inj (hthere.symm.trans hdir))
    next hnone =>
      split at h
      next =>
        split at h
        next => cases h
        next hdemand =>
          cases h
          exact ⟨target, htarget, by simpa using hdemand, hplace, by simp [hnone], rfl⟩
      next => cases h
      next => cases h

/-- Behind a write the place of its path holds the text, and the others what they held. -/
theorem at?_writeText (h : t₁.writeText path contents = .ok t₂) (q : Place) :
    t₂.at? q = if q = placeOf path then some (.text contents) else t₁.at? q := by
  obtain ⟨-, -, -, -, hfile, rfl⟩ := writeText_ok h
  exact at?_put (ne_nil_of_at?_ne hfile)

/-- To write a text keeps all directories. -/
theorem keepsDirectories_of_writeText (h : t₁.writeText path contents = .ok t₂) :
    t₁.KeepsDirectories t₂ := by
  intro q hq
  obtain ⟨-, -, -, -, hfile, -⟩ := writeText_ok h
  have hne : q ≠ placeOf path := by
    rintro rfl
    exact hfile hq
  rw [at?_writeText h, if_neg hne, hq]

/-- The text that is written is the only entry at its place. -/
theorem holdsOnly_writeText (h : t₁.writeText path contents = .ok t₂) :
    t₂.HoldsOnly (placeOf path) (.text contents) := by
  obtain ⟨-, -, -, -, hfile, rfl⟩ := writeText_ok h
  exact holdsOnly_put (ne_nil_of_at?_ne hfile)

/-- To write a text elsewhere leaves the only entry of a place. -/
theorem HoldsOnly.writeText (honly : t₁.HoldsOnly place entry)
    (h : t₁.writeText path contents = .ok t₂) (hne : placeOf path ≠ place) :
    t₂.HoldsOnly place entry := by
  obtain ⟨-, -, -, -, -, rfl⟩ := writeText_ok h
  exact honly.put_of_ne hne

/-- A text that was written once is there: to write it again changes nothing. -/
theorem writeText_again (h : t₁.writeText path contents = .ok t₂) (hkeeps : t₁.KeepsDirectories t)
    (hthere : t.at? (placeOf path) = some (.text contents))
    (honly : t.HoldsOnly (placeOf path) (.text contents)) : t.writeText path contents = .ok t := by
  obtain ⟨target, htarget, hdemand, hplace, -, -⟩ := writeText_ok h
  rw [FileTree.writeText, hkeeps.target_eq htarget]
  dsimp only
  rw [hplace, hthere]
  simp only [hdemand, Bool.false_eq_true, if_false, honly.put_self hthere]

/-! ### Reading -/

/-- A text that is read is the one at the place of its path. -/
theorem readText_ok (h : t.readText path = .ok contents) :
    ∃ target, t.target path = .ok target ∧ target.asDirectory = false ∧
      target.place = placeOf path ∧ t.at? (placeOf path) = some (.text contents) := by
  rw [readText] at h
  split at h
  next => cases h
  next target htarget =>
    have hplace := (target_ok htarget).1
    rw [hplace] at h
    split at h
    next => cases h
    next => cases h
    next found hfound =>
      split at h
      next => cases h
      next hdemand =>
        cases h
        exact ⟨target, htarget, by simpa using hdemand, hplace, hfound⟩
    next => cases h

/-- A text is read again where it is still there and every directory is kept. -/
theorem readText_again (h : t₁.readText path = .ok contents) (hkeeps : t₁.KeepsDirectories t₂)
    (hthere : t₂.at? (placeOf path) = t₁.at? (placeOf path)) : t₂.readText path = .ok contents := by
  obtain ⟨target, htarget, hdemand, hplace, hfound⟩ := readText_ok h
  rw [readText, hkeeps.target_eq htarget]
  dsimp only
  rw [hplace, hthere, hfound]
  simp only [hdemand, Bool.false_eq_true, if_false]

end Descent.Files.FileTree

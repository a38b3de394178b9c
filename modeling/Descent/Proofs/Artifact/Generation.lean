import Descent.Generation
import Descent.Proofs.Artifact.FileNames
import Descent.Proofs.Files.Directories
import Descent.Proofs.Files.Writing
import Descent.Proofs.Grammar.Valid

/-!
# What generation leaves behind

Whatever is wrong with a description or its name leaves the tree of files as it was.
After that the output directory is made, with the directories above it that are missing,
and the artifacts are written one after the other; a file that cannot be written leaves
those before it.
-/

namespace Descent

open Artifact (Names SourceFile)
open Files (FileTree FileError Place)
open Files.FileTree (IsPlain OnTheWay placeOf)

variable {t t' t₁ t₂ : FileTree} {grammarPath directory name source : String} {debug : Bool}
  {files done : List SourceFile} {file : SourceFile}

/-- The second tree is the first one with some files in a directory. The directory and those on
the way to it are there, made where nothing was before, each file has its contents, and nothing
else is changed. -/
structure Receives (t : FileTree) (directory : String) (files : List SourceFile) (t' : FileTree) :
    Prop where
  made : ∀ q, OnTheWay directory q →
    t'.at? q = some .directory ∧ (t.at? q = none ∨ t.at? q = some .directory)
  written : ∀ file ∈ files, t'.at? (placeOf directory ++ [file.name]) = some (.text file.contents) ∧
    t.at? (placeOf directory ++ [file.name]) ≠ some .directory
  others : ∀ q, ¬OnTheWay directory q → (∀ file ∈ files, q ≠ placeOf directory ++ [file.name]) →
    t'.at? q = t.at? q

/-! ### Writing the files -/

/-- Writes files into a directory of a tree, one after the other. The tree is the one that is left
behind, also by a failure. -/
def writeAll (t : FileTree) (directory : String) (files : List SourceFile) :
    FileTree × Except GenerateError Unit :=
  ((writeFiles FileTree.operations directory files).run t).swap

/-- The first file is written, and the others behind it unless it is refused. -/
theorem writeAll_cons (t : FileTree) (directory : String) (file : SourceFile)
    (rest : List SourceFile) : writeAll t directory (file :: rest) =
      match t.writeText (FileTree.join directory file.name) file.contents with
      | .ok t => writeAll t directory rest
      | .error e => (t, .error (.write (FileTree.join directory file.name) e)) := by
  rw [writeAll, writeFiles, StateT.run_bind, FileTree.run_writeText]
  cases t.writeText (FileTree.join directory file.name) file.contents <;> rfl

/-- Where all files are written, the first one is, and then the others. -/
theorem writeAll_cons_ok {rest : List SourceFile}
    (h : writeAll t directory (file :: rest) = (t', .ok ())) :
    ∃ t₁, t.writeText (FileTree.join directory file.name) file.contents = .ok t₁ ∧
      writeAll t₁ directory rest = (t', .ok ()) := by
  rw [writeAll_cons] at h
  split at h
  next t₁ hwrite => exact ⟨t₁, hwrite, h⟩
  next => cases h

/-- Writing stops at the first file that cannot be written, with those before it written. -/
theorem writeAll_error {e : GenerateError} (h : writeAll t directory files = (t', .error e)) :
    ∃ done file rest reason, files = done ++ file :: rest ∧
      writeAll t directory done = (t', .ok ()) ∧
      t'.writeText (FileTree.join directory file.name) file.contents = .error reason ∧
      e = .write (FileTree.join directory file.name) reason := by
  induction files generalizing t with
  | nil => cases h
  | cons first rest ih =>
    rw [writeAll_cons] at h
    split at h
    next t₁ hwrite =>
      obtain ⟨done, file, rest, reason, rfl, hdone, hfail, he⟩ := ih h
      refine ⟨first :: done, file, rest, reason, rfl, ?_, hfail, he⟩
      rw [writeAll_cons, hwrite]
      exact hdone
    next reason hwrite =>
      cases h
      exact ⟨[], first, rest, reason, rfl, rfl, hwrite, rfl⟩

section Written

variable (hplain : ∀ file ∈ files, IsPlain file.name) (hdistinct : (files.map (·.name)).Nodup)

/-- Writing files keeps all directories. -/
theorem keepsDirectories_writeAll (h : writeAll t directory files = (t', .ok ())) :
    t.KeepsDirectories t' := by
  induction files generalizing t with
  | nil => cases h; exact fun _ hq => hq
  | cons first rest ih =>
    obtain ⟨t₁, hwrite, hrest⟩ := writeAll_cons_ok h
    exact fun q hq => ih hrest q (FileTree.keepsDirectories_of_writeText hwrite q hq)

include hplain

/-- Writing files changes nothing but the places of the files. -/
theorem at?_writeAll (h : writeAll t directory files = (t', .ok ())) {q : Place}
    (hq : ∀ file ∈ files, q ≠ placeOf directory ++ [file.name]) : t'.at? q = t.at? q := by
  induction files generalizing t with
  | nil => cases h; rfl
  | cons first rest ih =>
    obtain ⟨t₁, hwrite, hrest⟩ := writeAll_cons_ok h
    rw [List.forall_mem_cons] at hplain hq
    rw [ih hplain.2 hrest hq.2, FileTree.at?_writeText hwrite,
      FileTree.placeOf_join hplain.1, if_neg hq.1]

/-- An entry that is the only one at its place still is when files are written at other places. -/
theorem holdsOnly_writeAll {q : Place} {entry : Files.Entry} (honly : t.HoldsOnly q entry)
    (h : writeAll t directory files = (t', .ok ()))
    (hq : ∀ file ∈ files, q ≠ placeOf directory ++ [file.name]) : t'.HoldsOnly q entry := by
  induction files generalizing t with
  | nil => cases h; exact honly
  | cons first rest ih =>
    obtain ⟨t₁, hwrite, hrest⟩ := writeAll_cons_ok h
    rw [List.forall_mem_cons] at hplain hq
    refine ih hplain.2 (honly.writeText hwrite ?_) hrest hq.2
    rw [FileTree.placeOf_join hplain.1]
    exact Ne.symm hq.1

include hdistinct

/-- Each file that was written is there, was no directory before, and is written again without
any change. -/
theorem written_writeAll (h : writeAll t directory files = (t', .ok ())) (hfile : file ∈ files) :
    t'.at? (placeOf directory ++ [file.name]) = some (.text file.contents) ∧
      t.at? (placeOf directory ++ [file.name]) ≠ some .directory ∧
      t'.writeText (FileTree.join directory file.name) file.contents = .ok t' := by
  induction files generalizing t with
  | nil => cases hfile
  | cons first rest ih =>
    obtain ⟨t₁, hwrite, hrest⟩ := writeAll_cons_ok h
    rw [List.forall_mem_cons] at hplain
    rw [List.map_cons, List.nodup_cons] at hdistinct
    have hjoin : placeOf (FileTree.join directory first.name) = placeOf directory ++ [first.name] :=
      FileTree.placeOf_join hplain.1
    -- the files behind the first one are at other places
    have hothers : ∀ other ∈ rest,
        placeOf directory ++ [first.name] ≠ placeOf directory ++ [other.name] := by
      intro other hother heq
      have hname : first.name = other.name := by simpa using heq
      exact hdistinct.1 (hname ▸ List.mem_map_of_mem hother)
    rcases List.mem_cons.mp hfile with rfl | hfile
    · obtain ⟨-, -, -, -, hbefore, -⟩ := FileTree.writeText_ok hwrite
      have hthere : t'.at? (placeOf directory ++ [file.name]) = some (.text file.contents) := by
        rw [at?_writeAll hplain.2 hrest hothers, FileTree.at?_writeText hwrite, hjoin, if_pos rfl]
      have honly : t'.HoldsOnly (placeOf directory ++ [file.name]) (.text file.contents) :=
        holdsOnly_writeAll hplain.2 (hjoin ▸ FileTree.holdsOnly_writeText hwrite) hrest hothers
      have hkeeps : t.KeepsDirectories t' := keepsDirectories_writeAll h
      refine ⟨hthere, hjoin ▸ hbefore, ?_⟩
      rw [← hjoin] at hthere honly
      exact FileTree.writeText_again hwrite hkeeps hthere honly
    · obtain ⟨hthere, hbefore, hagain⟩ := ih hplain.2 hdistinct.2 hrest hfile
      refine ⟨hthere, fun hdir => hbefore ?_, hagain⟩
      exact FileTree.keepsDirectories_of_writeText hwrite _ hdir

end Written

/-- Files each of which is written without any change are all written without any change. -/
theorem writeAll_again (h : ∀ file ∈ files,
    t.writeText (FileTree.join directory file.name) file.contents = .ok t) :
    writeAll t directory files = (t, .ok ()) := by
  induction files with
  | nil => rfl
  | cons first rest ih =>
    rw [List.forall_mem_cons] at h
    rw [writeAll_cons, h.1]
    exact ih h.2

/-- Directories that are made and files that are written into them are what a tree receives. -/
theorem receives_of_writeAll (hplain : ∀ file ∈ files, IsPlain file.name)
    (hdistinct : (files.map (·.name)).Nodup)
    (hmake : t.makeDirectories (FileTree.ancestors directory) = (t₁, .ok ()))
    (hwrite : writeAll t₁ directory files = (t', .ok ())) : Receives t directory files t' := by
  have hgrows : t.Grows t₁ (OnTheWay directory) := by
    have := FileTree.grows_ancestors t directory
    rwa [hmake] at this
  refine ⟨fun q hq => ⟨?_, ?_⟩, fun file hfile => ?_, fun q hway hq => ?_⟩
  · exact keepsDirectories_writeAll hwrite q (FileTree.directory_of_makeDirectories hmake hq)
  · rcases hgrows q with hsame | ⟨-, hnone, -⟩
    · exact .inr (hsame ▸ FileTree.directory_of_makeDirectories hmake hq)
    · exact .inl hnone
  · obtain ⟨hthere, hbefore, -⟩ := written_writeAll hplain hdistinct hwrite hfile
    exact ⟨hthere, fun hdir => hbefore (hgrows.keepsDirectories _ hdir)⟩
  · rw [at?_writeAll hplain hwrite hq, hgrows.eq_of_not hway]

/-! ### The artifacts -/

/-- The artifacts are the three files with the names that the name of the grammar gives. -/
theorem render_ok (h : render source name debug = .ok files) :
    ∃ names, Names.ofName? name = some names ∧ files.map (·.name) = names.files := by
  rw [render] at h
  split at h
  next names hnames =>
    obtain ⟨_, hok, h⟩ := bind_eq_ok.mp h
    cases hok
    obtain ⟨g, -, h⟩ := bind_eq_ok.mp h
    obtain ⟨a, -, h⟩ := bind_eq_ok.mp h
    cases h
    exact ⟨names, hnames, rfl⟩
  next => cases h

/-- The artifacts have plain names. -/
theorem isPlain_of_render (h : render source name debug = .ok files) :
    ∀ file ∈ files, IsPlain file.name := by
  obtain ⟨names, hnames, hfiles⟩ := render_ok h
  intro file hfile
  exact Names.isPlain_of_mem_files hnames (hfiles ▸ List.mem_map_of_mem hfile)

/-- The artifacts have distinct names. -/
theorem nodup_of_render (h : render source name debug = .ok files) :
    (files.map (·.name)).Nodup := by
  obtain ⟨names, -, hfiles⟩ := render_ok h
  exact hfiles ▸ names.nodup_files

/-! ### Generation -/

/-- The steps of generation on a tree: each of them has its failure, and the tree changes with the
last two. -/
theorem generate_eq (t : FileTree) (grammarPath directory name : String) (debug : Bool) :
    generate t grammarPath directory name debug =
      match t.readText grammarPath with
      | .error e => (t, .error (.read grammarPath e))
      | .ok source =>
        match render source name debug with
        | .error e => (t, .error (.render grammarPath e))
        | .ok files =>
          match t.makeDirectories (FileTree.ancestors directory) with
          | (t, .error e) => (t, .error (.create directory e))
          | (t, .ok ()) => writeAll t directory files := by
  rw [generate, generateIn, StateT.run_bind, FileTree.run_readText, pure_bind]
  cases t.readText grammarPath with
  | error e => rfl
  | ok source =>
      dsimp only
      cases render source name debug with
      | error e => rfl
      | ok files =>
          dsimp only
          rw [StateT.run_bind, FileTree.run_makeDirectories, pure_bind]
          rcases t.makeDirectories (FileTree.ancestors directory) with ⟨t, e | ⟨⟩⟩ <;> rfl

/-- What may be left of a tree, with the answer, when the artifacts of a description are
generated. -/
inductive Leaves (t : FileTree) (grammarPath directory name : String) (debug : Bool) :
    FileTree → Except GenerateError Unit → Prop
  /-- The description cannot be read, and nothing is changed. -/
  | unread {reason : FileError} (hread : t.readText grammarPath = .error reason) :
    Leaves t grammarPath directory name debug t (.error (.read grammarPath reason))
  /-- The name is no name of a grammar or the description has no artifacts, and nothing is
  changed. -/
  | unrendered {source : String} {reason : RenderError}
    (hread : t.readText grammarPath = .ok source)
    (hrender : render source name debug = .error reason) :
    Leaves t grammarPath directory name debug t (.error (.render grammarPath reason))
  /-- The directory cannot be made, and only some of those above it are new. -/
  | unmade {source : String} {files : List SourceFile} {t' : FileTree} {reason : FileError}
    (hread : t.readText grammarPath = .ok source) (hrender : render source name debug = .ok files)
    (hmake : t.makeDirectories (FileTree.ancestors directory) = (t', .error reason))
    (hgrows : t.Grows t' (OnTheWay directory)) :
    Leaves t grammarPath directory name debug t' (.error (.create directory reason))
  /-- A file cannot be written, and those before it are. -/
  | unwritten {source : String} {names : Names} {done rest : List SourceFile} {file : SourceFile}
    {t' : FileTree} {reason : FileError}
    (hread : t.readText grammarPath = .ok source)
    (hrender : render source name debug = .ok (done ++ file :: rest))
    (hnames : Names.ofName? name = some names)
    (hfiles : (done ++ file :: rest).map (·.name) = names.files)
    (hreceives : Receives t directory done t')
    (hwrite : t'.writeText (FileTree.join directory file.name) file.contents = .error reason) :
    Leaves t grammarPath directory name debug t'
      (.error (.write (FileTree.join directory file.name) reason))
  /-- All files are written, and generating them again changes nothing unless one of them is put
  in the place of the description. -/
  | written {source : String} {names : Names} {files : List SourceFile} {t' : FileTree}
    (hread : t.readText grammarPath = .ok source) (hrender : render source name debug = .ok files)
    (hnames : Names.ofName? name = some names) (hfiles : files.map (·.name) = names.files)
    (hreceives : Receives t directory files t')
    (hagain : (∀ file ∈ files, placeOf grammarPath ≠ placeOf directory ++ [file.name]) →
      generate t' grammarPath directory name debug = (t', .ok ())) :
    Leaves t grammarPath directory name debug t' (.ok ())

/-- Artifacts that were generated are generated again without any change, unless one of them is
put in the place of the description. -/
theorem generate_again (hread : t.readText grammarPath = .ok source)
    (hrender : render source name debug = .ok files)
    (hmake : t.makeDirectories (FileTree.ancestors directory) = (t₁, .ok ()))
    (hwrite : writeAll t₁ directory files = (t', .ok ()))
    (hother : ∀ file ∈ files, placeOf grammarPath ≠ placeOf directory ++ [file.name]) :
    generate t' grammarPath directory name debug = (t', .ok ()) := by
  have hplain := isPlain_of_render hrender
  have hdistinct := nodup_of_render hrender
  have hreceives := receives_of_writeAll hplain hdistinct hmake hwrite
  have hgrows : t.Grows t₁ (OnTheWay directory) := by
    have := FileTree.grows_ancestors t directory
    rwa [hmake] at this
  have hkeeps₁ : t₁.KeepsDirectories t' := keepsDirectories_writeAll hwrite
  have hkeeps : t.KeepsDirectories t' := fun q hq => hkeeps₁ q (hgrows.keepsDirectories q hq)
  -- a text is no directory, so the description is not on the way to the output
  have hway : ¬OnTheWay directory (placeOf grammarPath) := by
    intro hway
    obtain ⟨-, -, -, -, hthere⟩ := FileTree.readText_ok hread
    rcases (hreceives.made _ hway).2 with hbefore | hbefore <;> simp [hbefore] at hthere
  have hread' : t'.readText grammarPath = .ok source :=
    FileTree.readText_again hread hkeeps (hreceives.others _ hway hother)
  have hwrite' : writeAll t' directory files = (t', .ok ()) :=
    writeAll_again fun file hfile => (written_writeAll hplain hdistinct hwrite hfile).2.2
  rw [generate_eq, hread']
  dsimp only
  rw [hrender]
  dsimp only
  rw [FileTree.makeDirectories_again hmake hkeeps₁]
  exact hwrite'

/-- Generation leaves a tree as it was unless all artifacts can be made, and else it leaves the
output directory with all of them, or with those before the first one that cannot be written. -/
theorem leaves_generate (t : FileTree) (grammarPath directory name : String) (debug : Bool) :
    Leaves t grammarPath directory name debug (generate t grammarPath directory name debug).1
      (generate t grammarPath directory name debug).2 := by
  rw [generate_eq]
  split
  next reason hread => exact .unread hread
  next source hread =>
    split
    next reason hrender => exact .unrendered hread hrender
    next files hrender =>
      obtain ⟨names, hnames, hfiles⟩ := render_ok hrender
      have hplain := isPlain_of_render hrender
      have hdistinct := nodup_of_render hrender
      split
      next t₁ reason hmake =>
        have hgrows := FileTree.grows_ancestors t directory
        rw [hmake] at hgrows
        exact .unmade hread hrender hmake hgrows
      next t₁ hmake =>
        rcases hwrite : writeAll t₁ directory files with ⟨t', e | u⟩
        · obtain ⟨done, file, rest, reason, rfl, hdone, hfail, rfl⟩ := writeAll_error hwrite
          have hreceives : Receives t directory done t' := by
            refine receives_of_writeAll (fun f hf => hplain f ?_) ?_ hmake hdone
            · exact List.mem_append_left _ hf
            · rw [List.map_append] at hdistinct
              exact hdistinct.sublist (List.sublist_append_left _ _)
          exact .unwritten hread hrender hnames hfiles hreceives hfail
        · exact .written hread hrender hnames hfiles
            (receives_of_writeAll hplain hdistinct hmake hwrite)
            (generate_again hread hrender hmake hwrite)

/-- A file that cannot be written, here for a directory of its name, leaves directories that were
made on the way to it. -/
theorem directory_left_without_files :
    let t : FileTree := ⟨[(["g.rdg"], .text "start s; s returns [r: ()] : eps ;"),
      (["out"], .directory), (["out", "t_tokens.rs"], .directory)]⟩
    generate t "g.rdg" "new/../out" "t" false =
        (⟨t.entries ++ [(["new"], .directory)]⟩,
          .error (.write "new/../out/t_tokens.rs" .isADirectory)) ∧
      t.at? ["new"] = none := by
  decide +kernel

end Descent

import LogCourier.Proofs.FileTree.Addition
import LogCourier.Proofs.FileTree.Names

/-!
# What a path has to do with a tree

Somebody who knows one path reads the file there, or makes the directories that it needs and writes
it. This file says of how little of the tree that takes notice, and how little it changes.

What is **read** depends on where the path starts, on what is seen on the way, and on the bytes of
the file at its end. Two trees that are alike in these (`LogCourier.FileTree.Alike`) give the same
answer (`LogCourier.FileTree.Alike.readText_eq`).

What is **changed** is told by the tree afterwards (`LogCourier.FileTree.Touched`): all that was
there is there, what is new is the file at the path or a directory above it, and only the file at
the path has other bytes. Where directories are made one after the other each of them is found by
the path that it was made for (`LogCourier.FileTree.Built.exists_part`), so nothing is new that was
not asked for.
-/

namespace LogCourier

namespace FileTree

variable {t t' t'' : FileTree} {path : String}

/-! ### What is read -/

/-- **Two trees that are alike on the way of a path**, and where it leads. -/
structure Alike (t : FileTree) (path : String) (t' : FileTree) : Prop where
  /-- The path starts in the same place. -/
  start : (t'.startOf path).location = (t.startOf path).location
  /-- Wherever one looks on the way, one sees the same. -/
  sight?_eq : ∀ place ∈ t.places path, t'.sight? place = t.sight? place
  /-- The file at the end, if there is one, has the same bytes. -/
  content_eq : ∀ number, t.stat path = .ok (.file number) → t'.content number = t.content number

namespace Alike

/-- A path leads to the same. -/
theorem map_sight_stat_eq (h : t.Alike path t') :
    (t'.stat path).map Node.sight = (t.stat path).map Node.sight := by
  rw [map_sight_stat, map_sight_stat]
  cases hcheck : checkPath path with
  | error e => rfl
  | ok _ =>
    have hsee : ∀ place ∈ (lead t.sight? .find linkLimit (t.startOf path).location
        (pathNames path)).places, t'.sight? place = t.sight? place := by
      intro place hplace
      refine h.sight?_eq place ?_
      simp only [places, hcheck]
      exact hplace
    have hlead := lead_congr hsee
    simp only [Except.bind]
    rw [h.start, hlead]
    cases hanswer : (lead t.sight? .find linkLimit (t.startOf path).location
        (pathNames path)).answer with
    | error e => rfl
    | ok loc =>
      -- going up one comes to directories at which one has not looked
      have hend : t'.sight? loc = t.sight? loc := by
        have hanswer' := hanswer
        rw [← hlead, ← h.start] at hanswer'
        rcases mem_places_of_answer t.isTree_sight? (t.sight?_startOf path) hanswer with
          hdir | hmem
        · rcases mem_places_of_answer t'.isTree_sight? (t'.sight?_startOf path) hanswer' with
            hdir' | hmem'
          · rw [hdir, hdir']
          · rw [h.start, hlead] at hmem'
            exact hsee loc hmem'
        · exact hsee loc hmem
      simp only [sighted, bind, Except.bind, hend]

theorem pathExists_eq (h : t.Alike path t') : t'.pathExists path = t.pathExists path := by
  have hstat := h.map_sight_stat_eq
  rw [pathExists, pathExists]
  cases ht : t.stat path <;> cases ht' : t'.stat path <;> simp_all [Except.map, Except.toOption]

/-- **The same is read.** -/
theorem readFile_eq (h : t.Alike path t') : t'.readFile path = t.readFile path := by
  have hopen : t'.openFile path = t.openFile path := by
    rw [FileTree.openFile_eq, FileTree.openFile_eq, h.map_sight_stat_eq]
  rw [readFile, readFile, hopen]
  cases hfile : t.openFile path with
  | error e => rfl
  | ok f =>
    simp only [bind, Except.bind]
    cases hnumber : f.number? with
    | none => rfl
    | some number => simp only [h.content_eq number (stat_of_openFile hfile hnumber)]

theorem readText_eq (h : t.Alike path t') : t'.readText path = t.readText path := by
  rw [readText, readText, h.readFile_eq]

end Alike

/-! ### What is changed -/

/-- **A tree in which somebody was busy with a path**: the file there may have been written, and
directories may have been made that it needs. -/
structure Touched (t : FileTree) (path : String) (t' : FileTree) : Prop extends Extends t t' where
  /-- What is new is a directory to which a path above leads, or the file. -/
  new : ∀ loc sight, t.sight? loc = none → t'.sight? loc = some sight →
    (sight = .directory ∧ ∃ part ∈ above path, t'.resolve .find part = .ok loc) ∨
    ((∃ number, sight = .file number) ∧ t'.resolve .find path = .ok loc)
  /-- All other files have the bytes that they had. -/
  content_eq : ∀ number, t'.stat path ≠ .ok (.file number) → t'.content number = t.content number

theorem Touched.refl (t : FileTree) (path : String) : t.Touched path t where
  toExtends := .refl t
  new := fun _ _ hnone hsight => absurd (hnone.symm.trans hsight) (by simp)
  content_eq := fun _ _ => rfl

/-! ### Directories that are made one after the other -/

/-- **A tree in which directories were made**, one after the other, each for one of some paths. -/
inductive Built (parts : List String) : FileTree → FileTree → Prop
  /-- None yet. -/
  | nothing (t : FileTree) : Built parts t t
  /-- One, and then the others. -/
  | first {t t' t'' : FileTree} {part : String} (hpart : part ∈ parts)
      (hmake : t.makeDirectory part = .ok t') (hrest : Built parts t' t'') : Built parts t t''

namespace Built

variable {parts : List String}

theorem one {part : String} (hpart : part ∈ parts) (h : t.makeDirectory part = .ok t') :
    Built parts t t' :=
  .first hpart h (.nothing t')

theorem trans (h : Built parts t t') (h' : Built parts t' t'') : Built parts t t'' := by
  induction h with
  | nothing => exact h'
  | first hpart hmake _ ih => exact .first hpart hmake (ih h')

theorem grown (h : Built parts t t') (hhome : t.sight? t.workingDirectory = some .directory) :
    t.Grown t' := by
  induction h with
  | nothing t => exact .refl t
  | first _ hmake _ ih =>
    obtain ⟨hgrown, -⟩ := grown_of_makeDirectory hhome hmake
    exact hgrown.trans (ih (hgrown.home hhome))

/-- **What is new is found by one of the paths.** -/
theorem exists_part (h : Built parts t t')
    (hhome : t.sight? t.workingDirectory = some .directory) {loc : Location}
    (hnone : t.sight? loc = none) (hsome : t'.sight? loc ≠ none) :
    ∃ part ∈ parts, t'.resolve .find part = .ok loc := by
  induction h with
  | nothing t => exact absurd hnone hsome
  | @first t t' t'' part hpart hmake hrest ih =>
    obtain ⟨place, hmade⟩ := exists_madeAt hhome hmake
    have hhome' := hmade.grown.home hhome
    by_cases hloc : loc = place
    · rw [hloc]
      exact ⟨part, hpart, (hrest.grown hhome').resolve_find hhome' hmade.found⟩
    · exact ih hhome' (by rw [hmade.sight?_eq, if_neg hloc, hnone]) hsome

/-- So it is a directory that was asked for. -/
theorem new (h : Built parts t t') (hhome : t.sight? t.workingDirectory = some .directory)
    {loc : Location} {sight : Sight} (hnone : t.sight? loc = none)
    (hsight : t'.sight? loc = some sight) :
    sight = .directory ∧ ∃ part ∈ parts, t'.resolve .find part = .ok loc := by
  refine ⟨?_, h.exists_part hhome hnone (by simp [hsight])⟩
  rcases (h.grown hhome).made loc hnone with hnone' | hdir
  · exact absurd (hnone'.symm.trans hsight) (by simp)
  · exact Option.some.inj (hsight.symm.trans hdir)

end Built

/-- Whether all of them could be made or not. -/
theorem built_makeDirectories {parts : List String} (t : FileTree) {paths : List String}
    (h : ∀ path ∈ paths, path ∈ parts) : Built parts t (t.makeDirectories paths).2 := by
  have hsettle (t : FileTree) {path : String} (hpath : path ∈ parts) :
      Built parts t (makeDirectories.settle t path (t.makeDirectory path)).2 := by
    cases hmake : t.makeDirectory path with
    | ok t' => exact .one hpath hmake
    | error e => exact .nothing t
  induction paths with
  | nil => exact .nothing t
  | cons path above ih =>
    have hpath := h path List.mem_cons_self
    have habove := ih fun other hother => h other (List.mem_cons_of_mem path hother)
    rw [makeDirectories]
    cases hmake : t.makeDirectory path with
    | ok t' => exact .one hpath hmake
    | error e =>
      simp only []
      split
      · cases hresult : t.makeDirectories above with
        | mk result t' =>
          rw [hresult] at habove
          cases result with
          | error e => exact habove
          | ok _ => exact habove.trans (hsettle t' hpath)
      · exact .nothing t

/-- Who makes directories for a path is busy with it. -/
theorem touched_of_built (hhome : t.sight? t.workingDirectory = some .directory)
    (h : Built (above path) t t') : t.Touched path t' where
  toExtends := (h.grown hhome).toExtends
  new := fun _ _ hnone hsight => .inl (h.new hhome hnone hsight)
  content_eq := fun number _ => by rw [content, content, (h.grown hhome).contents_eq]

/-- So is who writes the file after that. -/
theorem touched_of_written (hhome : t.sight? t.workingDirectory = some .directory)
    (h : Built (above path) t t') {bs : Bytes} {loc : Location} {number : Nat}
    (hwritten : t'.WrittenAt path bs loc number t'') : t.Touched path t'' where
  toExtends := (h.grown hhome).toExtends.trans hwritten.extends
  new := fun other sight hnone hsight => by
    rw [hwritten.sight?_eq] at hsight
    split at hsight
    · rename_i heq
      exact .inr ⟨⟨number, (Option.some.inj hsight).symm⟩, by rw [heq, hwritten.found _ (by simp)]⟩
    · obtain ⟨hdir, part, hpart, hlead⟩ := h.new hhome hnone hsight
      have hhome' := (h.grown hhome).home hhome
      exact .inl ⟨hdir, part, hpart, hwritten.extends.resolve_find hhome' hlead⟩
  content_eq := fun n hn => by
    have hne : n ≠ number := by
      rintro rfl
      exact hn hwritten.stat
    rw [content, content, ← (h.grown hhome).contents_eq, List.getD_eq_getElem?_getD,
      List.getD_eq_getElem?_getD, hwritten.getElem?_contents_of_ne n hne]

end FileTree

end LogCourier

import LogCourier.FileTree
import Mathlib.Data.List.DropRight
import Mathlib.Data.String.Basic

/-!
# The names of a path

A path is split at its slashes by a function that counts bytes. Here it is said by characters
(`LogCourier.pathNames_eq`), so that what is put together from names falls apart into the same
names.

Then there is what a path has to do with the directory that it is in, and with those above that.
The directory part of a path is a piece of its text, and the text may say one thing in many ways:
`a//b/.` is `a/b`. **What they have in common are the names that lead on**
(`LogCourier.FileTree.steps`): a path has those of its directory part and one more, and starts in
the same place (`LogCourier.FileTree.steps_of_parentPath?`). So the paths for which directories are
made on the way to a file all lead to where the path to the file itself comes by
(`LogCourier.FileTree.steps_of_mem_above`).
-/

namespace LogCourier

/-! ### Text that is split -/

section Split

open String

/-- A split at slashes that has come so far: `l` is done, and `m` belongs to the next piece. -/
theorem splitOnAux_slash (l m r : List Char) (done : List String) :
    (ofList (l ++ m ++ r)).splitOnAux "/" ⟨utf8Len l⟩ ⟨utf8Len l + utf8Len m⟩ 0 done =
      done.reverse ++ (List.splitOnPPrepend (· == '/') r m.reverse).map ofList := by
  induction r generalizing l m done with
  | nil =>
    have hend : Pos.Raw.atEnd (ofList (l ++ m ++ [])) ⟨utf8Len l + utf8Len m⟩ = true := by
      rw [← utf8Len_append]
      exact (atEnd_of_valid (l ++ m) []).mpr rfl
    rw [splitOnAux, if_pos hend, extract_of_valid]
    simp
  | cons c r ih =>
    have hend : ¬ Pos.Raw.atEnd (ofList (l ++ m ++ c :: r)) ⟨utf8Len l + utf8Len m⟩ = true := by
      rw [← utf8Len_append, atEnd_of_valid (l ++ m) (c :: r)]
      simp
    have hget : Pos.Raw.get (ofList (l ++ m ++ c :: r)) ⟨utf8Len l + utf8Len m⟩ = c := by
      rw [← utf8Len_append]
      exact get_of_valid (l ++ m) (c :: r)
    have hnext : Pos.Raw.next (ofList (l ++ m ++ c :: r)) ⟨utf8Len l + utf8Len m⟩ =
        ⟨utf8Len l + utf8Len m + c.utf8Size⟩ := by
      rw [← utf8Len_append]
      exact next_of_valid (l ++ m) c r
    have hslash : Pos.Raw.get "/" 0 = '/' := by decide
    have hhere : Pos.Raw.unoffsetBy ⟨utf8Len l + utf8Len m⟩ 0 = ⟨utf8Len l + utf8Len m⟩ := rfl
    rw [splitOnAux, if_neg hend, hget, hslash, List.splitOnPPrepend_cons_eq_if, hhere, hnext]
    by_cases hc : c = '/'
    · subst hc
      have hone : Pos.Raw.next "/" 0 = ⟨1⟩ := by decide
      have hlast : Pos.Raw.atEnd "/" ⟨1⟩ = true := by decide
      have hsize : '/'.utf8Size = 1 := by decide
      have hback : Pos.Raw.unoffsetBy ⟨utf8Len l + utf8Len m + 1⟩ ⟨1⟩ =
          ⟨utf8Len l + utf8Len m⟩ := rfl
      simp only [beq_self_eq_true, if_true, hone, hlast, hsize, hback, extract_of_valid]
      have hrest := ih (l ++ m ++ ['/']) [] (ofList m :: done)
      simp only [List.append_assoc, utf8Len_append, utf8Len_cons, utf8Len_nil,
        List.singleton_append, hsize] at hrest
      simpa [Nat.add_assoc] using hrest
    · rw [if_neg (by simpa using hc), if_neg (by simpa using hc)]
      have hrest := ih l (m ++ [c]) done
      simpa [Nat.add_assoc] using hrest

/-- **The names of a path are what stands between its slashes.** -/
theorem pathNames_eq (path : String) :
    pathNames path = (path.toList.splitOn '/').map ofList := by
  have h := splitOnAux_slash [] [] path.toList []
  rw [pathNames, splitOn, if_neg (by decide), List.splitOn_eq_splitOnP]
  simpa using h

/-- Nothing that stands between slashes has one. -/
theorem slash_notMem_of_mem_splitOn {l piece : List Char} (h : piece ∈ l.splitOn '/') :
    '/' ∉ piece := by
  rw [List.splitOn_eq_splitOnP] at h
  induction l generalizing piece with
  | nil =>
    rw [List.splitOnP_nil, List.mem_singleton] at h
    simp [h]
  | cons c l ih =>
    rw [List.splitOnP_cons_eq_if_modifyHead] at h
    split at h
    · rcases List.mem_cons.mp h with rfl | h
      · simp
      · exact ih h
    · rename_i hc
      cases hsplit : l.splitOnP (· == '/') with
      | nil => simp [hsplit] at h
      | cons first others =>
        rw [hsplit, List.modifyHead_cons] at h
        rw [hsplit] at ih
        rcases List.mem_cons.mp h with rfl | h
        · intro hmem
          rcases List.mem_cons.mp hmem with rfl | hmem
          · exact hc (by simp)
          · exact ih List.mem_cons_self hmem
        · exact ih (List.mem_cons_of_mem _ h)

end Split

/-- Two paths with a slash between them have the names of both. -/
theorem pathNames_append_slash (front back : String) :
    pathNames (front ++ "/" ++ back) = pathNames front ++ pathNames back := by
  have hslash : (front ++ "/" ++ back).toList = front.toList ++ '/' :: back.toList := by simp
  rw [pathNames_eq, pathNames_eq, pathNames_eq, hslash, List.splitOn_append_cons_self,
    List.map_append]

/-- Names of a path that are put together again are the names of what comes of it. -/
theorem pathNames_intercalate {path : String} {names more : List String}
    (h : pathNames path = names ++ more) (hne : names ≠ []) :
    pathNames ("/".intercalate names) = names := by
  have hslash : ∀ piece ∈ names.map String.toList, '/' ∉ piece := by
    intro piece hpiece
    obtain ⟨name, hname, rfl⟩ := List.mem_map.mp hpiece
    have hmem : name ∈ pathNames path := h ▸ List.mem_append_left more hname
    rw [pathNames_eq] at hmem
    obtain ⟨piece, hsplit, rfl⟩ := List.mem_map.mp hmem
    rw [String.toList_ofList]
    exact slash_notMem_of_mem_splitOn hsplit
  rw [pathNames_eq, String.toList_intercalate, show "/".toList = ['/'] from rfl,
    List.splitOn_intercalate '/' hslash (by simpa using hne), List.map_map]
  simp [Function.comp_def]

/-- A path starts at the root if its first name is empty, and not the only one. -/
theorem isAbsolute_iff (path : String) :
    isAbsolute path = true ↔ ∃ name names, pathNames path = "" :: name :: names := by
  have hjoin : ['/'].intercalate (path.toList.splitOn '/') = path.toList :=
    List.intercalate_splitOn '/'
  rw [isAbsolute, decide_eq_true_eq, pathNames_eq]
  cases hsplit : path.toList.splitOn '/' with
  | nil => exact absurd hsplit (List.splitOn_ne_nil _ _)
  | cons piece pieces =>
    rw [hsplit] at hjoin
    have hpiece : '/' ∉ piece := slash_notMem_of_mem_splitOn (hsplit ▸ List.mem_cons_self)
    cases pieces with
    | nil =>
      rw [List.intercalate_singleton] at hjoin
      rw [← hjoin]
      constructor
      · intro h
        exact absurd (List.mem_of_head? h) hpiece
      · rintro ⟨name, names, h⟩
        exact absurd h (by simp)
    | cons next pieces =>
      rw [List.intercalate_cons_cons] at hjoin
      rw [← hjoin]
      cases piece with
      | nil => simp
      | cons c piece =>
        have hc : c ≠ '/' := by
          rintro rfl
          exact hpiece List.mem_cons_self
        simp [hc]

namespace FileTree

/-! ### Names that lead on -/

/-- The names that do not stay where they are. -/
def steps (names : List String) : List String :=
  names.filter fun name => !isIdle name

theorem steps_append (front back : List String) :
    steps (front ++ back) = steps front ++ steps back :=
  List.filter_append ..

theorem steps_cons_of_idle {name : String} (h : isIdle name = true) (names : List String) :
    steps (name :: names) = steps names :=
  List.filter_cons_of_neg (by simp [h])

theorem steps_cons {name : String} (h : isIdle name = false) (names : List String) :
    steps (name :: names) = name :: steps names :=
  List.filter_cons_of_pos (by simp [h])

theorem steps_eq_nil_iff {names : List String} :
    steps names = [] ↔ ∀ name ∈ names, isIdle name = true := by
  simp [steps]

/-- Without the idle names that end them, names lead on as they do with them. -/
theorem exists_dropIdleEnd (names : List String) :
    ∃ idle, names = dropIdleEnd names ++ idle ∧ steps idle = [] := by
  refine ⟨names.rtakeWhile isIdle, (List.rdropWhile_append_rtakeWhile ..).symm, ?_⟩
  exact steps_eq_nil_iff.mpr fun name hname => List.mem_rtakeWhile_imp hname

/-- **Up to the last that leads on, names lead on once less.** -/
theorem exists_dropLast {names : List String} (h : dropIdleEnd names ≠ []) :
    ∃ more last, names = dropIdleEnd (dropIdleEnd names).dropLast ++ more ∧
      steps names = steps (dropIdleEnd (dropIdleEnd names).dropLast) ++ [last] := by
  obtain ⟨idle, hnames, hidle⟩ := exists_dropIdleEnd names
  obtain ⟨idle', hfront, hidle'⟩ := exists_dropIdleEnd (dropIdleEnd names).dropLast
  have hlast : isIdle ((dropIdleEnd names).getLast h) = false :=
    Bool.eq_false_iff.mpr (List.rdropWhile_last_not isIdle names h)
  have hwhole := (List.dropLast_append_getLast h).symm
  generalize dropIdleEnd (dropIdleEnd names).dropLast = front at hfront ⊢
  generalize (dropIdleEnd names).getLast h = last at hlast hwhole
  rw [hfront] at hwhole
  rw [hwhole] at hnames
  refine ⟨idle' ++ [last] ++ idle, last, by simpa using hnames, ?_⟩
  rw [hnames]
  simp only [steps_append, hidle, hidle', steps_cons hlast, List.append_nil]
  rfl

/-! ### The directory part of a path -/

/-- What a path may begin with that counts by itself. -/
theorem splitStart_cases (path : String) :
    (∃ rest, splitStart path = ("/", rest) ∧ path = "" ++ "/" ++ rest) ∨
    (splitStart path = (".", "") ∧ path = ".") ∨
    (∃ rest, splitStart path = (".", "" ++ "/" ++ rest) ∧ path = "." ++ "/" ++ rest) ∨
    (splitStart path = ("", path) ∧ isAbsolute path = false) := by
  unfold splitStart
  split
  · rename_i rest h
    refine .inl ⟨String.ofList rest, rfl, String.toList_injective ?_⟩
    simp [h]
  · rename_i h
    exact .inr (.inl ⟨rfl, String.toList_injective (by simp [h])⟩)
  · rename_i rest h
    refine .inr (.inr (.inl ⟨String.ofList rest, ?_, String.toList_injective (by simp [h])⟩))
    exact congrArg _ (String.toList_injective (by simp))
  · rename_i hslash _ _
    refine .inr (.inr (.inr ⟨rfl, ?_⟩))
    rw [isAbsolute, decide_eq_false_iff_not]
    cases h : path.toList with
    | nil => simp
    | cons c rest =>
      rintro heq
      obtain rfl := Option.some.inj heq
      exact hslash rest h

/-- Names of a path that are put together again lead on as they do. -/
theorem steps_pathNames_intercalate {path : String} {names more : List String}
    (h : pathNames path = names ++ more) :
    steps (pathNames ("/".intercalate names)) = steps names := by
  cases names with
  | nil => simp [pathNames_eq, steps, isIdle]
  | cons name names => rw [pathNames_intercalate h (List.cons_ne_nil name names)]

/-- The directory part of a path is what it begins with, and the names but for the last. -/
theorem parentPath?_eq_some {path parent : String} (h : parentPath? path = some parent)
    (hparent : parent ≠ "") : ∃ names more last,
      parent = (splitStart path).1 ++ "/".intercalate names ∧
      pathNames (splitStart path).2 = names ++ more ∧
      dropIdleEnd names = names ∧
      steps (pathNames (splitStart path).2) = steps names ++ [last] := by
  simp only [parentPath?] at h
  split at h
  · split at h
    · exact absurd (Option.some.inj h).symm hparent
    · exact absurd h (by simp)
  · rename_i hnames
    have hne : dropIdleEnd (pathNames (splitStart path).2) ≠ [] := fun hnil => hnames hnil
    obtain ⟨more, last, hmore, hlast⟩ := exists_dropLast hne
    exact ⟨_, more, last, (Option.some.inj h).symm, hmore, List.rdropWhile_idempotent .., hlast⟩

theorem steps_pathNames_append_slash (front back : String) :
    steps (pathNames (front ++ "/" ++ back)) =
      steps (pathNames front) ++ steps (pathNames back) := by
  rw [pathNames_append_slash, steps_append]

theorem steps_pathNames_empty : steps (pathNames "") = [] := by
  simp [pathNames_eq, steps, isIdle]

theorem steps_pathNames_dot : steps (pathNames ".") = [] := by
  simp [pathNames_eq, List.splitOn_eq_splitOnP, List.splitOnP_cons_eq_if_modifyHead, steps, isIdle]

/-- **A path starts where its directory part does, and leads on once more.** -/
theorem steps_of_parentPath? {path parent : String} (h : parentPath? path = some parent)
    (hparent : parent ≠ "") : isAbsolute parent = isAbsolute path ∧
      ∃ last, steps (pathNames path) = steps (pathNames parent) ++ [last] := by
  obtain ⟨names, more, last, hjoin, hnames, hend, hsteps⟩ := parentPath?_eq_some h hparent
  have hjoined := steps_pathNames_intercalate hnames
  rcases splitStart_cases path with ⟨rest, hstart, hpath⟩ | ⟨hstart, -⟩ | ⟨rest, hstart, hpath⟩ |
    ⟨hstart, hrelative⟩
  · rw [hstart] at hjoin hsteps
    have hslash : parent = "" ++ "/" ++ "/".intercalate names := by simpa using hjoin
    refine ⟨by simp [hslash, hpath, isAbsolute], last, ?_⟩
    rw [hslash, hpath, steps_pathNames_append_slash, steps_pathNames_append_slash, hjoined, hsteps,
      List.append_assoc]
  · rw [hstart, steps_pathNames_empty] at hsteps
    exact absurd hsteps.symm (by simp)
  · rw [hstart] at hjoin hnames hsteps
    rw [steps_pathNames_append_slash, steps_pathNames_empty, List.nil_append] at hsteps
    rw [pathNames_append_slash, show pathNames "" = [""] by simp [pathNames_eq]] at hnames
    refine ⟨by simp [hjoin, hpath, isAbsolute], last, ?_⟩
    rw [hpath, steps_pathNames_append_slash, steps_pathNames_dot, List.nil_append, hsteps]
    -- behind the dot there is a slash, unless the dot is all there is
    cases names with
    | nil =>
      have hdot : parent = "." := by simpa using hjoin
      rw [hdot, steps_pathNames_dot]
      rfl
    | cons name names =>
      obtain ⟨rfl, hrest⟩ := List.cons.inj hnames
      cases names with
      | nil => exact absurd hend (by simp [dropIdleEnd, isIdle])
      | cons next names =>
        have hslash : parent = "." ++ "/" ++ "/".intercalate (next :: names) := by
          rw [hjoin, String.intercalate_cons_cons, String.empty_append, ← String.append_assoc]
        rw [hslash, steps_pathNames_append_slash, steps_pathNames_dot, List.nil_append,
          steps_pathNames_intercalate hrest, steps_cons_of_idle (by simp [isIdle])]
  · rw [hstart] at hjoin hnames hsteps
    rw [String.empty_append] at hjoin
    refine ⟨?_, last, by rw [hsteps, hjoin, hjoined]⟩
    rw [hrelative, ← Bool.not_eq_true, isAbsolute_iff]
    rintro ⟨name, others, habsolute⟩
    have hne : names ≠ [] := by
      rintro rfl
      exact hparent (by simpa using hjoin)
    rw [hjoin, pathNames_intercalate hnames hne] at habsolute
    rw [habsolute] at hnames
    exact absurd ((isAbsolute_iff path).mpr ⟨_, _, hnames⟩) (by simp [hrelative])

/-- **A path starts where those above it do, and leads on from there.** -/
theorem steps_of_mem_ancestors {path part : String} (h : part ∈ ancestors path) :
    isAbsolute part = isAbsolute path ∧
      ∃ more, steps (pathNames path) = steps (pathNames part) ++ more := by
  rw [ancestors] at h
  generalize path.length = fuel at h
  induction fuel generalizing path with
  | zero => exact absurd h (by simp [ancestors.go])
  | succ fuel ih =>
    rw [ancestors.go] at h
    split at h
    · exact absurd h (by simp)
    rcases List.mem_cons.mp h with rfl | h
    · exact ⟨rfl, [], (List.append_nil _).symm⟩
    cases hparent : parentPath? path with
    | none => simp [hparent] at h
    | some parent =>
      simp only [hparent] at h
      obtain ⟨hstart, more, hmore⟩ := ih h
      have hne : parent ≠ "" := by
        rintro rfl
        cases fuel <;> simp [ancestors.go] at h
      obtain ⟨hstart', last, hlast⟩ := steps_of_parentPath? hparent hne
      exact ⟨hstart.trans hstart', more ++ [last], by rw [hlast, hmore, List.append_assoc]⟩

/-- The paths of the directories that the file at a path needs, the nearest first. -/
def above (path : String) : List String :=
  match parentPath? path with
  | some parent => ancestors parent
  | none => []

/-- **A path starts where the directories do that it needs, and leads on from each of them.** -/
theorem steps_of_mem_above {path part : String} (h : part ∈ above path) :
    isAbsolute part = isAbsolute path ∧
      ∃ more last, steps (pathNames path) = steps (pathNames part) ++ (more ++ [last]) := by
  rw [above] at h
  split at h
  · rename_i parent hparent
    obtain ⟨hstart, more, hmore⟩ := steps_of_mem_ancestors h
    have hne : parent ≠ "" := by
      rintro rfl
      exact absurd h (by simp [ancestors, ancestors.go])
    obtain ⟨hstart', last, hlast⟩ := steps_of_parentPath? hparent hne
    exact ⟨hstart.trans hstart', more, last, by rw [hlast, hmore, List.append_assoc]⟩
  · exact absurd h (by simp)

end FileTree

end LogCourier

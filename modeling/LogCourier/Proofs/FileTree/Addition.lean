import LogCourier.Proofs.FileTree.Removal

/-!
# What is added to a tree

A file is written, and before that the directories are made that it needs. This file says what a
tree shows afterwards.

What is added stands where nothing was, so whoever has found something finds it as before
(`LogCourier.FileTree.Extends.stat`). **What has been made or written is found by the path that was
given for it** (`LogCourier.FileTree.grown_of_makeDirectory`,
`LogCourier.FileTree.written_of_writeFile`), although it was looked up differently: when a directory
is made a link at the end of the path is not followed, and there need not be anything at the end
when a file is written.

Either is done in one place, and what is seen in all others is what was seen before
(`LogCourier.FileTree.MadeAt`, `LogCourier.FileTree.WrittenAt`). Everything else follows from that.

The subtle point is where a path starts. A working directory that is not there is as good as the
nearest one above it, and as soon as it is made all relative paths mean something else. So a tree
has to have its working directory (`LogCourier.FileTree.Sound`), as that of a running program does
unless somebody removes it.
-/

namespace LogCourier

namespace FileTree

section Lead

variable {see see' : Location → Option Sight} {purpose : Purpose} {links : Nat}
  {loc y : Location} {names : List String}

/-! ### Paths that lead somewhere -/

/-- Names lead where they do without the idle ones before them. -/
theorem lead_idle_append (h : ∀ name ∈ names, isIdle name = true) (more : List String) :
    lead see purpose links loc (names ++ more) = lead see purpose links loc more := by
  induction names with
  | nil => rfl
  | cons name names ih =>
    have hskip : skip purpose loc name (names ++ more) = some (.ok loc) := by
      rw [skip, if_pos (h name List.mem_cons_self)]
    rw [List.cons_append, lead_of_skip_ok hskip, ih fun n hn => h n (List.mem_cons_of_mem _ hn)]

/-- Idle names lead nowhere else. -/
theorem lead_of_idle (h : ∀ name ∈ names, isIdle name = true) :
    lead see purpose links loc names = ⟨[], .ok loc⟩ := by
  rw [← List.append_nil names, lead_idle_append h, lead_nil]

/-- **On the way of a path that leads somewhere there is something everywhere.** -/
theorem ne_none_of_mem_places (h : (lead see .find links loc names).answer = .ok y)
    {place : Location} (hmem : place ∈ (lead see .find links loc names).places) :
    see place ≠ none := by
  fun_induction lead see .find links loc names with
  | case1 links loc => exact absurd hmem (by simp)
  | case2 links loc name rest loc' hskip ih => exact ih h hmem
  | case3 links loc name rest e hskip => exact absurd h (by simp)
  | case4 links loc name rest hskip hturn ih =>
    rcases List.mem_cons.mp hmem with rfl | hmem
    · simp [turn_eq_on_iff.mp hturn]
    · exact ih h hmem
  | case5 loc name rest hskip target hturn => exact absurd h (by simp)
  | case6 loc name rest hskip target hturn links ih =>
    rcases List.mem_cons.mp hmem with rfl | hmem
    · simp [turn_find_eq_via_iff.mp hturn]
    · exact ih h hmem
  | case7 links loc name rest hskip answer hturn =>
    obtain rfl := List.mem_singleton.mp hmem
    rcases turn_find_eq_stop hturn with ⟨number, hsee, -⟩ | ⟨-, rfl⟩
    · simp [hsee]
    · exact absurd h (by simp)

/-- And there is something where it leads. -/
theorem ne_none_of_answer (htree : IsTree see) (hloc : see loc = some .directory)
    (h : (lead see .find links loc names).answer = .ok y) : see y ≠ none := by
  rcases mem_places_of_answer htree hloc h with hdir | hmem
  · simp [hdir]
  · exact ne_none_of_mem_places h hmem

/-- So it leads there if there is more elsewhere. -/
theorem lead_of_kept (hkept : ∀ place sight, see place = some sight → see' place = some sight)
    (h : (lead see .find links loc names).answer = .ok y) :
    lead see' .find links loc names = lead see .find links loc names := by
  refine lead_congr fun place hplace => ?_
  obtain ⟨sight, hsight⟩ := Option.ne_none_iff_exists'.mp (ne_none_of_mem_places h hplace)
  rw [hsight, hkept place sight hsight]

/-- What is there for one who looks is there for one who wants the name. -/
theorem exists_lead_name (hloc : see loc = some .directory) (htree : IsTree see)
    (h : (lead see .find links loc names).answer = .ok y) :
    ∃ x, (lead see .name links loc names).answer = .ok x ∧ see x ≠ none := by
  fun_induction lead see .find links loc names with
  | case1 links loc => exact ⟨loc, by rw [lead_nil], by simp [hloc]⟩
  | case2 links loc name rest loc' hskip ih =>
    rw [← @skip_eq_skip_find .name (by simp) loc name rest rest] at hskip
    rw [lead_of_skip_ok hskip]
    exact ih (htree.of_skip hloc hskip) h
  | case3 links loc name rest e hskip => exact absurd h (by simp)
  | case4 links loc name rest hskip hturn ih =>
    have hsee := turn_eq_on_iff.mp hturn
    rw [← @skip_eq_skip_find .name (by simp) loc name rest rest] at hskip
    rw [lead_of_on hskip (turn_eq_on_iff.mpr hsee)]
    exact ih hsee h
  | case5 loc name rest hskip target hturn => exact absurd h (by simp)
  | case6 loc name rest hskip target hturn links ih =>
    have hsee := turn_find_eq_via_iff.mp hturn
    rw [← @skip_eq_skip_find .name (by simp) loc name rest rest] at hskip
    by_cases hlast : rest.all (· = "") ∧ Purpose.name = .name
    · have hturn' : turn .name (loc ++ [name]) rest (see (loc ++ [name])) =
          .stop (.ok (loc ++ [name])) := by
        rw [hsee, turn, if_pos hlast]
      rw [lead_of_stop hskip hturn']
      exact ⟨_, rfl, by simp [hsee]⟩
    · have hturn' : turn .name (loc ++ [name]) rest (see (loc ++ [name])) = .via target := by
        rw [hsee, turn, if_neg hlast]
      rw [lead_of_via hskip hturn']
      exact ih (htree.of_relay hloc target) h
  | case7 links loc name rest hskip answer hturn =>
    rw [← @skip_eq_skip_find .name (by simp) loc name rest rest] at hskip
    rcases turn_find_eq_stop hturn with ⟨number, hsee, ⟨rfl, rfl⟩ | ⟨-, rfl⟩⟩ | ⟨-, rfl⟩
    · have hturn' : turn .name (loc ++ [name]) [] (see (loc ++ [name])) =
          .stop (.ok (loc ++ [name])) := by
        rw [hsee, turn, if_pos (.inl rfl)]
      rw [lead_of_stop hskip hturn']
      exact ⟨_, rfl, by simp [hsee]⟩
    · exact absurd h (by simp)
    · exact absurd h (by simp)

/-- **Up to its last name such a path leads to a directory.** -/
theorem exists_lead_front {front rest : List String} {last : String}
    (h : (lead see .find links loc (front ++ last :: rest)).answer = .ok y) :
    ∃ z, (lead see .find links loc (front ++ [""])).answer = .ok z := by
  have hidle (links : Nat) (loc : Location) : (lead see .find links loc [""]).answer = .ok loc := by
    rw [lead_of_idle (by simp [isIdle])]
  generalize hnames : front ++ last :: rest = names at h
  fun_induction lead see .find links loc names generalizing front with
  | case1 links loc => exact absurd hnames (by simp)
  | case2 links loc name names loc' hskip ih =>
    cases front with
    | nil => exact ⟨loc, hidle links loc⟩
    | cons key front =>
      obtain ⟨rfl, hrest⟩ := List.cons.inj hnames
      rw [skip_eq_skip_find (by simp) loc key names (front ++ [""])] at hskip
      rw [List.cons_append, lead_of_skip_ok hskip]
      exact ih hrest h
  | case3 links loc name names e hskip => exact absurd h (by simp)
  | case4 links loc name names hskip hturn ih =>
    cases front with
    | nil => exact ⟨loc, hidle links loc⟩
    | cons key front =>
      obtain ⟨rfl, hrest⟩ := List.cons.inj hnames
      rw [skip_eq_skip_find (by simp) loc key names (front ++ [""])] at hskip
      rw [List.cons_append, lead_of_on hskip (turn_eq_on_iff.mpr (turn_eq_on_iff.mp hturn))]
      exact ih hrest h
  | case5 loc name names hskip target hturn => exact absurd h (by simp)
  | case6 loc name names hskip target hturn links ih =>
    cases front with
    | nil => exact ⟨loc, hidle _ loc⟩
    | cons key front =>
      obtain ⟨rfl, hrest⟩ := List.cons.inj hnames
      rw [skip_eq_skip_find (by simp) loc key names (front ++ [""])] at hskip
      rw [List.cons_append,
        lead_of_via hskip (turn_find_eq_via_iff.mpr (turn_find_eq_via_iff.mp hturn)),
        ← List.append_assoc]
      have hnames' : (pathNames target ++ front) ++ last :: rest = pathNames target ++ names := by
        rw [List.append_assoc]
        exact congrArg (pathNames target ++ ·) hrest
      exact ih hnames' h
  | case7 links loc name names hskip answer hturn =>
    cases front with
    | nil => exact ⟨loc, hidle links loc⟩
    | cons key front =>
      obtain ⟨rfl, hrest⟩ := List.cons.inj hnames
      rcases turn_find_eq_stop hturn with ⟨number, hsee, ⟨rfl, -⟩ | ⟨-, rfl⟩⟩ | ⟨-, rfl⟩
      · exact absurd hrest (by simp)
      · exact absurd h (by simp)
      · exact absurd h (by simp)

/-! ### Paths that end in nothing -/

/-- A walk that stops in peace stops at the place that was looked at. -/
theorem eq_of_turn_eq_stop {place : Location} {rest : List String} {sight? : Option Sight}
    (h : turn purpose place rest sight? = .stop (.ok y)) : y = place := by
  cases sight? with
  | none =>
    simp only [turn] at h
    split at h
    · exact (Except.ok.inj (Turn.stop.inj h)).symm
    · exact absurd h (by simp)
  | some sight =>
    cases sight with
    | directory => exact absurd h (by simp [turn])
    | link target =>
      simp only [turn] at h
      split at h
      · exact (Except.ok.inj (Turn.stop.inj h)).symm
      · exact absurd h (by simp)
    | file number =>
      simp only [turn] at h
      split at h
      · exact (Except.ok.inj (Turn.stop.inj h)).symm
      · exact absurd h (by simp)

/-- A walk goes on along a link where there is one. -/
theorem eq_of_turn_eq_via {place : Location} {rest : List String} {sight? : Option Sight}
    {target : String} (h : turn purpose place rest sight? = .via target) :
    sight? = some (.link target) := by
  cases sight? with
  | none =>
    simp only [turn] at h
    split at h <;> exact absurd h (by simp)
  | some sight =>
    cases sight with
    | directory => exact absurd h (by simp [turn])
    | link other =>
      simp only [turn] at h
      split at h
      · exact absurd h (by simp)
      · rw [Turn.via.inj h]
    | file number =>
      simp only [turn] at h
      split at h <;> exact absurd h (by simp)

/-- A name that is skipped by one who writes, or is not, is so by everyone. -/
theorem skip_eq_skip_write {name : String} {rest : List String}
    (h : skip .write loc name rest ≠ some (.error .isDirectory)) :
    skip purpose loc name rest = skip .write loc name rest := by
  unfold skip at h ⊢
  split
  · rfl
  split
  · rfl
  rename_i hidle hup
  rw [if_neg hidle, if_neg hup] at h
  have hwrite : ¬ (Purpose.write = .write ∧ rest.all (· = "") ∧ rest ≠ []) :=
    fun hwrite => h (if_pos hwrite)
  rw [if_neg hwrite, if_neg fun hpurpose => hwrite ⟨rfl, hpurpose.2⟩]

/-- Who writes stops at the last name and nowhere else. -/
theorem eq_nil_of_write {name : String} {rest : List String} {place : Location}
    {sight? : Option Sight} (hskip : skip .write loc name rest = none)
    (hturn : turn .write place rest sight? = .stop (.ok y)) : rest = [] := by
  have hlast (hall : rest.all (· = "") = true) : rest = [] := by
    unfold skip at hskip
    split at hskip
    · exact absurd hskip (by simp)
    split at hskip
    · exact absurd hskip (by simp)
    split at hskip
    · exact absurd hskip (by simp)
    rename_i hwrite
    exact Decidable.byContradiction fun hrest => hwrite ⟨rfl, hall, hrest⟩
  cases sight? with
  | none =>
    simp only [turn] at hturn
    split at hturn
    · rename_i hend
      exact hlast hend.1
    · exact absurd hturn (by simp)
  | some sight =>
    cases sight with
    | directory => exact absurd hturn (by simp [turn])
    | link target => simp [turn] at hturn
    | file number =>
      simp only [turn] at hturn
      split at hturn
      · rename_i hend
        exact hend.resolve_right fun h => absurd h.2 (by simp)
      · exact absurd hturn (by simp)

/-- **Where a path leads there is something, or at least a directory for it to be in.** -/
theorem exists_parent_of_answer (htree : IsTree see) (hloc : see loc = some .directory)
    (h : (lead see purpose links loc names).answer = .ok y) (hy : see y = none) :
    ∃ front name, y = front ++ [name] ∧ see front = some .directory := by
  fun_induction lead see purpose links loc names with
  | case1 links loc =>
    rw [← Except.ok.inj h, hloc] at hy
    exact absurd hy (by simp)
  | case2 links loc name rest loc' hskip ih => exact ih (htree.of_skip hloc hskip) h
  | case3 links loc name rest e hskip => exact absurd h (by simp)
  | case4 links loc name rest hskip hturn ih => exact ih (turn_eq_on_iff.mp hturn) h
  | case5 loc name rest hskip target hturn => exact absurd h (by simp)
  | case6 loc name rest hskip target hturn links ih => exact ih (htree.of_relay hloc target) h
  | case7 links loc name rest hskip answer hturn =>
    obtain rfl : answer = .ok y := h
    exact ⟨loc, name, eq_of_turn_eq_stop hturn, hloc⟩

/-- A directory that is made where a path leads is found there. -/
theorem lead_find_of_made (htree : IsTree see) (hloc : see loc = some .directory)
    (hkept : ∀ place sight, see place = some sight → see' place = some sight)
    (hy : see y = none) (hy' : see' y = some .directory)
    (h : (lead see .name links loc names).answer = .ok y) :
    (lead see' .find links loc names).answer = .ok y := by
  fun_induction lead see .name links loc names with
  | case1 links loc => rw [lead_nil, Except.ok.inj h]
  | case2 links loc name rest loc' hskip ih =>
    rw [skip_eq_skip_find (by simp) loc name rest rest] at hskip
    rw [lead_of_skip_ok hskip]
    exact ih (htree.of_skip hloc hskip) h
  | case3 links loc name rest e hskip => exact absurd h (by simp)
  | case4 links loc name rest hskip hturn ih =>
    have hsee := turn_eq_on_iff.mp hturn
    rw [skip_eq_skip_find (by simp) loc name rest rest] at hskip
    rw [lead_of_on hskip (turn_eq_on_iff.mpr (hkept _ _ hsee))]
    exact ih hsee h
  | case5 loc name rest hskip target hturn => exact absurd h (by simp)
  | case6 loc name rest hskip target hturn links ih =>
    have hsee := eq_of_turn_eq_via hturn
    rw [skip_eq_skip_find (by simp) loc name rest rest] at hskip
    rw [lead_of_via hskip (turn_find_eq_via_iff.mpr (hkept _ _ hsee))]
    exact ih (htree.of_relay hloc target) h
  | case7 links loc name rest hskip answer hturn =>
    obtain rfl : answer = .ok y := h
    obtain rfl := eq_of_turn_eq_stop hturn
    have hlast : ∀ n ∈ rest, isIdle n = true := by
      rw [hy] at hturn
      simp only [turn] at hturn
      split at hturn
      · rename_i hend
        intro n hn
        simp [isIdle, of_decide_eq_true (List.all_eq_true.mp hend.1 n hn)]
      · exact absurd hturn (by simp)
    rw [skip_eq_skip_find (by simp) loc name rest rest] at hskip
    rw [lead_of_on hskip (turn_eq_on_iff.mpr hy'), lead_of_idle hlast]
    rfl

/-- **A file that is written where a path leads is found there**, and it can be written again. -/
theorem lead_of_written (hpurpose : purpose ≠ .name) (htree : IsTree see)
    (hloc : see loc = some .directory) {number : Nat}
    (hkept : ∀ place sight, see place = some sight → see' place = some sight)
    (hy : see y = none ∨ see y = some (.file number)) (hy' : see' y = some (.file number))
    (h : (lead see .write links loc names).answer = .ok y) :
    (lead see' purpose links loc names).answer = .ok y := by
  fun_induction lead see .write links loc names with
  | case1 links loc =>
    rw [← Except.ok.inj h, hloc] at hy
    exact absurd hy (by simp)
  | case2 links loc name rest loc' hskip ih =>
    rw [← @skip_eq_skip_write purpose loc name rest (by simp [hskip])] at hskip
    rw [lead_of_skip_ok hskip]
    exact ih (htree.of_skip hloc hskip) h
  | case3 links loc name rest e hskip => exact absurd h (by simp)
  | case4 links loc name rest hskip hturn ih =>
    have hsee := turn_eq_on_iff.mp hturn
    rw [← @skip_eq_skip_write purpose loc name rest (by simp [hskip])] at hskip
    rw [lead_of_on hskip (turn_eq_on_iff.mpr (hkept _ _ hsee))]
    exact ih hsee h
  | case5 loc name rest hskip target hturn => exact absurd h (by simp)
  | case6 loc name rest hskip target hturn links ih =>
    have hsee := hkept _ _ (eq_of_turn_eq_via hturn)
    rw [← @skip_eq_skip_write purpose loc name rest (by simp [hskip])] at hskip
    have hturn' : turn purpose (loc ++ [name]) rest (see' (loc ++ [name])) = .via target := by
      rw [hsee, turn, if_neg fun hend => hpurpose hend.2]
    rw [lead_of_via hskip hturn']
    exact ih (htree.of_relay hloc target) h
  | case7 links loc name rest hskip answer hturn =>
    obtain rfl : answer = .ok y := h
    obtain rfl := eq_of_turn_eq_stop hturn
    obtain rfl := eq_nil_of_write hskip hturn
    rw [← @skip_eq_skip_write purpose loc name [] (by simp [hskip])] at hskip
    have hturn' : turn purpose (loc ++ [name]) [] (see' (loc ++ [name])) =
        .stop (.ok (loc ++ [name])) := by
      rw [hy', turn, if_pos (.inl rfl)]
    rw [lead_of_stop hskip hturn']

end Lead

/-! ### Trees with more in them -/

/-- **A tree in which nothing is amiss**: its working directory is there, and so are the bytes of
its files. -/
structure Sound (t : FileTree) : Prop where
  /-- Relative paths start in a directory. -/
  home : t.sight? t.workingDirectory = some .directory
  /-- The number of a file is one of those that have bytes. -/
  numbered : ∀ loc number, t.sight? loc = some (.file number) → number < t.contents.length

theorem sound_empty : empty.Sound := by
  refine ⟨rfl, fun loc number h => ?_⟩
  cases loc with
  | nil => exact absurd h (by simp [sight?, node?, Directory.node?, Node.sight])
  | cons name loc => exact absurd h (by simp [sight?, node?, Directory.node?, empty])

/-- In a tree with one file nothing is amiss. -/
theorem sound_insertFile (name : String) (bs : Bytes) : (empty.insertFile [name] bs).Sound where
  home := rfl
  numbered := fun loc number h => by
    have hsee : (empty.insertFile [name] bs).sight? loc =
        if loc = [name] then some (.file 0) else empty.sight? loc :=
      @sight?_set empty [] name (some (.file 0)) rfl
        (by simp [sight?, node?, Directory.node?, empty]) (by simp [Node.inside]) loc
    rw [hsee] at h
    split at h
    · obtain rfl := Sight.file.inj (Option.some.inj h)
      exact Nat.one_pos
    · exact absurd (sound_empty.numbered _ _ h) (Nat.not_lt_zero _)

/-- **The tree with more in it**, and all that was there is there. -/
structure Extends (t t' : FileTree) : Prop where
  /-- What is seen is seen again. -/
  kept : ∀ loc sight, t.sight? loc = some sight → t'.sight? loc = some sight
  /-- Relative paths start in the same place. -/
  workingDirectory_eq : t'.workingDirectory = t.workingDirectory

/-- **The tree with more directories in it**, and with the same files. -/
structure Grown (t t' : FileTree) : Prop extends Extends t t' where
  /-- Where there was nothing there is nothing, or a directory. -/
  made : ∀ loc, t.sight? loc = none → t'.sight? loc = none ∨ t'.sight? loc = some .directory
  /-- The files have the same bytes. -/
  contents_eq : t'.contents = t.contents

variable {t t' t'' : FileTree} {path : String}

/-- A file is seen where there is one. -/
theorem node?_eq_file_iff {loc : Location} {number : Nat} :
    t.node? loc = some (.file number) ↔ t.sight? loc = some (.file number) := by
  rw [sight?]
  cases t.node? loc with
  | none => simp
  | some n => cases n <;> simp [Node.sight]

/-- The bytes of a file are read where a path leads to it. -/
theorem readFile_eq_ok_iff {bs : Bytes} : t.readFile path = .ok bs ↔
    ∃ number, (t.stat path).map Node.sight = .ok (.file number) ∧ t.content number = bs := by
  rw [readFile, openFile_eq]
  cases t.stat path with
  | error e => simp [Except.map, bind, Except.bind]
  | ok n => cases n <;> simp [Except.map, bind, Except.bind, Node.sight]

/-- A path that leads to a location has a text that nothing is wrong with. -/
theorem resolve_eq_ok_iff {purpose : Purpose} {loc : Location} :
    t.resolve purpose path = .ok loc ↔ checkPath path = .ok () ∧
      (lead t.sight? purpose linkLimit (t.startOf path).location (pathNames path)).answer =
        .ok loc := by
  rw [resolve_eq]
  cases checkPath path <;> simp [Except.bind]

/-- One gets all the way to a directory. -/
theorem trail_of_directory {see : Location → Option Sight} (htree : IsTree see)
    (loc : Location) {rest : Location} (h : see (loc ++ rest) = some .directory) :
    trail see loc rest = loc ++ rest := by
  induction rest generalizing loc with
  | nil => rw [trail, List.append_nil]
  | cons name rest ih =>
    rw [List.append_cons] at h ⊢
    have hname : see (loc ++ [name]) = some .directory := by
      cases rest with
      | nil => rwa [List.append_nil] at h
      | cons next rest =>
        exact htree.directory_of_append (List.cons_ne_nil next rest)
          fun hnone => absurd (hnone.symm.trans h) (by simp)
    rw [trail, if_pos hname, ih _ h]

namespace Extends

theorem refl (t : FileTree) : t.Extends t :=
  ⟨fun _ _ h => h, rfl⟩

theorem trans (h : t.Extends t') (h' : t'.Extends t'') : t.Extends t'' :=
  ⟨fun loc sight hsight => h'.kept loc sight (h.kept loc sight hsight),
    h'.workingDirectory_eq.trans h.workingDirectory_eq⟩

/-- A path starts where it did. -/
theorem location_startOf_eq (h : t.Extends t')
    (hhome : t.sight? t.workingDirectory = some .directory) (path : String) :
    (t'.startOf path).location = (t.startOf path).location := by
  have hhome' := h.kept _ _ hhome
  rw [location_startOf, location_startOf, h.workingDirectory_eq,
    trail_of_directory t.isTree_sight? [] hhome, trail_of_directory t'.isTree_sight? [] hhome']

/-- **What a path leads to it leads to again.** -/
theorem stat (h : t.Extends t') (hhome : t.sight? t.workingDirectory = some .directory)
    {sight : Sight} (hstat : (t.stat path).map Node.sight = .ok sight) :
    (t'.stat path).map Node.sight = .ok sight := by
  obtain ⟨hcheck, loc, hloc, hanswer⟩ := checkPath_of_stat hstat
  rw [map_sight_stat, hcheck, h.location_startOf_eq hhome, lead_of_kept h.kept hanswer, hanswer]
  simp only [Except.bind, sighted, bind, h.kept loc sight hloc]

/-- Who looks for something finds it again. -/
theorem resolve_find (h : t.Extends t') (hhome : t.sight? t.workingDirectory = some .directory)
    {loc : Location} (hresolve : t.resolve .find path = .ok loc) :
    t'.resolve .find path = .ok loc := by
  obtain ⟨hcheck, hanswer⟩ := resolve_eq_ok_iff.mp hresolve
  rw [resolve_eq_ok_iff, h.location_startOf_eq hhome, lead_of_kept h.kept hanswer]
  exact ⟨hcheck, hanswer⟩

end Extends

/-- What is put where nothing was hides nothing. -/
theorem extends_of_sight?_eq {loc : Location} {sight : Sight} (hnone : t.sight? loc = none)
    (hsee : ∀ other, t'.sight? other = if other = loc then some sight else t.sight? other)
    (hworking : t'.workingDirectory = t.workingDirectory) : t.Extends t' where
  kept := fun other sight hsight => by
    rw [hsee, if_neg, hsight]
    rintro rfl
    exact absurd (hnone.symm.trans hsight) (by simp)
  workingDirectory_eq := hworking

namespace Grown

theorem refl (t : FileTree) : t.Grown t :=
  ⟨.refl t, fun _ h => .inl h, rfl⟩

theorem trans (h : t.Grown t') (h' : t'.Grown t'') : t.Grown t'' where
  toExtends := h.toExtends.trans h'.toExtends
  made := fun loc hnone => (h.made loc hnone).elim (h'.made loc)
    fun hdir => .inr (h'.kept loc _ hdir)
  contents_eq := h'.contents_eq.trans h.contents_eq

theorem home (h : t.Grown t') (hhome : t.sight? t.workingDirectory = some .directory) :
    t'.sight? t'.workingDirectory = some .directory := by
  rw [h.workingDirectory_eq]
  exact h.kept _ _ hhome

/-- The files are where they were. -/
theorem sight?_eq_file_iff (h : t.Grown t') {loc : Location} {number : Nat} :
    t'.sight? loc = some (.file number) ↔ t.sight? loc = some (.file number) := by
  refine ⟨fun hfile => ?_, h.kept loc _⟩
  cases hsight : t.sight? loc with
  | none =>
    rcases h.made loc hsight with hnone | hdir
    · exact absurd (hnone.symm.trans hfile) (by simp)
    · exact absurd (hdir.symm.trans hfile) (by simp)
  | some sight => rw [← h.kept loc sight hsight, hfile]

theorem sound (h : t.Grown t') (hsound : t.Sound) : t'.Sound where
  home := h.home hsound.home
  numbered := fun loc number hfile => by
    rw [h.contents_eq]
    exact hsound.numbered loc number (h.sight?_eq_file_iff.mp hfile)

/-- **A file is read as before.** -/
theorem readFile (h : t.Grown t') (hsound : t.Sound) {bs : Bytes}
    (hread : t.readFile path = .ok bs) : t'.readFile path = .ok bs := by
  obtain ⟨number, hstat, rfl⟩ := readFile_eq_ok_iff.mp hread
  refine readFile_eq_ok_iff.mpr ⟨number, h.stat hsound.home hstat, ?_⟩
  rw [content, content, h.contents_eq]

end Grown

/-! ### Making directories -/

theorem isDirectory_iff :
    t.isDirectory path = true ↔ (t.stat path).map Node.sight = .ok .directory := by
  rw [isDirectory]
  cases t.stat path with
  | error e => simp [Except.map, Except.toOption]
  | ok n => cases n <;> simp [Except.map, Except.toOption, Node.sight, Node.isDirectory]

/-- A path has only slashes behind its last name. -/
theorem exists_pathNames_eq (path : String) :
    ∃ rest, pathNames path = trimmedNames path ++ rest := by
  refine ⟨((pathNames path).reverse.takeWhile (· = "")).reverse, ?_⟩
  rw [trimmedNames, ← List.reverse_append, List.takeWhile_append_dropWhile, List.reverse_reverse]

/-- The directory above what a path leads to is there. -/
theorem checkParent_of_stat {sight : Sight} (h : (t.stat path).map Node.sight = .ok sight) :
    t.checkParent path = .ok () := by
  obtain ⟨hcheck, loc, -, hanswer⟩ := checkPath_of_stat h
  obtain ⟨z, hz⟩ : ∃ z, (lead t.sight? .find linkLimit (t.startOf path).location
      ((trimmedNames path).dropLast ++ [""])).answer = .ok z := by
    obtain ⟨rest, hnames⟩ := exists_pathNames_eq path
    rcases List.eq_nil_or_concat (trimmedNames path) with hnil | ⟨front, last, hconcat⟩
    · rw [hnil, lead_of_idle (by simp [isIdle])]
      exact ⟨_, rfl⟩
    · rw [List.concat_eq_append] at hconcat
      rw [hnames, hconcat, List.append_assoc] at hanswer
      rw [hconcat, List.dropLast_concat]
      exact exists_lead_front hanswer
  rw [checkParent, hcheck, walk_eq_lead (t.stands_startOf path), hz]
  rfl

/-- **A directory that is there is not made again.** -/
theorem makeDirectory_of_isDirectory (h : t.isDirectory path = true) :
    t.makeDirectory path = .error .fileExists := by
  have hstat := isDirectory_iff.mp h
  obtain ⟨hcheck, loc, -, hanswer⟩ := checkPath_of_stat hstat
  rw [makeDirectory]
  split
  · obtain ⟨x, hx, hsome⟩ :=
      exists_lead_name (t.sight?_startOf path) t.isTree_sight? hanswer
    have hresolve : t.resolve .name path = .ok x := by
      rw [resolve_eq, hcheck]
      exact hx
    obtain ⟨n, hn⟩ := Option.ne_none_iff_exists'.mp fun hnone =>
      hsome (Option.map_eq_none_iff.mpr hnone)
    simp only [hresolve, bind, Except.bind, hn]
  · rw [checkParent_of_stat hstat]
    rfl

/-- A directory is made where a path leads, if there is nothing. -/
theorem makeDirectory_eq_ok (h : t.makeDirectory path = .ok t') :
    ∃ loc, t.resolve .name path = .ok loc ∧ t.sight? loc = none ∧
      t' = t.insert loc (.directory []) := by
  rw [makeDirectory] at h
  split at h
  · cases hresolve : t.resolve .name path with
    | error e =>
      simp only [hresolve, bind, Except.bind] at h
      exact absurd h (by simp)
    | ok loc =>
      simp only [hresolve, bind, Except.bind] at h
      cases hnode : t.node? loc with
      | some n =>
        simp only [hnode] at h
        exact absurd h (by simp)
      | none =>
        simp only [hnode, Except.ok.injEq] at h
        exact ⟨loc, rfl, by rw [sight?, hnode, Option.map_none], h.symm⟩
  · simp only [bind, Except.bind] at h
    split at h <;> exact absurd h (by simp)

/-- **A directory that is made at a location**, by the path that was given for it. -/
structure MadeAt (t : FileTree) (path : String) (loc : Location) (t' : FileTree) : Prop where
  /-- There was nothing. -/
  missing : t.sight? loc = none
  /-- It is found there. -/
  found : t'.resolve .find path = .ok loc
  /-- Elsewhere one sees what one saw. -/
  sight?_eq : ∀ other, t'.sight? other = if other = loc then some .directory else t.sight? other
  /-- The files have the same bytes. -/
  contents_eq : t'.contents = t.contents
  /-- Relative paths start in the same place. -/
  workingDirectory_eq : t'.workingDirectory = t.workingDirectory

/-- A directory is made at a location. -/
theorem exists_madeAt (hhome : t.sight? t.workingDirectory = some .directory)
    (h : t.makeDirectory path = .ok t') : ∃ loc, t.MadeAt path loc t' := by
  obtain ⟨loc, hresolve, hnone, rfl⟩ := makeDirectory_eq_ok h
  obtain ⟨hcheck, hanswer⟩ := resolve_eq_ok_iff.mp hresolve
  obtain ⟨front, name, rfl, hfront⟩ :=
    exists_parent_of_answer t.isTree_sight? (t.sight?_startOf path) hanswer hnone
  have hsee (other : Location) : (t.insert (front ++ [name]) (.directory [])).sight? other =
      if other = front ++ [name] then some .directory else t.sight? other :=
    sight?_set hfront (by simp [hnone]) (by simp [Node.inside, Directory.inside]) other
  have hextends : t.Extends (t.insert (front ++ [name]) (.directory [])) :=
    extends_of_sight?_eq hnone hsee rfl
  refine ⟨_, hnone, ?_, hsee, rfl, rfl⟩
  rw [resolve_eq_ok_iff, hextends.location_startOf_eq hhome]
  exact ⟨hcheck, lead_find_of_made t.isTree_sight? (t.sight?_startOf path) hextends.kept hnone
    (by rw [hsee, if_pos rfl]) hanswer⟩

theorem MadeAt.grown {loc : Location} (h : t.MadeAt path loc t') : t.Grown t' where
  toExtends := extends_of_sight?_eq h.missing h.sight?_eq h.workingDirectory_eq
  made := fun other hother => by
    rw [h.sight?_eq]
    split
    · exact .inr rfl
    · exact .inl hother
  contents_eq := h.contents_eq

/-- **A directory that is made is found**, and nothing else is made. -/
theorem grown_of_makeDirectory (hhome : t.sight? t.workingDirectory = some .directory)
    (h : t.makeDirectory path = .ok t') : t.Grown t' ∧ t'.isDirectory path = true := by
  obtain ⟨loc, hmade⟩ := exists_madeAt hhome h
  obtain ⟨hcheck, hanswer⟩ := resolve_eq_ok_iff.mp hmade.found
  refine ⟨hmade.grown, isDirectory_iff.mpr ?_⟩
  rw [map_sight_stat, hcheck, hanswer]
  simp only [Except.bind, sighted, bind, hmade.sight?_eq, if_true]

/-- Where a directory is there or was made, it is there. -/
theorem grown_of_settle (path : String) (hhome : t.sight? t.workingDirectory = some .directory) :
    t.Grown (makeDirectories.settle t path (t.makeDirectory path)).2 ∧
      ((makeDirectories.settle t path (t.makeDirectory path)).1 = .ok () →
        (makeDirectories.settle t path (t.makeDirectory path)).2.isDirectory path = true) := by
  cases hmake : t.makeDirectory path with
  | ok t' => 
    obtain ⟨hgrown, hdir⟩ := grown_of_makeDirectory hhome hmake
    exact ⟨hgrown, fun _ => hdir⟩
  | error e =>
    refine ⟨.refl t, fun h => ?_⟩
    simp only [makeDirectories.settle] at h
    split at h
    · rename_i hdir
      exact hdir
    · exact absurd h (by simp)

/-- **Directories are made and nothing else**, and those that are asked for are there in the end. -/
theorem grown_of_makeDirectories (hhome : t.sight? t.workingDirectory = some .directory)
    (paths : List String) :
    t.Grown (t.makeDirectories paths).2 ∧ ((t.makeDirectories paths).1 = .ok () →
      ∀ path ∈ paths.head?, (t.makeDirectories paths).2.isDirectory path = true) := by
  induction paths generalizing t with
  | nil => exact ⟨.refl t, fun _ path h => absurd h (by simp)⟩
  | cons path above ih =>
    simp only [List.head?_cons, Option.mem_some_iff, forall_eq']
    have hsettle := grown_of_settle path hhome
    rw [makeDirectories]
    cases hmake : t.makeDirectory path with
    | ok t' =>
      obtain ⟨hgrown, hdir⟩ := grown_of_makeDirectory hhome hmake
      exact ⟨hgrown, fun _ => hdir⟩
    | error e =>
      rw [hmake] at hsettle
      simp only []
      split
      · obtain ⟨hgrown, -⟩ := ih hhome
        cases habove : t.makeDirectories above with
        | mk result t' =>
          rw [habove] at hgrown
          cases result with
          | error e => exact ⟨hgrown, fun h => absurd h (by simp)⟩
          | ok _ =>
            obtain ⟨hgrown', hdir⟩ := grown_of_settle path (hgrown.home hhome)
            exact ⟨hgrown.trans hgrown', hdir⟩
      · exact hsettle

/-- A directory that is there is not made again, and neither is what is above it. -/
theorem makeDirectories_of_isDirectory (h : t.isDirectory path = true) (above : List String) :
    t.makeDirectories (path :: above) = (.ok (), t) := by
  rw [makeDirectories, makeDirectory_of_isDirectory h]
  simp only [makeDirectories.settle, h, if_true]
  rw [if_neg (by decide)]

/-- The longest of the directory parts of a path is the path, unless it is empty. -/
theorem ancestors_eq (path : String) :
    ancestors path = [] ∨ ∃ above, ancestors path = path :: above := by
  rw [ancestors]
  cases path.length with
  | zero => exact .inl rfl
  | succ fuel =>
    rw [ancestors.go]
    split
    · exact .inl rfl
    · exact .inr ⟨_, rfl⟩

/-- **Making a directory once is as good as twice**, also if other things were added meanwhile. -/
theorem makeDirectoryAll_again (hhome : t.sight? t.workingDirectory = some .directory)
    (h : t.makeDirectoryAll path = (.ok (), t')) (hmore : t'.Extends t'') :
    t''.makeDirectoryAll path = (.ok (), t'') := by
  rw [makeDirectoryAll] at h ⊢
  obtain ⟨hgrown, hdir⟩ := grown_of_makeDirectories hhome (ancestors path)
  rw [h] at hgrown hdir
  rcases ancestors_eq path with hnil | ⟨above, hcons⟩
  · rw [hnil, makeDirectories]
  · rw [hcons] at hdir ⊢
    exact makeDirectories_of_isDirectory (isDirectory_iff.mpr
      (hmore.stat (hgrown.home hhome) (isDirectory_iff.mp (hdir rfl path rfl)))) above

/-! ### Writing files -/

theorem content_eq {number : Nat} {bs : Bytes} (h : t.contents[number]? = some bs) :
    t.content number = bs := by
  rw [content, List.getD_eq_getElem?_getD, h, Option.getD_some]

/-- Where a file is written there is one of that number afterwards, with those bytes. -/
theorem writeFile_eq_ok {bs : Bytes} (h : t.writeFile path bs = .ok t') :
    ∃ loc number, t.resolve .write path = .ok loc ∧
      ((t.sight? loc = some (.file number) ∧ t' = t.setContent number bs) ∨
        (t.sight? loc = none ∧ number = t.contents.length ∧ t' = t.insertFile loc bs)) := by
  rw [writeFile] at h
  cases hresolve : t.resolve .write path with
  | error e =>
    simp only [hresolve, bind, Except.bind] at h
    exact absurd h (by simp)
  | ok loc =>
    simp only [hresolve, bind, Except.bind] at h
    cases hnode : t.node? loc with
    | none =>
      simp only [hnode, Except.ok.injEq] at h
      exact ⟨loc, _, rfl, .inr ⟨by rw [sight?, hnode, Option.map_none], rfl, h.symm⟩⟩
    | some n =>
      cases n with
      | file number =>
        simp only [hnode, Except.ok.injEq] at h
        exact ⟨loc, number, rfl, .inl ⟨by rw [sight?, hnode]; rfl, h.symm⟩⟩
      | directory entries | link target =>
        simp only [hnode] at h
        exact absurd h (by simp)

/-- **What can be written with some bytes can be written with any.** -/
theorem exists_writeFile {bs : Bytes} (h : t.writeFile path bs = .ok t') (bs' : Bytes) :
    ∃ t'', t.writeFile path bs' = .ok t'' := by
  obtain ⟨loc, number, hresolve, ⟨hsight, -⟩ | ⟨hsight, -⟩⟩ := writeFile_eq_ok h
  · have hnode := node?_eq_file_iff.mpr hsight
    exact ⟨t.setContent number bs', by simp only [writeFile, hresolve, bind, Except.bind, hnode]⟩
  · have hnode := Option.map_eq_none_iff.mp hsight
    exact ⟨t.insertFile loc bs', by simp only [writeFile, hresolve, bind, Except.bind, hnode]⟩

/-- **A file that is written at a location**, by the path that was given for it. -/
structure WrittenAt (t : FileTree) (path : String) (bs : Bytes) (loc : Location) (number : Nat)
    (t' : FileTree) : Prop where
  /-- The path led there. -/
  led : t.resolve .write path = .ok loc
  /-- There was nothing, or the file. -/
  before : t.sight? loc = none ∨ t.sight? loc = some (.file number)
  /-- It is found there, also to be written again. -/
  found : ∀ purpose, purpose ≠ .name → t'.resolve purpose path = .ok loc
  /-- Elsewhere one sees what one saw. -/
  sight?_eq : ∀ other, t'.sight? other =
    if other = loc then some (.file number) else t.sight? other
  /-- It has those bytes. -/
  getElem?_contents : t'.contents[number]? = some bs
  /-- The other files have the same bytes. -/
  getElem?_contents_of_ne : ∀ n, n ≠ number → t'.contents[n]? = t.contents[n]?
  /-- A file that is new comes behind the others. -/
  new : t.sight? loc = none → number = t.contents.length ∧ t'.contents = t.contents ++ [bs]
  /-- Relative paths start in the same place. -/
  workingDirectory_eq : t'.workingDirectory = t.workingDirectory

theorem WrittenAt.extends {bs : Bytes} {loc : Location} {number : Nat}
    (h : t.WrittenAt path bs loc number t') : t.Extends t' where
  kept := fun other sight hsight => by
    rw [h.sight?_eq]
    split
    · rename_i heq
      subst heq
      rcases h.before with hnone | hfile
      · exact absurd (hnone.symm.trans hsight) (by simp)
      · rw [← hfile, hsight]
    · exact hsight
  workingDirectory_eq := h.workingDirectory_eq

/-- Nothing is amiss afterwards. -/
theorem WrittenAt.sound {bs : Bytes} {loc : Location} {number : Nat}
    (h : t.WrittenAt path bs loc number t') (hsound : t.Sound) : t'.Sound where
  home := by
    rw [h.workingDirectory_eq]
    exact h.extends.kept _ _ hsound.home
  numbered := fun other n hfile => by
    have hlt := (List.getElem?_eq_some_iff.mp h.getElem?_contents).1
    by_cases hn : n = number
    · rwa [hn]
    · rw [h.sight?_eq] at hfile
      split at hfile
      · exact absurd (Sight.file.inj (Option.some.inj hfile)).symm hn
      · have hbefore := List.getElem?_eq_getElem (hsound.numbered other n hfile)
        rw [← h.getElem?_contents_of_ne n hn] at hbefore
        exact (List.getElem?_eq_some_iff.mp hbefore).1

/-- The path leads to the file. -/
theorem WrittenAt.stat {bs : Bytes} {loc : Location} {number : Nat}
    (h : t.WrittenAt path bs loc number t') : t'.stat path = .ok (.file number) := by
  have hnode := node?_eq_file_iff.mpr (show t'.sight? loc = some (.file number) by
    rw [h.sight?_eq, if_pos rfl])
  simp only [FileTree.stat, h.found .find (by simp), bind, Except.bind, hnode]

/-- A file is written at a location. -/
theorem exists_writtenAt (hsound : t.Sound) {bs : Bytes} (h : t.writeFile path bs = .ok t') :
    ∃ loc number, t.WrittenAt path bs loc number t' := by
  obtain ⟨loc, number, hresolve, hcases⟩ := writeFile_eq_ok h
  obtain ⟨hcheck, hanswer⟩ := resolve_eq_ok_iff.mp hresolve
  have hlead (hextends : t.Extends t')
      (hbefore : t.sight? loc = none ∨ t.sight? loc = some (.file number))
      (hfile : t'.sight? loc = some (.file number)) (purpose : Purpose)
      (hpurpose : purpose ≠ .name) : t'.resolve purpose path = .ok loc := by
    rw [resolve_eq_ok_iff, hextends.location_startOf_eq hsound.home]
    exact ⟨hcheck, lead_of_written hpurpose t.isTree_sight? (t.sight?_startOf path) hextends.kept
      hbefore hfile hanswer⟩
  refine ⟨loc, number, ?_⟩
  rcases hcases with ⟨hfile, rfl⟩ | ⟨hnone, rfl, rfl⟩
  · have hlt := hsound.numbered loc number hfile
    have hsee (other : Location) : (t.setContent number bs).sight? other = t.sight? other := rfl
    exact {
      led := hresolve
      before := .inr hfile
      found := hlead ⟨fun _ _ hsight => hsight, rfl⟩ (.inr hfile) hfile
      sight?_eq := fun other => by
        rw [hsee]
        split
        · rename_i heq
          rw [heq, hfile]
        · rfl
      getElem?_contents := by simp [setContent, hlt]
      getElem?_contents_of_ne := fun n hn => List.getElem?_set_ne hn.symm
      new := fun hnone => absurd (hnone.symm.trans hfile) (by simp)
      workingDirectory_eq := rfl }
  · obtain ⟨front, name, rfl, hfront⟩ :=
      exists_parent_of_answer t.isTree_sight? (t.sight?_startOf path) hanswer hnone
    have hsee (other : Location) : (t.insertFile (front ++ [name]) bs).sight? other =
        if other = front ++ [name] then some (.file t.contents.length) else t.sight? other :=
      sight?_set hfront (by simp [hnone]) (by simp [Node.inside]) other
    exact {
      led := hresolve
      before := .inl hnone
      found := hlead (extends_of_sight?_eq hnone hsee rfl) (.inl hnone) (by rw [hsee, if_pos rfl])
      sight?_eq := hsee
      getElem?_contents := by simp [insertFile]
      getElem?_contents_of_ne := fun n hn => by
        rw [insertFile, List.getElem?_append]
        split
        · rfl
        · rename_i hle
          rw [List.getElem?_eq_none (by simp; omega), List.getElem?_eq_none (by omega)]
      new := fun _ => ⟨rfl, rfl⟩
      workingDirectory_eq := rfl }

/-- **A file that is written.** -/
structure Written (t : FileTree) (path : String) (bs : Bytes) (t' : FileTree) : Prop
    extends Extends t t' where
  /-- It is read again. -/
  readFile : t'.readFile path = .ok bs
  /-- Written again it stays as it is. -/
  writeFile : t'.writeFile path bs = .ok t'

/-- **A file that is written is found.** -/
theorem written_of_writeFile (hsound : t.Sound) {bs : Bytes} (h : t.writeFile path bs = .ok t') :
    t.Written path bs t' := by
  obtain ⟨loc, number, hwritten⟩ := exists_writtenAt hsound h
  have hfile : t'.sight? loc = some (.file number) := by rw [hwritten.sight?_eq, if_pos rfl]
  have hnode := node?_eq_file_iff.mpr hfile
  refine ⟨hwritten.extends, readFile_eq_ok_iff.mpr
    ⟨number, ?_, content_eq hwritten.getElem?_contents⟩, ?_⟩
  · rw [hwritten.stat]
    rfl
  · have hsame : t'.setContent number bs = t' := by
      obtain ⟨hlt, heq⟩ := List.getElem?_eq_some_iff.mp hwritten.getElem?_contents
      rw [setContent, ← heq, List.set_getElem_self]
    simp only [FileTree.writeFile, hwritten.found .write (by simp), bind, Except.bind, hnode, hsame]

end FileTree

end LogCourier

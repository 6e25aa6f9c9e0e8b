import LogCourier.Proofs.FileTree.Sight

/-!
# Who notices that a file is removed

Several paths are in use, and one after the other the files that they name are removed. This file
says when the others do not notice: **a path that did not lead by a location leads to the same as
before when that has been removed** (`LogCourier.FileTree.lead_congr`). So what has to be shown is
that paths which name different files do not lead by each other's names.

A file is a dead end. Whoever comes to a file, or to a link that leads to it, comes to that very
file or, with names still to come, to nothing (`LogCourier.FileTree.IsNameOf.endsAt`). So a path
that leads by a name of a file leads to that file, or nowhere.

In the second case the path does notice: if `/f` is a file there is an error for `/f/x`, and another
one when `/f` has been removed. So paths that lead nowhere are only apart from a file if they lead
nowhere in the same way without it (`LogCourier.FileTree.Apart`). **Of paths that are apart, each
opens and removes the same file, whichever of the others have been removed**
(`LogCourier.FileTree.Apart.notMem_places`, `LogCourier.FileTree.Without.openFile_eq`).
-/

namespace LogCourier

namespace FileTree

section Lead

variable {see see' : Location → Option Sight} {purpose : Purpose}

/-! ### What is seen on the way -/

theorem turn_find_eq_via_iff {place : Location} {rest : List String} {sight? : Option Sight}
    {target : String} :
    turn .find place rest sight? = .via target ↔ sight? = some (.link target) := by
  cases sight? with
  | none => simp [turn]
  | some sight =>
    cases sight with
    | directory => simp [turn]
    | link other => simp [turn]
    | file number =>
      simp only [turn]
      split <;> simp

theorem turn_eq_on_iff {place : Location} {rest : List String} {sight? : Option Sight} :
    turn purpose place rest sight? = .on ↔ sight? = some .directory := by
  cases sight? with
  | none =>
    simp only [turn]
    split <;> simp
  | some sight =>
    cases sight with
    | directory => simp [turn]
    | link other =>
      simp only [turn]
      split <;> simp
    | file number =>
      simp only [turn]
      split <;> simp

/-- Who looks for something stops at a file, or where there is nothing. -/
theorem turn_find_eq_stop {place : Location} {rest : List String} {sight? : Option Sight}
    {answer : Except IoError Location} (h : turn .find place rest sight? = .stop answer) :
    (∃ number, sight? = some (.file number) ∧
      ((rest = [] ∧ answer = .ok place) ∨ (rest ≠ [] ∧ answer = .error .notDirectory))) ∨
    (sight? = none ∧ answer = .error .notFound) := by
  cases sight? with
  | none =>
    rw [turn, if_neg (by simp)] at h
    exact .inr ⟨rfl, (Turn.stop.inj h).symm⟩
  | some sight =>
    cases sight with
    | directory => exact absurd h (by simp [turn])
    | link target =>
      rw [turn, if_neg (by simp)] at h
      exact absurd h (by simp)
    | file number =>
      refine .inl ⟨number, rfl, ?_⟩
      by_cases hrest : rest = []
      · rw [turn, if_pos (.inl hrest)] at h
        exact .inl ⟨hrest, (Turn.stop.inj h).symm⟩
      · rw [turn, if_neg (by simp [hrest])] at h
        exact .inr ⟨hrest, (Turn.stop.inj h).symm⟩

/-- Names are skipped whatever comes after them, unless one is about to write. -/
theorem skip_eq_skip_find (h : purpose ≠ .write) (loc : Location) (name : String)
    (rest rest' : List String) : skip purpose loc name rest = skip .find loc name rest' := by
  simp [skip, h]

/-- Skipping a name one stays in a directory. -/
theorem IsTree.of_skip (htree : IsTree see) {loc loc' : Location} {name : String}
    {rest : List String} (hloc : see loc = some .directory)
    (h : skip purpose loc name rest = some (.ok loc')) : see loc' = some .directory := by
  unfold skip at h
  split at h
  · rwa [← Except.ok.inj (Option.some.inj h)]
  split at h
  · rw [← Except.ok.inj (Option.some.inj h)]
    rcases List.eq_nil_or_concat loc with rfl | ⟨front, last, rfl⟩
    · exact hloc
    · rw [List.concat_eq_append] at hloc
      rw [List.concat_eq_append, List.dropLast_concat]
      exact htree.above front last (by simp [hloc])
  split at h
  · exact absurd h (by simp)
  split at h <;> exact absurd h (by simp)

theorem IsTree.of_relay (htree : IsTree see) {loc : Location} (hloc : see loc = some .directory)
    (target : String) : see (relay loc target) = some .directory := by
  rw [relay]
  split
  · exact htree.root
  · exact hloc

/-! ### Looking elsewhere -/

/-- **A walk goes as before if what it looks at is as before.** -/
theorem lead_congr {links : Nat} {loc : Location} {names : List String}
    (h : ∀ place ∈ (lead see purpose links loc names).places, see' place = see place) :
    lead see' purpose links loc names = lead see purpose links loc names := by
  fun_induction lead see purpose links loc names with
  | case1 links loc => exact lead_nil
  | case2 links loc name rest loc' hskip ih => rw [lead_of_skip_ok hskip, ih h]
  | case3 links loc name rest e hskip => exact lead_of_skip_error hskip
  | case4 links loc name rest hskip hturn ih =>
    rw [← h (loc ++ [name]) List.mem_cons_self] at hturn
    rw [lead_of_on hskip hturn, ih fun place hplace => h place (List.mem_cons_of_mem _ hplace)]
  | case5 loc name rest hskip target hturn =>
    rw [← h (loc ++ [name]) List.mem_cons_self] at hturn
    exact lead_of_via_zero hskip hturn
  | case6 loc name rest hskip target hturn links ih =>
    rw [← h (loc ++ [name]) List.mem_cons_self] at hturn
    rw [lead_of_via hskip hturn, ih fun place hplace => h place (List.mem_cons_of_mem _ hplace)]
  | case7 links loc name rest hskip answer hturn =>
    rw [← h (loc ++ [name]) List.mem_cons_self] at hturn
    exact lead_of_stop hskip hturn

/-- A walk that leads by a location comes to nothing if there is nothing any more. -/
theorem lead_of_missing {links : Nat} {loc place : Location} {names : List String}
    (hmem : place ∈ (lead see .find links loc names).places) (hmissing : see' place = none)
    (helse : ∀ other, other ≠ place → see' other = see other) :
    (lead see' .find links loc names).answer = .error .notFound := by
  have hstop (rest : List String) : turn .find place rest (see' place) =
      .stop (.error .notFound) := by
    rw [hmissing, turn, if_neg (by simp)]
  fun_induction lead see .find links loc names with
  | case1 links loc => exact absurd hmem (by simp)
  | case2 links loc name rest loc' hskip ih =>
    rw [lead_of_skip_ok hskip]
    exact ih hmem
  | case3 links loc name rest e hskip => exact absurd hmem (by simp)
  | case4 links loc name rest hskip hturn ih =>
    by_cases hplace : loc ++ [name] = place
    · subst hplace
      rw [lead_of_stop hskip (hstop rest)]
    · rw [← helse _ hplace] at hturn
      rw [lead_of_on hskip hturn]
      exact ih ((List.mem_cons.mp hmem).resolve_left (Ne.symm hplace))
  | case5 loc name rest hskip target hturn =>
    obtain rfl := List.mem_singleton.mp hmem
    rw [lead_of_stop hskip (hstop rest)]
  | case6 loc name rest hskip target hturn links ih =>
    by_cases hplace : loc ++ [name] = place
    · subst hplace
      rw [lead_of_stop hskip (hstop rest)]
    · rw [← helse _ hplace] at hturn
      rw [lead_of_via hskip hturn]
      exact ih ((List.mem_cons.mp hmem).resolve_left (Ne.symm hplace))
  | case7 links loc name rest hskip answer hturn =>
    obtain rfl := List.mem_singleton.mp hmem
    rw [lead_of_stop hskip (hstop rest)]

/-! ### A file is a dead end -/

/-- A name for which one looks is a proper one. -/
theorem proper_of_skip {loc : Location} {name : String} {rest : List String}
    (h : skip purpose loc name rest = none) : isIdle name = false ∧ name ≠ ".." := by
  unfold skip at h
  split at h
  · exact absurd h (by simp)
  split at h
  · exact absurd h (by simp)
  · rename_i hidle hup
    exact ⟨Bool.eq_false_iff.mpr hidle, hup⟩

/-- **A path that leads to a file ends in a name**, and not in a slash, `.` or `..`. -/
theorem lead_last {links : Nat} {loc y : Location} {names : List String} {number : Nat}
    (htree : IsTree see) (hloc : see loc = some .directory)
    (h : (lead see .find links loc names).answer = .ok y) (hy : see y = some (.file number)) :
    ∃ front last, names = front ++ [last] ∧ isIdle last = false ∧ last ≠ ".." := by
  fun_induction lead see .find links loc names with
  | case1 links loc =>
    rw [← Except.ok.inj h, hloc] at hy
    exact absurd hy (by simp)
  | case2 links loc name rest loc' hskip ih =>
    obtain ⟨front, last, rfl, hlast⟩ := ih (htree.of_skip hloc hskip) h
    exact ⟨name :: front, last, rfl, hlast⟩
  | case3 links loc name rest e hskip => exact absurd h (by simp)
  | case4 links loc name rest hskip hturn ih =>
    obtain ⟨front, last, rfl, hlast⟩ := ih (turn_eq_on_iff.mp hturn) h
    exact ⟨name :: front, last, rfl, hlast⟩
  | case5 loc name rest hskip target hturn => exact absurd h (by simp)
  | case6 loc name rest hskip target hturn links ih =>
    obtain ⟨front, last, hnames, hlast⟩ := ih (htree.of_relay hloc target) h
    rcases List.eq_nil_or_concat rest with rfl | ⟨front', last', rfl⟩
    · exact ⟨[], name, rfl, proper_of_skip hskip⟩
    -- what comes last in the end stands at the end of the path
    · rw [List.concat_eq_append, ← List.append_assoc] at hnames
      obtain ⟨-, heq⟩ := List.append_inj' hnames rfl
      rw [← List.singleton_inj.mp heq] at hlast
      exact ⟨name :: front', last', by rw [List.concat_eq_append, List.cons_append], hlast⟩
  | case7 links loc name rest hskip answer hturn =>
    rcases turn_find_eq_stop hturn with ⟨number, hsee, ⟨rfl, -⟩ | ⟨-, rfl⟩⟩ | ⟨-, rfl⟩
    · exact ⟨[], name, rfl, proper_of_skip hskip⟩
    · exact absurd h (by simp)
    · exact absurd h (by simp)

/-- A path leads to a directory, or to where one has looked. -/
theorem mem_places_of_answer {links : Nat} {loc y : Location} {names : List String}
    (htree : IsTree see) (hloc : see loc = some .directory)
    (h : (lead see .find links loc names).answer = .ok y) :
    see y = some .directory ∨ y ∈ (lead see .find links loc names).places := by
  fun_induction lead see .find links loc names with
  | case1 links loc => exact .inl (Except.ok.inj h ▸ hloc)
  | case2 links loc name rest loc' hskip ih => exact ih (htree.of_skip hloc hskip) h
  | case3 links loc name rest e hskip => exact absurd h (by simp)
  | case4 links loc name rest hskip hturn ih =>
    exact (ih (turn_eq_on_iff.mp hturn) h).imp_right (List.mem_cons_of_mem _)
  | case5 loc name rest hskip target hturn => exact absurd h (by simp)
  | case6 loc name rest hskip target hturn links ih =>
    exact (ih (htree.of_relay hloc target) h).imp_right (List.mem_cons_of_mem _)
  | case7 links loc name rest hskip answer hturn =>
    rcases turn_find_eq_stop hturn with ⟨number, -, ⟨-, rfl⟩ | ⟨-, rfl⟩⟩ | ⟨-, rfl⟩
    · exact .inr (Except.ok.inj h ▸ List.mem_singleton.mpr rfl)
    · exact absurd h (by simp)
    · exact absurd h (by simp)

/-- What may come of a path that leads by a name of a file. -/
def EndsAt (y : Location) (answer : Except IoError Location) : Prop :=
  answer = .ok y ∨ answer = .error .notDirectory ∨ answer = .error .tooManyLinks

/-- **With more names behind it, a path to a file leads to that file or nowhere.** -/
theorem lead_append {links : Nat} {loc y : Location} {names : List String} {number : Nat}
    (htree : IsTree see) (hloc : see loc = some .directory)
    (h : (lead see .find links loc names).answer = .ok y) (hy : see y = some (.file number))
    (links' : Nat) (more : List String) :
    EndsAt y (lead see .find links' loc (names ++ more)).answer := by
  fun_induction lead see .find links loc names generalizing links' more with
  | case1 links loc =>
    rw [← Except.ok.inj h, hloc] at hy
    exact absurd hy (by simp)
  | case2 links loc name rest loc' hskip ih =>
    rw [skip_eq_skip_find (by simp) loc name rest (rest ++ more)] at hskip
    rw [List.cons_append, lead_of_skip_ok hskip]
    exact ih (htree.of_skip hloc hskip) h links' more
  | case3 links loc name rest e hskip => exact absurd h (by simp)
  | case4 links loc name rest hskip hturn ih =>
    have hsee := turn_eq_on_iff.mp hturn
    rw [skip_eq_skip_find (by simp) loc name rest (rest ++ more)] at hskip
    rw [List.cons_append, lead_of_on hskip (turn_eq_on_iff.mpr hsee)]
    exact ih hsee h links' more
  | case5 loc name rest hskip target hturn => exact absurd h (by simp)
  | case6 loc name rest hskip target hturn links ih =>
    have hsee := turn_find_eq_via_iff.mp hturn
    rw [skip_eq_skip_find (by simp) loc name rest (rest ++ more)] at hskip
    rw [List.cons_append]
    cases links' with
    | zero =>
      rw [lead_of_via_zero hskip (turn_find_eq_via_iff.mpr hsee)]
      exact .inr (.inr rfl)
    | succ links' =>
      rw [lead_of_via hskip (turn_find_eq_via_iff.mpr hsee), ← List.append_assoc]
      exact ih (htree.of_relay hloc target) h links' more
  | case7 links loc name rest hskip answer hturn =>
    rw [skip_eq_skip_find (by simp) loc name rest (rest ++ more)] at hskip
    rcases turn_find_eq_stop hturn with ⟨number, hsee, ⟨rfl, rfl⟩ | ⟨-, rfl⟩⟩ | ⟨-, rfl⟩
    · rw [List.singleton_append]
      cases hplace : turn .find (loc ++ [name]) more (see (loc ++ [name])) with
      | on => exact absurd (turn_eq_on_iff.mp hplace) (by simp [hsee])
      | via target => exact absurd (turn_find_eq_via_iff.mp hplace) (by simp [hsee])
      | stop answer =>
        rw [List.nil_append] at hskip
        rw [lead_of_stop hskip hplace]
        rcases turn_find_eq_stop hplace with ⟨-, -, ⟨-, rfl⟩ | ⟨-, rfl⟩⟩ | ⟨hnone, -⟩
        · exact .inl h
        · exact .inr (.inl rfl)
        · exact absurd hnone (by simp [hsee])
    · exact absurd h (by simp)
    · exact absurd h (by simp)

/-- What comes of a path that leads by a name which is not that of a directory. -/
theorem lead_through {links : Nat} {loc place : Location} {names : List String}
    (hmem : place ∈ (lead see .find links loc names).places) :
    (∀ number, see place = some (.file number) →
      EndsAt place (lead see .find links loc names).answer) ∧
    (∀ target, see place = some (.link target) →
      (lead see .find links loc names).answer = .error .tooManyLinks ∨
      ∃ links' more, (lead see .find links loc names).answer =
        (lead see .find links' (relay place.dropLast target)
          (pathNames target ++ more)).answer) := by
  fun_induction lead see .find links loc names with
  | case1 links loc => exact absurd hmem (by simp)
  | case2 links loc name rest loc' hskip ih => exact ih hmem
  | case3 links loc name rest e hskip => exact absurd hmem (by simp)
  | case4 links loc name rest hskip hturn ih =>
    rcases List.mem_cons.mp hmem with rfl | hmem
    · have hsee := turn_eq_on_iff.mp hturn
      rw [hsee]
      exact ⟨fun _ h => absurd h (by simp), fun _ h => absurd h (by simp)⟩
    · exact ih hmem
  | case5 loc name rest hskip target hturn =>
    obtain rfl := List.mem_singleton.mp hmem
    exact ⟨fun _ _ => .inr (.inr rfl), fun _ _ => .inl rfl⟩
  | case6 loc name rest hskip target hturn links ih =>
    rcases List.mem_cons.mp hmem with rfl | hmem
    · have hsee := turn_find_eq_via_iff.mp hturn
      rw [hsee]
      refine ⟨fun _ h => absurd h (by simp), fun other h => .inr ⟨links, rest, ?_⟩⟩
      obtain rfl := Sight.link.inj (Option.some.inj h)
      rw [List.dropLast_concat]
      rfl
    · exact ih hmem
  | case7 links loc name rest hskip answer hturn =>
    obtain rfl := List.mem_singleton.mp hmem
    rcases turn_find_eq_stop hturn with ⟨number, hsee, ⟨-, rfl⟩ | ⟨-, rfl⟩⟩ | ⟨hsee, rfl⟩
    · rw [hsee]
      exact ⟨fun _ _ => .inl rfl, fun _ h => absurd h (by simp)⟩
    · rw [hsee]
      exact ⟨fun _ _ => .inr (.inl rfl), fun _ h => absurd h (by simp)⟩
    · rw [hsee]
      exact ⟨fun _ h => absurd h (by simp), fun _ h => absurd h (by simp)⟩

/-! ### The name of a file -/

/-- A location by which a file goes: its own, or that of a link which leads there. -/
def IsNameOf (see : Location → Option Sight) (x y : Location) : Prop :=
  x = y ∨ ∃ target links, see x = some (.link target) ∧
    (lead see .find links (relay x.dropLast target) (pathNames target)).answer = .ok y

/-- **Who asks for the name of a file does so on the way to the file.** -/
theorem lead_name {links : Nat} {loc y : Location} {names : List String} {number : Nat}
    (htree : IsTree see) (hloc : see loc = some .directory)
    (h : (lead see .find links loc names).answer = .ok y) (hy : see y = some (.file number)) :
    ∃ x, (lead see .name links loc names).answer = .ok x ∧ IsNameOf see x y ∧
      x ∈ (lead see .find links loc names).places ∧
      ∀ place ∈ (lead see .name links loc names).places,
        place ∈ (lead see .find links loc names).places := by
  fun_induction lead see .find links loc names with
  | case1 links loc =>
    rw [← Except.ok.inj h, hloc] at hy
    exact absurd hy (by simp)
  | case2 links loc name rest loc' hskip ih =>
    have hloc' := htree.of_skip hloc hskip
    rw [← @skip_eq_skip_find .name (by simp) loc name rest rest] at hskip
    rw [lead_of_skip_ok hskip]
    exact ih hloc' h
  | case3 links loc name rest e hskip => exact absurd h (by simp)
  | case4 links loc name rest hskip hturn ih =>
    have hsee := turn_eq_on_iff.mp hturn
    rw [← @skip_eq_skip_find .name (by simp) loc name rest rest] at hskip
    rw [lead_of_on hskip (turn_eq_on_iff.mpr hsee)]
    obtain ⟨x, hx, hname, hmem, hplaces⟩ := ih hsee h
    refine ⟨x, hx, hname, List.mem_cons_of_mem _ hmem, fun place hplace => ?_⟩
    rcases List.mem_cons.mp hplace with rfl | hplace
    · exact List.mem_cons_self
    · exact List.mem_cons_of_mem _ (hplaces place hplace)
  | case5 loc name rest hskip target hturn => exact absurd h (by simp)
  | case6 loc name rest hskip target hturn links ih =>
    have hsee := turn_find_eq_via_iff.mp hturn
    have hrelay := htree.of_relay hloc target
    rw [← @skip_eq_skip_find .name (by simp) loc name rest rest] at hskip
    by_cases hlast : rest.all (· = "") ∧ Purpose.name = .name
    -- the link has the last name: then nothing comes after it, for it leads to a file
    · have hturn' : turn .name (loc ++ [name]) rest (see (loc ++ [name])) =
          .stop (.ok (loc ++ [name])) := by
        rw [hsee, turn, if_pos hlast]
      rw [lead_of_stop hskip hturn']
      refine ⟨_, rfl, .inr ⟨target, links, hsee, ?_⟩, List.mem_cons_self, fun place hplace => ?_⟩
      · obtain ⟨front, last, hnames, hidle, -⟩ := lead_last htree hrelay h hy
        rcases List.eq_nil_or_concat rest with rfl | ⟨front', last', rfl⟩
        · rw [List.dropLast_concat]
          rwa [List.append_nil] at h
        · rw [List.concat_eq_append, ← List.append_assoc] at hnames
          obtain ⟨-, heq⟩ := List.append_inj' hnames rfl
          have hempty : last' = "" := by
            have hall := List.all_eq_true.mp hlast.1 last' (by simp)
            exact of_decide_eq_true hall
          rw [← List.singleton_inj.mp heq, hempty] at hidle
          exact absurd hidle (by simp [isIdle])
      · rw [List.mem_singleton.mp hplace]
        exact List.mem_cons_self
    · have hturn' : turn .name (loc ++ [name]) rest (see (loc ++ [name])) = .via target := by
        rw [hsee, turn, if_neg hlast]
      rw [lead_of_via hskip hturn']
      obtain ⟨x, hx, hname, hmem, hplaces⟩ := ih hrelay h
      refine ⟨x, hx, hname, List.mem_cons_of_mem _ hmem, fun place hplace => ?_⟩
      rcases List.mem_cons.mp hplace with rfl | hplace
      · exact List.mem_cons_self
      · exact List.mem_cons_of_mem _ (hplaces place hplace)
  | case7 links loc name rest hskip answer hturn =>
    rcases turn_find_eq_stop hturn with ⟨number, hsee, ⟨rfl, rfl⟩ | ⟨-, rfl⟩⟩ | ⟨-, rfl⟩
    · rw [← @skip_eq_skip_find .name (by simp) loc name [] []] at hskip
      have hturn' : turn .name (loc ++ [name]) [] (see (loc ++ [name])) =
          .stop (.ok (loc ++ [name])) := by
        rw [hsee, turn, if_pos (.inl rfl)]
      rw [lead_of_stop hskip hturn']
      exact ⟨_, rfl, .inl (Except.ok.inj h), List.mem_singleton.mpr rfl, fun _ hplace => hplace⟩
    · exact absurd h (by simp)
    · exact absurd h (by simp)

/-- **A path that leads by a name of a file leads to that file or nowhere.** -/
theorem IsNameOf.endsAt {links : Nat} {loc x y : Location} {names : List String} {number : Nat}
    (hname : IsNameOf see x y) (htree : IsTree see) (hy : see y = some (.file number))
    (hmem : x ∈ (lead see .find links loc names).places) :
    EndsAt y (lead see .find links loc names).answer := by
  obtain ⟨hfile, hlink⟩ := lead_through hmem
  rcases hname with rfl | ⟨target, links', hsee, hy'⟩
  · exact hfile number hy
  · rcases hlink target hsee with hmany | ⟨links'', more, hanswer⟩
    · exact .inr (.inr hmany)
    · have hdir : see x.dropLast = some .directory := by
        rcases List.eq_nil_or_concat x with rfl | ⟨front, last, rfl⟩
        · exact htree.root
        · rw [List.concat_eq_append] at hsee
          rw [List.concat_eq_append, List.dropLast_concat]
          exact htree.above front last (by simp [hsee])
      rw [hanswer]
      exact lead_append htree (htree.of_relay hdir target) hy' hy links'' more

end Lead

/-! ### Paths -/

variable {t t' : FileTree} {path other : String}

/-- Where one looks for what a path leads to. -/
def places (t : FileTree) (path : String) : List Location :=
  match checkPath path with
  | .ok _ => (lead t.sight? .find linkLimit (t.startOf path).location (pathNames path)).places
  | .error _ => []

/-- What is seen at what a path leads to. -/
def sighted (see : Location → Option Sight) (answer : Except IoError Location) :
    Except IoError Sight := do
  match see (← answer) with
  | some sight => .ok sight
  | none => .error .notFound

/-- **What a path leads to depends on what is seen at each location.** -/
theorem map_sight_stat (t : FileTree) (path : String) :
    (t.stat path).map Node.sight = (checkPath path).bind fun _ => sighted t.sight?
      (lead t.sight? .find linkLimit (t.startOf path).location (pathNames path)).answer := by
  rw [stat, resolve_eq]
  cases checkPath path with
  | error e => rfl
  | ok _ =>
    simp only [Except.bind, bind, sighted, sight?]
    cases (lead t.sight? .find linkLimit (t.startOf path).location (pathNames path)).answer with
    | error e => rfl
    | ok loc =>
      simp only []
      cases t.node? loc <;> rfl

/-- A path that leads to something has a text that nothing is wrong with. -/
theorem checkPath_of_stat {sight : Sight} (h : (t.stat path).map Node.sight = .ok sight) :
    checkPath path = .ok () ∧ ∃ loc, t.sight? loc = some sight ∧
      (lead t.sight? .find linkLimit (t.startOf path).location (pathNames path)).answer =
        .ok loc := by
  rw [map_sight_stat] at h
  cases hcheck : checkPath path with
  | error e =>
    rw [hcheck] at h
    exact absurd h (by simp [Except.bind])
  | ok _ =>
    refine ⟨rfl, ?_⟩
    rw [hcheck] at h
    simp only [Except.bind, sighted, bind] at h
    cases hanswer : (lead t.sight? .find linkLimit (t.startOf path).location
        (pathNames path)).answer with
    | error e =>
      rw [hanswer] at h
      exact absurd h (by simp)
    | ok loc =>
      rw [hanswer] at h
      cases hsight : t.sight? loc with
      | none =>
        simp only [hsight] at h
        exact absurd h (by simp)
      | some s =>
        simp only [hsight] at h
        obtain rfl := Except.ok.inj h
        exact ⟨loc, hsight, rfl⟩

/-- The start of a path is in a directory. -/
theorem sight?_startOf (t : FileTree) (path : String) :
    t.sight? (t.startOf path).location = some .directory := by
  have h := (t.stands_startOf path).node? []
  rw [List.append_nil] at h
  rw [sight?, h]
  rfl

theorem stat_eq_file_iff {number : Nat} :
    t.stat path = .ok (.file number) ↔ (t.stat path).map Node.sight = .ok (.file number) := by
  cases t.stat path with
  | error e => simp [Except.map]
  | ok n => cases n <;> simp [Except.map, Node.sight]

theorem stat_eq_error_iff {e : IoError} :
    t.stat path = .error e ↔ (t.stat path).map Node.sight = .error e := by
  cases t.stat path <;> simp [Except.map]

/-- What is opened depends on what is seen. -/
theorem openFile_eq (t : FileTree) (path : String) : t.openFile path =
    ((t.stat path).map Node.sight).map fun
      | .file number => { number? := some number, position := 0 }
      | .directory | .link _ => { number? := none, position := 0 } := by
  rw [openFile]
  cases t.stat path with
  | error e => rfl
  | ok n => cases n <;> rfl

/-- A path that leads to a file has a proper name at its end. -/
theorem hasProperName_of_stat {number : Nat} (h : t.stat path = .ok (.file number)) :
    hasProperName path = true := by
  obtain ⟨-, loc, hloc, hanswer⟩ := checkPath_of_stat (stat_eq_file_iff.mp h)
  obtain ⟨front, last, hnames, hidle, hup⟩ :=
    lead_last t.isTree_sight? (t.sight?_startOf path) hanswer hloc
  simp only [isIdle, decide_eq_false_iff_not, not_or] at hidle
  have htrimmed : trimmedNames path = front ++ [last] := by
    rw [trimmedNames, hnames, List.reverse_append, List.reverse_singleton, List.singleton_append,
      List.dropWhile_cons_of_neg (by simp [hidle.1]), List.reverse_cons, List.reverse_reverse]
  unfold hasProperName
  rw [htrimmed, List.getLast?_concat]
  split
  · rename_i hnone
    exact absurd hnone (by simp)
  · rename_i hdot
    exact absurd (Option.some.inj hdot) hidle.2
  · rename_i hdots
    exact absurd (Option.some.inj hdots) hup
  · rfl

/-! ### Trees from which something is gone -/

/-- **The tree without some locations**, none of which was a directory. -/
structure Without (t : FileTree) (gone : List Location) (t' : FileTree) : Prop where
  /-- They have been removed in this order. -/
  eq : t' = gone.foldl erase t
  /-- At all others one sees what one saw. -/
  sight?_eq : ∀ loc, t'.sight? loc = if loc ∈ gone then none else t.sight? loc
  /-- No directory is gone. -/
  kept : ∀ loc ∈ gone, t.sight? loc ≠ some .directory

namespace Without

variable {gone : List Location}

theorem refl (t : FileTree) : t.Without [] t :=
  ⟨rfl, fun _ => (if_neg (by simp)).symm, fun _ h => absurd h (by simp)⟩

/-- One thing more is gone. -/
theorem concat (h : t.Without gone t') {loc : Location} {sight : Sight} (hnew : loc ∉ gone)
    (hsight : t.sight? loc = some sight) (hdir : sight ≠ .directory) :
    t.Without (gone ++ [loc]) (t'.erase loc) where
  eq := by rw [List.foldl_append, ← h.eq, List.foldl_cons, List.foldl_nil]
  sight?_eq := by
    have hhere : t'.sight? loc = some sight := by rw [h.sight?_eq, if_neg hnew, hsight]
    obtain ⟨n, hn, hnsight⟩ := Option.map_eq_some_iff.mp hhere
    have hother : n.isDirectory = false := by
      cases n with
      | directory entries => exact absurd hnsight.symm hdir
      | file number | link target => rfl
    intro other
    rw [sight?_erase hn hother, h.sight?_eq]
    by_cases hmem : other = loc
    · rw [if_pos hmem, if_pos (by simp [hmem])]
    · rw [if_neg hmem]
      simp only [List.mem_append, List.mem_singleton, hmem, or_false]
  kept := by
    intro place hplace
    rcases List.mem_append.mp hplace with hold | hlast
    · exact h.kept place hold
    · rw [List.mem_singleton.mp hlast, hsight]
      exact fun heq => hdir (Option.some.inj heq)

/-- The bytes of the files are all there. -/
theorem contents_eq (h : t.Without gone t') : t'.contents = t.contents := by
  rw [h.eq]
  clear h
  induction gone generalizing t with
  | nil => rfl
  | cons loc gone ih => exact ih

theorem content_eq (h : t.Without gone t') (number : Nat) :
    t'.content number = t.content number := by
  rw [content, content, h.contents_eq]

/-- A path starts where it did. -/
theorem location_startOf_eq (h : t.Without gone t') (path : String) :
    (t'.startOf path).location = (t.startOf path).location := by
  have hworking : t'.workingDirectory = t.workingDirectory := by
    rw [h.eq]
    clear h
    induction gone generalizing t with
    | nil => rfl
    | cons loc gone ih => exact ih
  have hdirs (loc : Location) :
      t'.sight? loc = some .directory ↔ t.sight? loc = some .directory := by
    rw [h.sight?_eq]
    split
    · rename_i hmem
      exact ⟨fun hnone => absurd hnone (by simp), fun hdir => absurd hdir (h.kept loc hmem)⟩
    · rfl
  rw [location_startOf, location_startOf, hworking, trail_congr hdirs]

/-- **A path that did not lead by what is gone leads where it did.** -/
theorem lead_eq (h : t.Without gone t') (hapart : ∀ loc ∈ gone, loc ∉ t.places path)
    (hcheck : checkPath path = .ok ()) :
    lead t'.sight? .find linkLimit (t'.startOf path).location (pathNames path) =
      lead t.sight? .find linkLimit (t.startOf path).location (pathNames path) := by
  rw [h.location_startOf_eq]
  refine lead_congr fun place hplace => ?_
  rw [h.sight?_eq, if_neg]
  intro hgone
  refine hapart place hgone ?_
  simp only [places, hcheck]
  exact hplace

/-- What is seen there is what was seen there. -/
theorem map_sight_stat_eq (h : t.Without gone t') (hapart : ∀ loc ∈ gone, loc ∉ t.places path) :
    (t'.stat path).map Node.sight = (t.stat path).map Node.sight := by
  rw [map_sight_stat, map_sight_stat]
  cases hcheck : checkPath path with
  | error e => rfl
  | ok _ =>
    simp only [Except.bind]
    rw [h.lead_eq hapart hcheck]
    cases hanswer : (lead t.sight? .find linkLimit (t.startOf path).location
        (pathNames path)).answer with
    | error e => rfl
    | ok loc =>
      have hstays : loc ∉ gone := by
        intro hgone
        rcases mem_places_of_answer t.isTree_sight? (t.sight?_startOf path) hanswer with hdir | hmem
        · exact h.kept loc hgone hdir
        · refine hapart loc hgone ?_
          simp only [places, hcheck]
          exact hmem
      simp only [sighted, bind, Except.bind, h.sight?_eq, if_neg hstays]

/-- **The same is opened.** -/
theorem openFile_eq (h : t.Without gone t') (hapart : ∀ loc ∈ gone, loc ∉ t.places path) :
    t'.openFile path = t.openFile path := by
  rw [FileTree.openFile_eq, FileTree.openFile_eq, h.map_sight_stat_eq hapart]

end Without

/-- **A path to a file has a name, on the way to the file.** -/
theorem exists_name {number : Nat} (h : t.stat path = .ok (.file number)) :
    checkPath path = .ok () ∧ ∃ x y, t.sight? y = some (.file number) ∧
      (lead t.sight? .find linkLimit (t.startOf path).location (pathNames path)).answer = .ok y ∧
      (lead t.sight? .name linkLimit (t.startOf path).location (pathNames path)).answer = .ok x ∧
      IsNameOf t.sight? x y ∧ x ∈ t.places path ∧
      ∀ place ∈ (lead t.sight? .name linkLimit (t.startOf path).location (pathNames path)).places,
        place ∈ t.places path := by
  obtain ⟨hcheck, y, hy, hanswer⟩ := checkPath_of_stat (stat_eq_file_iff.mp h)
  obtain ⟨x, hx, hname, hmem, hplaces⟩ :=
    lead_name t.isTree_sight? (t.sight?_startOf path) hanswer hy
  refine ⟨hcheck, x, y, hy, hanswer, hx, hname, ?_, ?_⟩
  · simp only [places, hcheck]
    exact hmem
  · simp only [places, hcheck]
    exact hplaces

/-- The name of a file is not that of a directory. -/
theorem IsNameOf.exists_sight {x y : Location} {number : Nat} (h : IsNameOf t.sight? x y)
    (hy : t.sight? y = some (.file number)) :
    ∃ sight, t.sight? x = some sight ∧ sight ≠ .directory := by
  rcases h with rfl | ⟨target, links, hsee, -⟩
  · exact ⟨_, hy, by simp⟩
  · exact ⟨_, hsee, by simp⟩

/-- **Two paths are apart**: the second does not lead to a file; or the first leads to another one,
or to a directory; or it leads to nothing, and so it does in the same way without the name of the
second. -/
def Apart (t : FileTree) (path other : String) : Prop :=
  ∀ number, t.stat other = .ok (.file number) →
    match t.stat path with
    | .ok (.file mine) => mine ≠ number
    | .ok (.directory _) | .ok (.link _) => True
    | .error e => ∀ loc, t.resolve .name other = .ok loc → (t.erase loc).stat path = .error e

/-- **Paths that name different files are apart.** -/
theorem apart_of_ne {mine number : Nat} (hmine : t.stat path = .ok (.file mine))
    (hother : t.stat other = .ok (.file number)) (hne : mine ≠ number) : t.Apart path other := by
  intro n hn
  obtain rfl : number = n := Node.file.inj (Except.ok.inj (hother.symm.trans hn))
  rw [hmine]
  exact hne

/-- **Of two paths that are apart the first does not lead by the name of the second.** -/
theorem Apart.notMem_places (h : t.Apart path other) {number : Nat} {x : Location}
    (hother : t.stat other = .ok (.file number)) (hx : t.resolve .name other = .ok x) :
    x ∉ t.places path := by
  intro hmem
  obtain ⟨hcheck, x', y, hy, -, hanswer', hname, -⟩ := exists_name hother
  obtain rfl : x' = x := by
    rw [resolve_eq, hcheck] at hx
    exact Except.ok.inj (hanswer'.symm.trans hx)
  -- there is nothing wrong with the text of the first path, or else it leads nowhere
  cases hpath : checkPath path with
  | error e =>
    simp only [places, hpath] at hmem
    exact absurd hmem (by simp)
  | ok _ =>
    simp only [places, hpath] at hmem
    have hstat := map_sight_stat t path
    simp only [hpath, Except.bind] at hstat
    -- without the name one finds nothing where there was an error of another kind
    have herror {e : IoError} (hne : e ≠ .notFound) (hanswer : (lead t.sight? .find linkLimit
        (t.startOf path).location (pathNames path)).answer = .error e) : False := by
      obtain ⟨sight, hsight, hdir⟩ := hname.exists_sight hy
      have hwithout := (Without.refl t).concat (by simp) hsight hdir
      have hmissing : (t.erase x').sight? x' = none := by rw [hwithout.sight?_eq, if_pos (by simp)]
      have helse (place : Location) (hplace : place ≠ x') :
          (t.erase x').sight? place = t.sight? place := by
        rw [hwithout.sight?_eq, if_neg (by simp [hplace])]
      have hafter := map_sight_stat (t.erase x') path
      simp only [hpath, Except.bind] at hafter
      rw [hwithout.location_startOf_eq, lead_of_missing hmem hmissing helse] at hafter
      rw [hanswer] at hstat
      have happlied := h number hother
      rw [stat_eq_error_iff.mpr hstat] at happlied
      have hsame := stat_eq_error_iff.mp (happlied x' hx)
      rw [hsame] at hafter
      exact hne (Except.error.inj hafter)
    rcases hname.endsAt t.isTree_sight? hy hmem with hanswer | hanswer | hanswer
    · rw [hanswer] at hstat
      simp only [sighted, bind, Except.bind, hy] at hstat
      have happlied := h number hother
      rw [stat_eq_file_iff.mpr hstat] at happlied
      exact happlied rfl
    · exact herror (by decide) hanswer
    · exact herror (by decide) hanswer

/-! ### What is done with a path -/

/-- A path that opens as a file leads to that file. -/
theorem stat_of_openFile {f : OpenFile} {number : Nat} (h : t.openFile path = .ok f)
    (hnumber : f.number? = some number) : t.stat path = .ok (.file number) := by
  unfold openFile at h
  cases hstat : t.stat path with
  | error e =>
    rw [hstat] at h
    exact absurd h (by simp [bind, Except.bind])
  | ok n =>
    rw [hstat] at h
    cases n with
    | file m =>
      obtain rfl := Except.ok.inj h
      rw [Option.some.inj hnumber]
    | directory entries | link target =>
      obtain rfl := Except.ok.inj h
      exact absurd hnumber (by simp)

/-- **A file is removed by its name**, unless there is a slash behind it. -/
theorem removeFile_of_stat {number : Nat} (h : t.stat path = .ok (.file number)) :
    ∃ x sight, t.resolve .name path = .ok x ∧ x ∈ t.places path ∧ t.sight? x = some sight ∧
      sight ≠ .directory ∧
      ∀ gone t', t.Without gone t' → (∀ loc ∈ gone, loc ∉ t.places path) →
        t'.removeFile path =
          if endsInSlash path then .error .notDirectory else .ok (t'.erase x) := by
  obtain ⟨hcheck, x, y, hy, -, hanswer, hname, hmem, hplaces⟩ := exists_name h
  obtain ⟨sight, hsight, hdir⟩ := hname.exists_sight hy
  have hresolve : t.resolve .name path = .ok x := by
    rw [resolve_eq, hcheck]
    exact hanswer
  refine ⟨x, sight, hresolve, hmem, hsight, hdir, fun gone t' hwithout hapart => ?_⟩
  have hstays : x ∉ gone := fun hgone => hapart x hgone hmem
  have hresolve' : t'.resolve .name path = .ok x := by
    rw [resolve_eq, hcheck, hwithout.location_startOf_eq]
    have hsame : lead t'.sight? .name linkLimit (t.startOf path).location (pathNames path) =
        lead t.sight? .name linkLimit (t.startOf path).location (pathNames path) := by
      refine lead_congr fun place hplace => ?_
      rw [hwithout.sight?_eq, if_neg fun hgone => hapart place hgone (hplaces place hplace)]
    rw [hsame]
    exact hanswer
  have hhere : t'.sight? x = some sight := by rw [hwithout.sight?_eq, if_neg hstays, hsight]
  obtain ⟨n, hn, hnsight⟩ := Option.map_eq_some_iff.mp hhere
  simp only [removeFile, hasProperName_of_stat h, if_true, hresolve', bind, Except.bind]
  rw [show t'.node? x = some n from hn]
  cases n with
  | directory entries => exact absurd hnsight.symm hdir
  | file m | link target => rfl

/-- Whatever is removed is removed by a name. -/
theorem exists_erase_of_removeFile (h : t.removeFile path = .ok t') : ∃ loc, t' = t.erase loc := by
  unfold removeFile at h
  split at h
  · simp only [bind, Except.bind] at h
    split at h
    · exact absurd h (by simp)
    · rename_i loc hloc
      split at h
      · exact absurd h (by simp)
      · exact absurd h (by simp)
      · split at h
        · exact absurd h (by simp)
        · exact ⟨loc, (Except.ok.inj h).symm⟩
      · split at h
        · exact absurd h (by simp)
        · exact ⟨loc, (Except.ok.inj h).symm⟩
  · simp only [bind, Except.bind] at h
    split at h <;> exact absurd h (by simp)

end FileTree

end LogCourier

import LogCourier.Proofs.FileTree.Footprint

/-!
# Paths that go up from nowhere

There is nothing at a path, so the directories are made that it needs, and then a file is written
there. One would think that the file is a new one.

It is not always. While `n` is missing there is nothing at `n/../f`, and as soon as `n` has been
made there is whatever `f` is. Such a path goes up, by `..`, from where there is no directory
(`LogCourier.FileTree.Backtracks`). **On any other path the file is new**, and has the name that the
path gives it (`LogCourier.FileTree.WrittenAt.isNew`).

The reason is that a new directory is empty. If one was made, the path comes by it, for it leads on
from every directory above it (`LogCourier.FileTree.steps_of_mem_above`); and from there it goes
down only, where all is as new (`LogCourier.FileTree.exists_append_of_lead`). If none was made the
path leads where it did, which is nowhere. What the names of links say about the way does not
matter: nothing is known of them but that they were there before.
-/

namespace LogCourier

namespace FileTree

section Lead

variable {see see' : Location → Option Sight} {purpose : Purpose} {links : Nat}
  {loc y : Location} {names names' : List String}

/-! ### Names that say the same -/

/-- **Where names lead that lead to a directory, all do that lead on as they do.** -/
theorem lead_of_steps_eq (hy : see y = some .directory) (hsteps : steps names = steps names')
    (h : (lead see .find links loc names).answer = .ok y) :
    (lead see .find links loc names').answer = .ok y := by
  -- the next name that leads on stands in the other list behind idle ones
  have hnext {name : String} {rest names' : List String} (hname : isIdle name = false)
      (hsteps : steps (name :: rest) = steps names') : ∃ idle rest',
        names' = idle ++ name :: rest' ∧ (∀ n ∈ idle, isIdle n = true) ∧
          steps rest = steps rest' := by
    rw [steps_cons hname] at hsteps
    obtain ⟨idle, rest', heq, hidle, -, hrest⟩ := List.filter_eq_cons_iff.mp hsteps.symm
    exact ⟨idle, rest', heq, by simpa using hidle, hrest.symm⟩
  fun_induction lead see .find links loc names generalizing names' with
  | case1 links loc =>
    have hidle := steps_eq_nil_iff.mp hsteps.symm
    rw [lead_of_idle hidle]
    exact h
  | case2 links loc name rest loc' hskip ih =>
    by_cases hname : isIdle name = true
    · rw [steps_cons_of_idle hname] at hsteps
      rw [skip, if_pos hname] at hskip
      obtain rfl : loc = loc' := Except.ok.inj (Option.some.inj hskip)
      exact ih hsteps h
    · obtain ⟨idle, rest', rfl, hidle, hrest⟩ := hnext (Bool.eq_false_iff.mpr hname) hsteps
      rw [skip_eq_skip_find (by simp) loc name rest rest'] at hskip
      rw [lead_idle_append hidle, lead_of_skip_ok hskip]
      exact ih hrest h
  | case3 links loc name rest e hskip => exact absurd h (by simp)
  | case4 links loc name rest hskip hturn ih =>
    obtain ⟨idle, rest', rfl, hidle, hrest⟩ := hnext (proper_of_skip hskip).1 hsteps
    rw [skip_eq_skip_find (by simp) loc name rest rest'] at hskip
    rw [lead_idle_append hidle, lead_of_on hskip (turn_eq_on_iff.mpr (turn_eq_on_iff.mp hturn))]
    exact ih hrest h
  | case5 loc name rest hskip target hturn => exact absurd h (by simp)
  | case6 loc name rest hskip target hturn links ih =>
    obtain ⟨idle, rest', rfl, hidle, hrest⟩ := hnext (proper_of_skip hskip).1 hsteps
    rw [skip_eq_skip_find (by simp) loc name rest rest'] at hskip
    rw [lead_idle_append hidle,
      lead_of_via hskip (turn_find_eq_via_iff.mpr (turn_find_eq_via_iff.mp hturn))]
    exact ih (by rw [steps_append, steps_append, hrest]) h
  | case7 links loc name rest hskip answer hturn =>
    rcases turn_find_eq_stop hturn with ⟨number, hsee, ⟨-, rfl⟩ | ⟨-, rfl⟩⟩ | ⟨-, rfl⟩
    · rw [← Except.ok.inj h, hsee] at hy
      exact absurd hy (by simp)
    · exact absurd h (by simp)
    · exact absurd h (by simp)

/-! ### Names behind others -/

/-- **Names lead on from the directory to which those before them lead**, through as many links as
are left. -/
theorem exists_lead_append (hy : see y = some .directory)
    (h : (lead see .find links loc names).answer = .ok y) :
    ∃ left, ∀ purpose, purpose ≠ .write → ∀ more : List String, ¬ more.all (· = "") = true →
      (lead see purpose links loc (names ++ more)).answer =
        (lead see purpose left y more).answer := by
  fun_induction lead see .find links loc names with
  | case1 links loc =>
    obtain rfl := Except.ok.inj h
    exact ⟨links, fun _ _ _ _ => rfl⟩
  | case2 links loc name rest loc' hskip ih =>
    obtain ⟨left, hleft⟩ := ih h
    refine ⟨left, fun purpose hpurpose more hmore => ?_⟩
    rw [← skip_eq_skip_find hpurpose loc name (rest ++ more)] at hskip
    rw [List.cons_append, lead_of_skip_ok hskip]
    exact hleft purpose hpurpose more hmore
  | case3 links loc name rest e hskip => exact absurd h (by simp)
  | case4 links loc name rest hskip hturn ih =>
    obtain ⟨left, hleft⟩ := ih h
    refine ⟨left, fun purpose hpurpose more hmore => ?_⟩
    rw [← skip_eq_skip_find hpurpose loc name (rest ++ more)] at hskip
    rw [List.cons_append, lead_of_on hskip (turn_eq_on_iff.mpr (turn_eq_on_iff.mp hturn))]
    exact hleft purpose hpurpose more hmore
  | case5 loc name rest hskip target hturn => exact absurd h (by simp)
  | case6 loc name rest hskip target hturn links ih =>
    obtain ⟨left, hleft⟩ := ih h
    refine ⟨left, fun purpose hpurpose more hmore => ?_⟩
    have hsee := turn_find_eq_via_iff.mp hturn
    -- the link does not have the last name, so whoever comes by follows it
    have hturn' : turn purpose (loc ++ [name]) (rest ++ more) (see (loc ++ [name])) =
        .via target := by
      rw [hsee, turn, if_neg fun hlast => hmore ?_]
      rw [List.all_append, Bool.and_eq_true] at hlast
      exact hlast.1.2
    rw [← skip_eq_skip_find hpurpose loc name (rest ++ more)] at hskip
    rw [List.cons_append, lead_of_via hskip hturn', ← List.append_assoc]
    exact hleft purpose hpurpose more hmore
  | case7 links loc name rest hskip answer hturn =>
    rcases turn_find_eq_stop hturn with ⟨number, hsee, ⟨-, rfl⟩ | ⟨-, rfl⟩⟩ | ⟨-, rfl⟩
    · rw [← Except.ok.inj h, hsee] at hy
      exact absurd hy (by simp)
    · exact absurd h (by simp)
    · exact absurd h (by simp)

/-- **Who does not go up stays below**, where there are only directories. -/
theorem exists_append_of_lead {outer inner : Location}
    (hbelow : ∀ more, see (outer ++ more) = none ∨ see (outer ++ more) = some .directory)
    (hup : ".." ∉ names) (h : (lead see purpose links (outer ++ inner) names).answer = .ok y) :
    ∃ more, y = outer ++ more := by
  generalize hloc : outer ++ inner = loc at h
  fun_induction lead see purpose links loc names generalizing inner with
  | case1 links loc => exact ⟨inner, by rw [hloc, Except.ok.inj h]⟩
  | case2 links loc name rest loc' hskip ih =>
    have hidle : isIdle name = true := by
      by_contra hidle
      rw [skip, if_neg hidle, if_neg fun heq => hup (by simp [heq])] at hskip
      split at hskip
      · exact absurd hskip (by simp)
      · split at hskip <;> exact absurd hskip (by simp)
    rw [skip, if_pos hidle] at hskip
    obtain rfl : loc = loc' := Except.ok.inj (Option.some.inj hskip)
    exact ih (fun hmem => hup (List.mem_cons_of_mem _ hmem)) hloc h
  | case3 links loc name rest e hskip => exact absurd h (by simp)
  | case4 links loc name rest hskip hturn ih =>
    exact ih (fun hmem => hup (List.mem_cons_of_mem _ hmem))
      (by rw [← hloc, List.append_assoc]) h
  | case5 loc name rest hskip target hturn => exact absurd h (by simp)
  | case6 loc name rest hskip target hturn links ih =>
    have hlink := eq_of_turn_eq_via hturn
    rw [← hloc, List.append_assoc] at hlink
    rcases hbelow (inner ++ [name]) with hnone | hdir
    · exact absurd (hnone.symm.trans hlink) (by simp)
    · exact absurd (hdir.symm.trans hlink) (by simp)
  | case7 links loc name rest hskip answer hturn =>
    obtain rfl : answer = .ok y := h
    exact ⟨inner ++ [name], by rw [eq_of_turn_eq_stop hturn, ← hloc, List.append_assoc]⟩

/-! ### The name of a file that is written -/

/-- **Who wants the name of a file that was written comes to the file**, or before to a link. -/
theorem lead_name_of_written (htree : IsTree see) (hloc : see loc = some .directory) {number : Nat}
    (hkept : ∀ place sight, see place = some sight → see' place = some sight)
    (hy : see y = none) (hy' : see' y = some (.file number))
    (h : (lead see .write links loc names).answer = .ok y) :
    (lead see' .name links loc names).answer = .ok y ∨ ∃ x target,
      (lead see .name links loc names).answer = .ok x ∧ see x = some (.link target) := by
  fun_induction lead see .write links loc names with
  | case1 links loc =>
    rw [← Except.ok.inj h, hloc] at hy
    exact absurd hy (by simp)
  | case2 links loc name rest loc' hskip ih =>
    rw [← @skip_eq_skip_write .name loc name rest (by simp [hskip])] at hskip
    rw [lead_of_skip_ok hskip, lead_of_skip_ok hskip]
    exact ih (htree.of_skip hloc hskip) h
  | case3 links loc name rest e hskip => exact absurd h (by simp)
  | case4 links loc name rest hskip hturn ih =>
    have hsee := turn_eq_on_iff.mp hturn
    rw [← @skip_eq_skip_write .name loc name rest (by simp [hskip])] at hskip
    rw [lead_of_on hskip (turn_eq_on_iff.mpr hsee),
      lead_of_on hskip (turn_eq_on_iff.mpr (hkept _ _ hsee))]
    exact ih hsee h
  | case5 loc name rest hskip target hturn => exact absurd h (by simp)
  | case6 loc name rest hskip target hturn links ih =>
    have hsee := eq_of_turn_eq_via hturn
    rw [← @skip_eq_skip_write .name loc name rest (by simp [hskip])] at hskip
    by_cases hlast : rest.all (· = "") ∧ Purpose.name = .name
    · have hturn' : turn .name (loc ++ [name]) rest (see (loc ++ [name])) =
          .stop (.ok (loc ++ [name])) := by
        rw [hsee, turn, if_pos hlast]
      exact .inr ⟨_, target, by rw [lead_of_stop hskip hturn'], hsee⟩
    · have hturn' {sight? : Option Sight} (hsight : sight? = some (.link target)) :
          turn .name (loc ++ [name]) rest sight? = .via target := by
        rw [hsight, turn, if_neg hlast]
      rw [lead_of_via hskip (hturn' hsee), lead_of_via hskip (hturn' (hkept _ _ hsee))]
      exact ih (htree.of_relay hloc target) h
  | case7 links loc name rest hskip answer hturn =>
    obtain rfl : answer = .ok y := h
    obtain rfl := eq_of_turn_eq_stop hturn
    obtain rfl := eq_nil_of_write hskip hturn
    rw [← @skip_eq_skip_write .name loc name [] (by simp [hskip])] at hskip
    have hturn' : turn .name (loc ++ [name]) [] (see' (loc ++ [name])) =
        .stop (.ok (loc ++ [name])) := by
      rw [hy', turn, if_pos (.inl rfl)]
    exact .inl (by rw [lead_of_stop hskip hturn'])

end Lead

/-! ### Going up -/

variable {t t' t'' : FileTree} {path : String}

/-- **A path that goes up, by `..`, from where there is no directory.** -/
def Backtracks (t : FileTree) (path : String) : Prop :=
  ∃ front rest, pathNames path = front ++ ".." :: rest ∧
    ∀ loc, t.walk .find linkLimit (t.startOf path) (front ++ [""]) ≠ .ok loc

/-- What a path stands for by itself: a link at its end is not followed, unless there is a slash
behind it. -/
def lstat? (t : FileTree) (path : String) : Option Node :=
  if (pathNames path).getLast? = some "" then (t.stat path).toOption
  else (t.resolve .name path).toOption >>= t.node?

/-- Where a path stands for nothing there is nothing. -/
theorem pathExists_of_lstat?_eq_none (h : t.lstat? path = none) : t.pathExists path = false := by
  by_contra hexists
  rw [Bool.not_eq_false, pathExists, Option.isSome_iff_exists] at hexists
  obtain ⟨n, hn⟩ := hexists
  rw [lstat?] at h
  split at h
  · exact absurd (h.symm.trans hn) (by simp)
  · have hstat : (t.stat path).map Node.sight = .ok n.sight := by
      cases hnode : t.stat path <;> simp_all [Except.map, Except.toOption]
    obtain ⟨hcheck, loc, -, hanswer⟩ := checkPath_of_stat hstat
    obtain ⟨x, hx, hsome⟩ := exists_lead_name (t.sight?_startOf path) t.isTree_sight? hanswer
    have hresolve : t.resolve .name path = .ok x := resolve_eq_ok_iff.mpr ⟨hcheck, hx⟩
    refine hsome ?_
    simp only [hresolve, Except.toOption, Option.bind_eq_bind, Option.bind_some] at h
    rw [sight?, h, Option.map_none]

/-- A path that comes by a new directory and does not go up from nowhere **ends where all is new**,
whether it is followed to its end or to its name. -/
theorem sight?_of_new (hhome : t.sight? t.workingDirectory = some .directory)
    (hbuilt : Built (above path) t t') (hback : ¬ t.Backtracks path) {loc : Location}
    (hnone : t.sight? loc = none) (hsome : t'.sight? loc ≠ none) {purpose : Purpose}
    (hpurpose : purpose ≠ .write) {y : Location} (h : t'.resolve purpose path = .ok y) :
    t'.sight? y = none ∨ t'.sight? y = some .directory := by
  have hgrown := hbuilt.grown hhome
  obtain ⟨part, hpart, hlead⟩ := hbuilt.exists_part hhome hnone hsome
  obtain ⟨habsolute, more, last, hsteps⟩ := steps_of_mem_above hpart
  have hdir : t'.sight? loc = some .directory := (hgrown.made loc hnone).resolve_left hsome
  obtain ⟨-, hlead⟩ := resolve_eq_ok_iff.mp hlead
  obtain ⟨-, hanswer⟩ := resolve_eq_ok_iff.mp h
  have hstart : (t'.startOf part).location = (t'.startOf path).location := by
    rw [location_startOf, location_startOf, habsolute]
  rw [hstart] at hlead
  -- the names of the path that lead to the new directory, and those behind them
  obtain ⟨front, back, hnames, hfront, hback'⟩ := List.filter_eq_append_iff.mp hsteps
  have hlead' : (lead t'.sight? .find linkLimit (t'.startOf path).location front).answer =
      .ok loc := lead_of_steps_eq hdir hfront.symm hlead
  have hbelow (rest : Location) :
      t'.sight? (loc ++ rest) = none ∨ t'.sight? (loc ++ rest) = some .directory := by
    cases rest with
    | nil => rw [List.append_nil]; exact .inr hdir
    | cons name rest =>
      refine hgrown.made _ ?_
      by_contra hthere
      have := t.isTree_sight?.directory_of_append (List.cons_ne_nil name rest) hthere
      exact absurd (hnone.symm.trans this) (by simp)
  have hup : ".." ∉ back := by
    intro hmem
    obtain ⟨before, rest, rfl⟩ := List.append_of_mem hmem
    refine hback ⟨front ++ before, rest, by rw [hnames, List.append_assoc], fun z hz => ?_⟩
    -- if there were a directory to go up from, the new one would have been there, too
    obtain ⟨next, others, hcons⟩ := List.exists_cons_of_ne_nil (l := before ++ [""]) (by simp)
    rw [walk_eq_lead (t.stands_startOf path), List.append_assoc, hcons] at hz
    obtain ⟨z', hz'⟩ := exists_lead_front hz
    have hslash : (lead t'.sight? .find linkLimit (t'.startOf path).location
        (front ++ [""])).answer = .ok loc :=
      lead_of_steps_eq hdir (by rw [steps_append]; exact (List.append_nil _).symm) hlead'
    rw [hgrown.location_startOf_eq hhome, lead_of_kept hgrown.kept hz', hz'] at hslash
    rw [Except.ok.inj hslash] at hz'
    exact ne_none_of_answer t.isTree_sight? (t.sight?_startOf path) hz' hnone
  have hmore : ¬ back.all (· = "") = true := by
    intro hall
    have hidle : steps back = [] := steps_eq_nil_iff.mpr fun name hname => by
      simp [isIdle, of_decide_eq_true (List.all_eq_true.mp hall name hname)]
    exact absurd (hidle.symm.trans hback') (by simp)
  obtain ⟨left, hleft⟩ := exists_lead_append hdir hlead'
  rw [hnames, hleft purpose hpurpose back hmore] at hanswer
  rw [← List.append_nil loc] at hanswer
  obtain ⟨rest, rfl⟩ := exists_append_of_lead hbelow hup hanswer
  exact hbelow rest

/-- So a path leads where all is new, or where it did before. -/
theorem resolve_before (hhome : t.sight? t.workingDirectory = some .directory)
    (hbuilt : Built (above path) t t') (hback : ¬ t.Backtracks path) {purpose : Purpose}
    (hpurpose : purpose ≠ .write) {y : Location} (h : t'.resolve purpose path = .ok y) :
    (t'.sight? y = none ∨ t'.sight? y = some .directory) ∨
      (t.resolve purpose path = .ok y ∧ t.sight? y = t'.sight? y) := by
  have hgrown := hbuilt.grown hhome
  by_cases hnew : ∃ place, t.sight? place = none ∧ t'.sight? place ≠ none
  · obtain ⟨place, hnone, hsome⟩ := hnew
    exact .inl (sight?_of_new hhome hbuilt hback hnone hsome hpurpose h)
  · have hsight : t.sight? = t'.sight? := by
      funext place
      cases hplace : t.sight? place with
      | none => exact (not_ne_iff.mp fun hsome => hnew ⟨place, hplace, hsome⟩).symm
      | some sight => exact (hgrown.kept place sight hplace).symm
    refine .inr ⟨?_, by rw [hsight]⟩
    rw [← h, resolve_eq, resolve_eq, hsight, hgrown.location_startOf_eq hhome]

/-- A path that leads to a file has no slash at its end. -/
theorem getLast?_pathNames_ne {loc : Location} {number : Nat}
    (h : t.resolve .find path = .ok loc) (hfile : t.sight? loc = some (.file number)) :
    (pathNames path).getLast? ≠ some "" := by
  obtain ⟨-, hanswer⟩ := resolve_eq_ok_iff.mp h
  obtain ⟨front, last, hnames, hlast, -⟩ :=
    lead_last t.isTree_sight? (t.sight?_startOf path) hanswer hfile
  rw [hnames, List.getLast?_concat]
  intro heq
  rw [Option.some.inj heq] at hlast
  exact absurd hlast (by simp [isIdle])

/-- **A file that is written where there was nothing is new**, and has the name that the path gives
it, unless the path goes up from nowhere. -/
theorem WrittenAt.isNew {bs : Bytes} {loc : Location} {number : Nat}
    (hwritten : t'.WrittenAt path bs loc number t'')
    (hhome : t.sight? t.workingDirectory = some .directory) (hbuilt : Built (above path) t t')
    (hlstat : t.lstat? path = none) (hback : ¬ t.Backtracks path) :
    t'.sight? loc = none ∧ t''.resolve .name path = .ok loc := by
  obtain ⟨hcheck, hled⟩ := resolve_eq_ok_iff.mp hwritten.led
  have hthere : t''.sight? loc = some (.file number) := by rw [hwritten.sight?_eq, if_pos rfl]
  have hfree : t'.sight? loc = none := by
    refine hwritten.before.resolve_right fun hfile => ?_
    have hfind : t'.resolve .find path = .ok loc := resolve_eq_ok_iff.mpr ⟨hcheck,
      lead_of_written (by simp) t'.isTree_sight? (t'.sight?_startOf path) (fun _ _ h => h)
        (.inr hfile) hfile hled⟩
    rcases resolve_before hhome hbuilt hback (by simp) hfind with (h | h) | ⟨hfind', hsight⟩
    · exact absurd (h.symm.trans hfile) (by simp)
    · exact absurd (h.symm.trans hfile) (by simp)
    · have hmissing := pathExists_of_lstat?_eq_none hlstat
      have hnode := node?_eq_file_iff.mpr (hsight.trans hfile)
      simp only [pathExists, FileTree.stat, hfind', bind, Except.bind, hnode, Except.toOption,
        Option.isSome_some, Bool.true_eq_false] at hmissing
  refine ⟨hfree, ?_⟩
  rcases lead_name_of_written t'.isTree_sight? (t'.sight?_startOf path) hwritten.extends.kept hfree
    hthere hled with hname | ⟨x, target, hname, hlink⟩
  · rw [resolve_eq_ok_iff, hwritten.extends.location_startOf_eq ((hbuilt.grown hhome).home hhome)]
    exact ⟨hcheck, hname⟩
  -- a link would have been there before
  · exfalso
    rcases resolve_before hhome hbuilt hback (show Purpose.name ≠ .write by simp)
      (resolve_eq_ok_iff.mpr ⟨hcheck, hname⟩) with (h | h) | ⟨hname', hsight⟩
    · exact absurd (h.symm.trans hlink) (by simp)
    · exact absurd (h.symm.trans hlink) (by simp)
    · have hslash := getLast?_pathNames_ne (hwritten.found .find (by simp)) hthere
      rw [lstat?, if_neg hslash, hname'] at hlstat
      have hnone : t.sight? x = none := Option.map_eq_none_iff.mpr hlstat
      exact absurd (hnone.symm.trans (hsight.trans hlink)) (by simp)

end FileTree

end LogCourier

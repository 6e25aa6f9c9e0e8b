import LogCourier.FileTree

/-!
# What a tree shows

To read a path one looks at one location after the other, and at each one sees whether there is a
directory, a link or a file (`LogCourier.Sight`). That is all that is used of a tree, so a walk
can be said without cursors: **a walk is a function of what is seen at each location**
(`LogCourier.FileTree.walk_eq_lead`), and it comes with a list of the locations that were looked
at (`LogCourier.FileTree.lead`). A directory is not looked at to go up to it, nor is it listed.

What is seen after something other than a directory has been removed is what was seen before, but
for that one location (`LogCourier.FileTree.sight?_erase`).
-/

namespace LogCourier

/-- What is seen at a location. What is in a directory is not. -/
inductive Sight
  /-- The file of that number. -/
  | file (number : Nat)
  /-- A directory. -/
  | directory
  /-- A link to the path written in it. -/
  | link (target : String)
  deriving DecidableEq

/-- What is seen of a node. -/
def Node.sight : Node → Sight
  | file number => .file number
  | directory _ => .directory
  | link target => .link target

/-! ### Directories -/

namespace Directory

/-- Without a name the others are as they were. -/
theorem lookup_remove (d : Directory) (name other : String) :
    (d.remove name).lookup other = if other = name then none else d.lookup other := by
  induction d with
  | nil => simp [remove]
  | cons entry d ih =>
    obtain ⟨key, n⟩ := entry
    rw [remove, List.filter_cons]
    by_cases hkey : key = name
    · subst hkey
      simp only [ne_eq, not_true_eq_false, decide_false, Bool.false_eq_true, if_false]
      rw [show List.filter _ d = Directory.remove d key from rfl, ih, List.lookup_cons]
      by_cases hother : other = key
      · rw [if_pos hother, if_pos hother]
      · rw [if_neg hother, if_neg hother, show (other == key) = false by simpa using hother]
    · simp only [ne_eq, hkey, not_false_eq_true, decide_true, if_true]
      rw [show List.filter _ d = Directory.remove d name from rfl, List.lookup_cons,
        List.lookup_cons, ih]
      by_cases hother : other = key
      · subst hother
        simp [hkey]
      · rw [show (other == key) = false by simpa using hother]

theorem lookup_put (d : Directory) (name other : String) (n : Node) :
    (d.put name n).lookup other = if other = name then some n else d.lookup other := by
  rw [put, List.lookup_cons, lookup_remove]
  by_cases hother : other = name
  · subst hother
    simp
  · rw [show (other == name) = false by simpa using hother]
    simp [hother]

theorem node?_singleton (d : Directory) (name : String) : d.node? [name] = d.lookup name := by
  unfold node?
  cases d.lookup name with
  | none => rfl
  | some n => cases n <;> simp [node?]

theorem node?_of_directory {d inner : Directory} {name : String}
    (h : d.lookup name = some (.directory inner)) (rest : Location) :
    d.node? (name :: rest) = inner.node? rest := by
  simp only [node?, h]

/-- Below something other than a directory there is nothing. -/
theorem node?_of_other {d : Directory} {name : String} {n : Node} (h : d.lookup name = some n)
    (hn : n.isDirectory = false) (rest : Location) :
    d.node? (name :: rest) = if rest = [] then some n else none := by
  cases n with
  | directory inner => exact absurd hn (by simp [Node.isDirectory])
  | file number | link target => simp only [node?, h]

theorem node?_of_missing {d : Directory} {name : String} (h : d.lookup name = none)
    (rest : Location) : d.node? (name :: rest) = none := by
  simp only [node?, h]

/-- A location is looked up name by name. -/
theorem node?_congr {d d' : Directory} {name : String} (h : d.lookup name = d'.lookup name)
    (rest : Location) : d.node? (name :: rest) = d'.node? (name :: rest) := by
  simp only [node?, h]

/-- Where there is something, there is a directory above it. -/
theorem sight_above {d : Directory} {loc : Location} (name : String)
    (h : d.node? (loc ++ [name]) ≠ none) : (d.node? loc).map Node.sight = some .directory := by
  induction loc generalizing d with
  | nil => rfl
  | cons key loc ih =>
    rw [List.cons_append] at h
    cases hlookup : d.lookup key with
    | none => exact absurd (node?_of_missing hlookup _) h
    | some n =>
      cases n with
      | directory inner =>
        rw [node?_of_directory hlookup] at h ⊢
        exact ih h
      | file number => exact absurd (by simp [node?_of_other hlookup rfl]) h
      | link target => exact absurd (by simp [node?_of_other hlookup rfl]) h

/-- In a node that has nothing in it there is nothing. -/
theorem node?_of_inside {d : Directory} {name : String} {n : Node} (h : d.lookup name = some n)
    (hn : n.inside = []) (key : String) (rest : Location) :
    d.node? (name :: key :: rest) = none := by
  cases n with
  | directory inner =>
    cases inner with
    | nil =>
      rw [node?_of_directory h]
      rfl
    | cons entry inner => exact absurd hn (by simp [Node.inside, inside])
  | file number | link target => simp [node?_of_other h rfl]

/-- A name stands for what has been put there, or for nothing, and the others as before. -/
theorem lookup_set (n? : Option Node) (d : Directory) (name other : String) :
    (d.set n? [name]).lookup other = if other = name then n? else d.lookup other := by
  cases n? with
  | none => exact lookup_remove d name other
  | some n => exact lookup_put d name other n

/-- Something further down is put into the directory that is on the way. -/
theorem set_of_directory {d inner : Directory} {key : String}
    (h : d.lookup key = some (.directory inner)) (n? : Option Node) (front : Location)
    (name : String) : d.set n? (key :: front ++ [name]) =
      d.put key (.directory (Directory.set n? inner (front ++ [name]))) := by
  cases front with
  | nil => simp only [List.cons_append, List.nil_append, set, h]
  | cons next front => simp only [List.cons_append, set, h]

/-- Only a directory has something below it. -/
theorem exists_directory_of_sight {d : Directory} {key : String} {front : Location}
    (h : (d.node? (key :: front)).map Node.sight = some .directory) :
    ∃ inner, d.lookup key = some (.directory inner) := by
  cases hlookup : d.lookup key with
  | none => exact absurd h (by simp [node?_of_missing hlookup])
  | some n =>
    cases n with
    | directory inner => exact ⟨inner, rfl⟩
    | file number | link target =>
      rw [node?_of_other hlookup rfl] at h
      split at h <;> exact absurd h (by simp [Node.sight])

/-- What is seen when something has been put under a name, or nothing. -/
theorem sight_set_singleton {d : Directory} {name : String} {n? : Option Node}
    (hbelow : ∀ key rest, d.node? (name :: key :: rest) = none)
    (hn : ∀ n ∈ n?, n.inside = []) (other : Location) :
    ((d.set n? [name]).node? other).map Node.sight =
      if other = [name] then n?.map Node.sight else (d.node? other).map Node.sight := by
  cases other with
  -- the directory itself is there as before
  | nil =>
    rw [if_neg (by simp)]
    simp only [node?, Option.map_some, Node.sight]
  | cons key other =>
    have hlookup := lookup_set n? d name key
    by_cases hkey : key = name
    · subst hkey
      rw [if_pos rfl] at hlookup
      cases other with
      | nil => rw [if_pos rfl, node?_singleton, hlookup]
      | cons next other =>
        rw [if_neg (by simp), hbelow]
        cases n? with
        | none => rw [node?_of_missing hlookup]
        | some n => rw [node?_of_inside hlookup (hn n rfl)]
    · rw [if_neg hkey] at hlookup
      rw [node?_congr hlookup, if_neg (by simp [hkey])]

/-- **What is seen when something has been put in a place, or nothing**, where there was nothing
below the place before and is nothing below it afterwards. -/
theorem sight_set {d : Directory} {front : Location} {name : String} {n? : Option Node}
    (hfront : (d.node? front).map Node.sight = some .directory)
    (hbelow : ∀ key rest, d.node? (front ++ name :: key :: rest) = none)
    (hn : ∀ n ∈ n?, n.inside = []) (other : Location) :
    ((d.set n? (front ++ [name])).node? other).map Node.sight =
      if other = front ++ [name] then n?.map Node.sight else (d.node? other).map Node.sight := by
  induction front generalizing d other with
  | nil => exact sight_set_singleton hbelow hn other
  | cons key front ih =>
    obtain ⟨inner, hlookup⟩ := exists_directory_of_sight hfront
    rw [node?_of_directory hlookup] at hfront
    have hinner (next : String) (rest : Location) :
        Directory.node? inner (front ++ name :: next :: rest) = none := by
      rw [← node?_of_directory hlookup, ← List.cons_append]
      exact hbelow next rest
    rw [set_of_directory hlookup]
    cases other with
    | nil =>
      rw [if_neg (by simp)]
      simp only [node?, Option.map_some, Node.sight]
    | cons place other =>
      have hput := lookup_put d key place (.directory (Directory.set n? inner (front ++ [name])))
      by_cases hkey : place = key
      · subst hkey
        rw [if_pos rfl] at hput
        rw [node?_of_directory hput, node?_of_directory hlookup, ih hfront hinner]
        simp only [List.cons_append, List.cons.injEq, true_and]
      · rw [if_neg hkey] at hput
        rw [node?_congr hput, if_neg (by simp [hkey])]

end Directory

namespace FileTree

variable {t : FileTree}

/-- **What is seen at a location.** -/
def sight? (t : FileTree) (loc : Location) : Option Sight :=
  (t.node? loc).map Node.sight

/-! ### Where a cursor stands -/

/-- The cursors that one comes to in a tree. -/
inductive Stands (t : FileTree) : Cursor → Prop
  /-- At the root. -/
  | top : Stands t t.top
  /-- In a directory that is in one where one can stand. -/
  | down {c : Cursor} {name : String} {inner : Directory} (h : Stands t c)
      (hlookup : c.entries.lookup name = some (.directory inner)) : Stands t (c.down name inner)

end FileTree

namespace Cursor

theorem location_down (c : Cursor) (name : String) (inner : Directory) :
    (c.down name inner).location = c.location ++ [name] := by
  simp only [location, down, List.map_cons, List.reverse_cons]

theorem location_up (c : Cursor) : c.up.location = c.location.dropLast := by
  obtain ⟨entries, above⟩ := c
  cases above with
  | nil => rfl
  | cons entry above => simp [location, up]

end Cursor

namespace FileTree

variable {t : FileTree}

namespace Stands

variable {c : Cursor}

theorem up (h : t.Stands c) : t.Stands c.up := by
  cases h with
  | top => exact .top
  | down h hlookup => exact h

/-- From where a cursor stands one sees what is there in the tree. -/
theorem node? (h : t.Stands c) (rest : Location) :
    t.node? (c.location ++ rest) = c.entries.node? rest := by
  induction h generalizing rest with
  | top => rfl
  | @down c name inner _ hlookup ih =>
    rw [Cursor.location_down, List.append_assoc, List.singleton_append, ih,
      Directory.node?_of_directory hlookup]
    rfl

theorem sight? (h : t.Stands c) (name : String) :
    t.sight? (c.location ++ [name]) = (c.entries.lookup name).map Node.sight := by
  rw [FileTree.sight?, h.node?, Directory.node?_singleton]

theorem follow (h : t.Stands c) (loc : Location) : t.Stands (c.follow loc) := by
  induction loc generalizing c with
  | nil => exact h
  | cons name loc ih =>
    simp only [Cursor.follow]
    split
    · rename_i inner hlookup
      exact ih (h.down hlookup)
    · exact h

end Stands

/-- The cursor where a path starts stands in the tree. -/
theorem stands_startOf (t : FileTree) (path : String) : t.Stands (t.startOf path) := by
  unfold startOf
  split
  · exact .top
  · exact Stands.top.follow _

/-- How far one comes from a location on through directories. -/
def trail (see : Location → Option Sight) : Location → Location → Location
  | loc, [] => loc
  | loc, name :: rest =>
    if see (loc ++ [name]) = some .directory then trail see (loc ++ [name]) rest else loc

theorem Stands.location_follow {c : Cursor} (h : t.Stands c) (loc : Location) :
    (c.follow loc).location = trail t.sight? c.location loc := by
  induction loc generalizing c with
  | nil => rfl
  | cons name loc ih =>
    rw [trail, h.sight?, Cursor.follow]
    cases hlookup : c.entries.lookup name with
    | none => simp
    | some n =>
      cases n with
      | directory inner =>
        simp only [Option.map_some, Node.sight, if_true]
        rw [ih (h.down hlookup), Cursor.location_down]
      | file number | link target => simp [Node.sight]

/-- It depends on where there are directories. -/
theorem trail_congr {see see' : Location → Option Sight}
    (h : ∀ loc, see' loc = some .directory ↔ see loc = some .directory) (loc rest : Location) :
    trail see' loc rest = trail see loc rest := by
  induction rest generalizing loc with
  | nil => rfl
  | cons name rest ih => simp only [trail, h, ih]

/-- Where a path starts. -/
theorem location_startOf (t : FileTree) (path : String) :
    (t.startOf path).location =
      if isAbsolute path then [] else trail t.sight? [] t.workingDirectory := by
  rw [startOf]
  split
  · rfl
  · exact Stands.top.location_follow _

/-- What is seen everywhere in a tree: whatever there is, it is in a directory. -/
structure IsTree (see : Location → Option Sight) : Prop where
  /-- There is a directory at the root. -/
  root : see [] = some .directory
  /-- There is a directory above everything. -/
  above : ∀ loc name, see (loc ++ [name]) ≠ none → see loc = some .directory

theorem isTree_sight? (t : FileTree) : IsTree t.sight? where
  root := rfl
  above := fun loc name h => Directory.sight_above name fun hnone =>
    h (by simp only [sight?, node?, hnone, Option.map_none])

/-- There are directories all the way to everything. -/
theorem IsTree.directory_of_append {see : Location → Option Sight} (htree : IsTree see)
    {loc more : Location} (hmore : more ≠ []) (h : see (loc ++ more) ≠ none) :
    see loc = some .directory := by
  induction more generalizing loc with
  | nil => exact absurd rfl hmore
  | cons name more ih =>
    refine htree.above loc name ?_
    rw [List.append_cons] at h
    cases more with
    | nil => rwa [List.append_nil] at h
    | cons next more => simp [ih (List.cons_ne_nil next more) h]

/-! ### Putting something in a place -/

/-- **What is seen when something has been put in a place, or nothing**, where nothing is below. -/
theorem sight?_set {front : Location} {name : String} {n? : Option Node}
    (hfront : t.sight? front = some .directory)
    (hthere : t.sight? (front ++ [name]) ≠ some .directory) (hn : ∀ n ∈ n?, n.inside = [])
    (other : Location) :
    FileTree.sight? { t with root := t.root.set n? (front ++ [name]) } other =
      if other = front ++ [name] then n?.map Node.sight else t.sight? other := by
  refine Directory.sight_set hfront (fun key rest => ?_) hn other
  cases hnode : t.root.node? (front ++ name :: key :: rest) with
  | none => rfl
  | some n =>
    refine absurd (t.isTree_sight?.directory_of_append (List.cons_ne_nil key rest) ?_) hthere
    rw [List.append_assoc, sight?, node?]
    simp [hnode]

/-- **After a removal what is seen is what was seen before, but for one location.** -/
theorem sight?_erase {loc : Location} {n : Node} (h : t.node? loc = some n)
    (hn : n.isDirectory = false) (other : Location) :
    (t.erase loc).sight? other = if other = loc then none else t.sight? other := by
  have hsight : t.sight? loc = some n.sight := by rw [sight?, h, Option.map_some]
  have hdir : n.sight ≠ .directory := by
    cases n with
    | directory inner => exact absurd hn (by simp [Node.isDirectory])
    | file number | link target => simp [Node.sight]
  rcases List.eq_nil_or_concat loc with rfl | ⟨front, name, rfl⟩
  · exact absurd (Option.some.inj (hsight.symm.trans t.isTree_sight?.root)) hdir
  · rw [List.concat_eq_append] at hsight ⊢
    exact sight?_set (t.isTree_sight?.above front name (by simp [hsight]))
      (by rw [hsight]; exact fun heq => hdir (Option.some.inj heq)) (by simp) other

/-! ### A walk by what is seen -/

/-- What becomes of a name for which one need not look: it is idle or leads up, or nothing can
have it. -/
def skip (purpose : Purpose) (loc : Location) (name : String) (rest : List String) :
    Option (Except IoError Location) :=
  if isIdle name then some (.ok loc)
  else if name = ".." then some (.ok loc.dropLast)
  else if purpose = .write ∧ rest.all (· = "") ∧ rest ≠ [] then some (.error .isDirectory)
  else if nameLimit < (Bytes.ofText name).length then some (.error .nameTooLong)
  else none

/-- What to do about what is seen. -/
inductive Turn
  /-- Go on from that directory. -/
  | on
  /-- Go on along that path, and then as before. -/
  | via (target : String)
  /-- Go no further. -/
  | stop (answer : Except IoError Location)

/-- What to do about what is seen at a place, with so many names to come. -/
def turn (purpose : Purpose) (place : Location) (rest : List String) : Option Sight → Turn
  | some .directory => .on
  | some (.link target) =>
    if rest.all (· = "") ∧ purpose = .name then .stop (.ok place) else .via target
  | some (.file _) =>
    if rest = [] ∨ (rest.all (· = "") ∧ purpose = .name) then .stop (.ok place)
    else .stop (.error .notDirectory)
  | none =>
    if rest.all (· = "") ∧ purpose ≠ .find then .stop (.ok place) else .stop (.error .notFound)

/-- Where a path written in a link leads on from. -/
def relay (loc : Location) (target : String) : Location :=
  if isAbsolute target then [] else loc

/-- What comes of a walk, and where one looked on the way. -/
structure Trip where
  /-- The locations at which one looked. -/
  places : List Location
  /-- What comes of it. -/
  answer : Except IoError Location

/-- The trip with one more look before it. -/
def Trip.after (trip : Trip) (place : Location) : Trip :=
  { trip with places := place :: trip.places }

/-- **A walk along names, by what is seen at each location**, through at most so many links. -/
def lead (see : Location → Option Sight) (purpose : Purpose) : Nat → Location → List String → Trip
  | _, loc, [] => ⟨[], .ok loc⟩
  | links, loc, name :: rest =>
    match skip purpose loc name rest with
    | some (.ok loc) => lead see purpose links loc rest
    | some (.error e) => ⟨[], .error e⟩
    | none =>
      match turn purpose (loc ++ [name]) rest (see (loc ++ [name])) with
      | .on => (lead see purpose links (loc ++ [name]) rest).after (loc ++ [name])
      | .via target =>
        match links with
        | 0 => ⟨[loc ++ [name]], .error .tooManyLinks⟩
        | links + 1 =>
          (lead see purpose links (relay loc target) (pathNames target ++ rest)).after
            (loc ++ [name])
      | .stop answer => ⟨[loc ++ [name]], answer⟩
termination_by links _ names => (links, names.length)

section Lead

variable {see : Location → Option Sight} {purpose : Purpose} {links : Nat} {loc : Location}
  {name : String} {rest : List String}

theorem lead_nil : lead see purpose links loc [] = ⟨[], .ok loc⟩ := by
  rw [lead]

theorem lead_of_skip_ok {loc' : Location} (h : skip purpose loc name rest = some (.ok loc')) :
    lead see purpose links loc (name :: rest) = lead see purpose links loc' rest := by
  rw [lead]
  simp only [h]

theorem lead_of_skip_error {e : IoError} (h : skip purpose loc name rest = some (.error e)) :
    lead see purpose links loc (name :: rest) = ⟨[], .error e⟩ := by
  rw [lead]
  simp only [h]

theorem lead_of_on (h : skip purpose loc name rest = none)
    (hturn : turn purpose (loc ++ [name]) rest (see (loc ++ [name])) = .on) :
    lead see purpose links loc (name :: rest) =
      (lead see purpose links (loc ++ [name]) rest).after (loc ++ [name]) := by
  rw [lead]
  simp only [h, hturn]

theorem lead_of_via_zero {target : String} (h : skip purpose loc name rest = none)
    (hturn : turn purpose (loc ++ [name]) rest (see (loc ++ [name])) = .via target) :
    lead see purpose 0 loc (name :: rest) = ⟨[loc ++ [name]], .error .tooManyLinks⟩ := by
  rw [lead]
  simp only [h, hturn]

theorem lead_of_via {target : String} (h : skip purpose loc name rest = none)
    (hturn : turn purpose (loc ++ [name]) rest (see (loc ++ [name])) = .via target) :
    lead see purpose (links + 1) loc (name :: rest) =
      (lead see purpose links (relay loc target) (pathNames target ++ rest)).after
        (loc ++ [name]) := by
  rw [lead]
  simp only [h, hturn]

theorem lead_of_stop {answer : Except IoError Location} (h : skip purpose loc name rest = none)
    (hturn : turn purpose (loc ++ [name]) rest (see (loc ++ [name])) = .stop answer) :
    lead see purpose links loc (name :: rest) = ⟨[loc ++ [name]], answer⟩ := by
  rw [lead]
  simp only [h, hturn]

end Lead

/-! ### A walk with a cursor -/

/-- A walk depends on where one comes to, up to the first link. -/
theorem walk_congr {purpose : Purpose} {c c' : Cursor} {names names' : List String}
    (h : advance purpose c names = advance purpose c' names') (links : Nat) :
    t.walk purpose links c names = t.walk purpose links c' names' := by
  unfold walk
  rw [h]

theorem walk_of_at {purpose : Purpose} {c : Cursor} {names : List String} {loc : Location}
    (h : advance purpose c names = .ok (.at loc)) (links : Nat) :
    t.walk purpose links c names = .ok loc := by
  unfold walk
  rw [h]

theorem walk_of_error {purpose : Purpose} {c : Cursor} {names : List String} {e : IoError}
    (h : advance purpose c names = .error e) (links : Nat) :
    t.walk purpose links c names = .error e := by
  unfold walk
  rw [h]

/-- A cursor that skips a name stands where one is said to. -/
theorem advance_of_skip_ok {purpose : Purpose} {c : Cursor} {name : String} {rest : List String}
    {loc : Location} (h : skip purpose c.location name rest = some (.ok loc)) :
    ∃ c', (c' = c ∨ c' = c.up) ∧ c'.location = loc ∧
      advance purpose c (name :: rest) = advance purpose c' rest := by
  unfold skip at h
  split at h
  · rename_i hidle
    refine ⟨c, .inl rfl, Except.ok.inj (Option.some.inj h), ?_⟩
    simp only [advance, hidle, if_true]
  split at h
  · rename_i hidle hup
    subst hup
    exact ⟨c.up, .inr rfl, c.location_up.trans (Except.ok.inj (Option.some.inj h)), rfl⟩
  split at h
  · exact absurd h (by simp)
  split at h <;> exact absurd h (by simp)

theorem advance_of_skip_error {purpose : Purpose} {c : Cursor} {name : String}
    {rest : List String} {e : IoError}
    (h : skip purpose c.location name rest = some (.error e)) :
    advance purpose c (name :: rest) = .error e := by
  unfold skip at h
  split at h
  · exact absurd h (by simp)
  split at h
  · exact absurd h (by simp)
  rename_i hidle hup
  split at h
  · rename_i hwrite
    rw [← Except.error.inj (Option.some.inj h)]
    simp only [advance, hidle, hup, Bool.false_eq_true, if_false]
    rw [if_pos hwrite]
  split at h
  · rename_i hwrite hlong
    rw [← Except.error.inj (Option.some.inj h)]
    simp only [advance, hidle, hup, Bool.false_eq_true, if_false]
    rw [if_neg hwrite, if_pos hlong]
  · exact absurd h (by simp)

/-- A cursor that does not skip a name does what there is to do about what it sees. -/
theorem advance_of_skip_none {purpose : Purpose} {c : Cursor} {name : String}
    {rest : List String} (h : skip purpose c.location name rest = none) :
    match turn purpose (c.location ++ [name]) rest ((c.entries.lookup name).map Node.sight) with
    | .on => ∃ inner, c.entries.lookup name = some (.directory inner) ∧
        advance purpose c (name :: rest) = advance purpose (c.down name inner) rest
    | .via target => advance purpose c (name :: rest) = .ok (.link c target rest)
    | .stop answer => advance purpose c (name :: rest) = answer.map Stop.at := by
  unfold skip at h
  split at h
  · exact absurd h (by simp)
  split at h
  · exact absurd h (by simp)
  split at h
  · exact absurd h (by simp)
  split at h
  · exact absurd h (by simp)
  rename_i hidle hup hwrite hlong
  simp only [advance, hidle, hup, Bool.false_eq_true, if_false]
  rw [if_neg hwrite, if_neg hlong]
  cases c.entries.lookup name with
  | none =>
    simp only [Option.map_none, turn]
    by_cases hlast : rest.all (· = "") ∧ purpose ≠ .find
    · simp only [if_pos hlast, Except.map]
    · simp only [if_neg hlast, Except.map]
  | some n =>
    cases n with
    | directory inner => exact ⟨inner, rfl, rfl⟩
    | link target =>
      simp only [Option.map_some, Node.sight, turn]
      by_cases hlast : rest.all (· = "") ∧ purpose = .name
      · simp only [if_pos hlast, Except.map]
      · simp only [if_neg hlast]
    | file number =>
      simp only [Option.map_some, Node.sight, turn]
      by_cases hlast : rest = [] ∨ (rest.all (· = "") ∧ purpose = .name)
      · simp only [if_pos hlast, Except.map]
      · simp only [if_neg hlast, Except.map]

theorem walk_of_link {purpose : Purpose} {c dir : Cursor} {names rest : List String}
    {target : String} (h : advance purpose c names = .ok (.link dir target rest)) (links : Nat) :
    t.walk purpose 0 c names = .error .tooManyLinks ∧
      t.walk purpose (links + 1) c names =
        t.walk purpose links (if isAbsolute target then t.top else dir)
          (pathNames target ++ rest) := by
  constructor
  · unfold walk
    simp only [h]
  · rw [walk]
    simp only [h]

/-- **What a walk comes to depends on what is seen at each location.** -/
theorem walk_eq_lead {c : Cursor} (h : t.Stands c) (purpose : Purpose) (links : Nat)
    (names : List String) :
    t.walk purpose links c names =
      (lead t.sight? purpose links c.location names).answer := by
  generalize hloc : c.location = loc
  fun_induction lead t.sight? purpose links loc names generalizing c with
  | case1 links loc =>
    subst hloc
    have hadvance : advance purpose c [] = .ok (.at c.location) := by rw [advance]
    exact walk_of_at hadvance links
  | case2 links loc name rest loc' hskip ih =>
    subst hloc
    obtain ⟨c', hc', hloc', hadvance⟩ := advance_of_skip_ok hskip
    have hstands : t.Stands c' := by
      rcases hc' with rfl | rfl
      · exact h
      · exact h.up
    rw [walk_congr hadvance, ih hstands hloc']
  | case3 links loc name rest e hskip =>
    subst hloc
    exact walk_of_error (advance_of_skip_error hskip) links
  | case4 links loc name rest hskip hturn ih =>
    subst hloc
    have hadvance := advance_of_skip_none hskip
    rw [← h.sight?, hturn] at hadvance
    obtain ⟨inner, hlookup, hadvance⟩ := hadvance
    rw [walk_congr hadvance]
    exact ih (h.down hlookup) (c.location_down name inner)
  | case5 loc name rest hskip target hturn =>
    subst hloc
    have hadvance := advance_of_skip_none hskip
    rw [← h.sight?, hturn] at hadvance
    exact (walk_of_link hadvance 0).1
  | case6 loc name rest hskip target hturn links ih =>
    subst hloc
    have hadvance := advance_of_skip_none hskip
    rw [← h.sight?, hturn] at hadvance
    rw [(walk_of_link hadvance links).2]
    refine ih ?_ ?_
    · split
      · exact .top
      · exact h
    · rw [relay]
      split <;> rfl
  | case7 links loc name rest hskip answer hturn =>
    subst hloc
    have hadvance := advance_of_skip_none hskip
    rw [← h.sight?, hturn] at hadvance
    cases answer with
    | ok loc => exact walk_of_at hadvance links
    | error e => exact walk_of_error hadvance links

/-- **What a path leads to depends on what is seen at each location.** -/
theorem resolve_eq (t : FileTree) (purpose : Purpose) (path : String) :
    t.resolve purpose path = (checkPath path).bind fun _ =>
      (lead t.sight? purpose linkLimit (t.startOf path).location (pathNames path)).answer := by
  rw [← walk_eq_lead (t.stands_startOf path)]
  rfl

end FileTree

end LogCourier

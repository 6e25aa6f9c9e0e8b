import LogCourier.Proofs.FileTree.Ascent
import LogCourier.Proofs.Settings.File

/-!
# Where settings are loaded from

There are three places where settings may be, and the environment says which. **Whoever loads them
has to do with the first of these places and with no other**
(`LogCourier.Settings.load_touches_one_path`). If there is a file it is read, and nothing is
changed. If there is nothing, a file with the usual settings is made there, and the directories that
it needs; from then on it is that file which is read.

The subtle point is what is meant by nothing. Whether there is a file is asked before the
directories are made, and not again, so if a path leads to a file only when they have been made,
**that file is lost** (`LogCourier.Settings.load_overwrites`). That takes a path which goes up, by
`..`, from where there is no directory; on all others the file that is written is a new one
(`LogCourier.FileTree.WrittenAt.isNew`).

All of this is so for any codec that can be relied on (`LogCourier.Document.Codec.Faithful`).
-/

namespace LogCourier

/-- **A file that has been created at a path**, with those bytes. -/
structure FileTree.Created (t : FileTree) (path : String) (bs : Bytes) (t' : FileTree) : Prop where
  /-- There is a new file where nothing was, and it has the name that the path gives it. -/
  file : ∃ loc, t.sight? loc = none ∧ t'.resolve .name path = .ok loc ∧
    t'.sight? loc = some (.file t.contents.length)
  /-- It has those bytes, and all other files have the bytes that they had. -/
  contents_eq : t'.contents = t.contents ++ [bs]
  /-- The directory for it is there. -/
  parent : ∀ parent ∈ (above path).head?, t'.isDirectory parent = true

namespace Settings

/-! ### Places -/

/-- The places where settings may be, each counting only if those before it are missing. -/
def Environment.locations (env : Environment) : List String :=
  let inside (dir : String) : String :=
    FileTree.joinPath (FileTree.joinPath dir "dltrouter") "dltrouter.toml"
  env.explicit.toList.filter (· ≠ "") ++
    (env.configHome.toList.filter (· ≠ "")).map inside ++
    [inside (FileTree.joinPath (env.home.getD "/tmp") ".config")]

/-- **Settings are in the first of the places where they may be.** -/
theorem Environment.head?_locations (env : Environment) : env.locations.head? = some env.path := by
  obtain ⟨explicit, configHome, home⟩ := env
  have hnone {s : Option String} (h : nonempty? s = none) : s.toList.filter (· ≠ "") = [] := by
    cases s <;> simp_all [nonempty?, Option.filter]
  have hsome {s : Option String} {x : String} (h : nonempty? s = some x) :
      s.toList.filter (· ≠ "") = [x] := by
    obtain ⟨rfl, hx⟩ := Option.filter_eq_some_iff.mp h
    exact List.filter_cons_of_pos hx
  simp only [locations, path]
  cases hexplicit : nonempty? explicit with
  | some x => rw [hsome hexplicit]; rfl
  | none =>
    rw [hnone hexplicit]
    cases hconfig : nonempty? configHome with
    | some dir => rw [hsome hconfig]; rfl
    | none => rw [hnone hconfig]; rfl

/-! ### What loading does -/

section Loading

variable {toml : Document.Codec} {t t' : FileTree} {path : String}

theorem makeParent_eq (path : String) (t : FileTree) :
    makeParent path t = t.makeDirectories (FileTree.above path) := by
  rw [makeParent, FileTree.above]
  cases FileTree.parentPath? path <;> rfl

/-- The usual settings have a written form. -/
theorem exists_text_default (htoml : toml.Faithful) : ∃ text, default.text toml = .ok text := by
  have hstorable : default.Storable := ⟨by decide, by decide, by decide, by decide⟩
  obtain ⟨text, htext, -⟩ := hstorable.exists_text htoml
  exact ⟨text, htext⟩

/-- Where there is something it is read. -/
theorem loadFrom_of_pathExists (h : t.pathExists path = true) :
    loadFrom toml path t = ((readFrom toml path t).map (·, []), t) := by
  rw [loadFrom, if_pos h]

/-- **Where there is nothing directories are made, and then a file is written**, if both can be. -/
theorem loadFrom_of_missing (htoml : toml.Faithful) (h : t.pathExists path = false) :
    ∃ t', FileTree.Built (FileTree.above path) t t' ∧
      ((¬ CanSave path t ∧ ∃ e, loadFrom toml path t = (.error e, t')) ∨
        ∃ text t'', default.text toml = .ok text ∧ makeParent path t = (.ok (), t') ∧
          t'.writeFile path (Bytes.ofText text) = .ok t'' ∧
          loadFrom toml path t = (.ok (default, [.settingsSaved path]), t'')) := by
  obtain ⟨text, htext⟩ := exists_text_default htoml
  have hbuilt : FileTree.Built (FileTree.above path) t
      (t.makeDirectories (FileTree.above path)).2 :=
    FileTree.built_makeDirectories t fun _ hpart => hpart
  rw [← makeParent_eq] at hbuilt
  cases hparent : makeParent path t with
  | mk result t' =>
    rw [hparent] at hbuilt
    refine ⟨t', hbuilt, ?_⟩
    have hmissing : ¬ t.pathExists path = true := by simp [h]
    cases result with
    | error e =>
      have hsave : default.save toml path t = (.error (.saving e), t') := by
        simp only [save, hparent]
      refine .inl ⟨?_, _, by rw [loadFrom, if_neg hmissing, hsave]⟩
      rintro ⟨t₁, bs, t₂, hok, -⟩
      exact absurd (hparent.symm.trans hok) (by simp)
    | ok _ =>
      cases hwrite : t'.writeFile path (Bytes.ofText text) with
      | ok t'' =>
        exact .inr ⟨text, t'', htext, rfl, hwrite,
          by rw [loadFrom, if_neg hmissing, save_of_text hparent htext hwrite]⟩
      | error e =>
        have hsave : default.save toml path t = (.error (.saving e), t') := by
          simp only [save, hparent, htext, hwrite]
        refine .inl ⟨?_, _, by rw [loadFrom, if_neg hmissing, hsave]⟩
        rintro ⟨t₁, bs, t₂, hok, hwrite'⟩
        obtain rfl : t' = t₁ := congrArg Prod.snd (hparent.symm.trans hok)
        obtain ⟨t₃, ht₃⟩ := FileTree.exists_writeFile hwrite' (Bytes.ofText text)
        exact absurd (hwrite.symm.trans ht₃) (by simp)

/-- **Whoever loads settings is busy with one path**, and nothing is amiss afterwards. -/
theorem touched_of_loadFrom (htoml : toml.Faithful) (hsound : t.Sound) (path : String) :
    t.Touched path (loadFrom toml path t).2 ∧ (loadFrom toml path t).2.Sound := by
  cases hexists : t.pathExists path with
  | true =>
    rw [loadFrom_of_pathExists hexists]
    exact ⟨.refl t path, hsound⟩
  | false =>
    obtain ⟨t', hbuilt, hcases⟩ := loadFrom_of_missing htoml hexists
    have hsound' := (hbuilt.grown hsound.home).sound hsound
    rcases hcases with ⟨-, e, hload⟩ | ⟨text, t'', -, -, hwrite, hload⟩
    · rw [hload]
      exact ⟨FileTree.touched_of_built hsound.home hbuilt, hsound'⟩
    · obtain ⟨loc, number, hwritten⟩ := FileTree.exists_writtenAt hsound' hwrite
      rw [hload]
      exact ⟨FileTree.touched_of_written hsound.home hbuilt hwritten, hwritten.sound hsound'⟩

/-- Where a path leads to the same the same is loaded. -/
theorem loadFrom_of_alike (h : t.Alike path t') (hexists : t.pathExists path = true) :
    loadFrom toml path t' = ((loadFrom toml path t).1, t') := by
  rw [loadFrom_of_pathExists hexists, loadFrom_of_pathExists (h.pathExists_eq.trans hexists),
    readFrom, readFrom, h.readText_eq]

/-- **If loading goes well where there is nothing, the usual settings have been written.** -/
theorem written_of_loadFrom (htoml : toml.Faithful) (hmissing : t.pathExists path = false)
    {s : Settings} {told : List Event} (h : (loadFrom toml path t).1 = .ok (s, told)) :
    s = default ∧ ∃ text t', default.text toml = .ok text ∧
      FileTree.Built (FileTree.above path) t t' ∧ makeParent path t = (.ok (), t') ∧
      t'.writeFile path (Bytes.ofText text) = .ok (loadFrom toml path t).2 := by
  obtain ⟨t', hbuilt, ⟨-, e, hload⟩ | ⟨text, t'', htext, hparent, hwrite, hload⟩⟩ :=
    loadFrom_of_missing htoml hmissing
  · rw [hload] at h
    exact absurd h (by simp)
  · rw [hload] at h ⊢
    obtain ⟨rfl, -⟩ := Prod.mk.inj (Except.ok.inj h)
    exact ⟨rfl, text, t', htext, hbuilt, hparent, hwrite⟩

/-- Then a file has been created there, unless the path goes up from nowhere. -/
theorem created_of_writeFile {t'' : FileTree} (hsound : t.Sound)
    (hbuilt : FileTree.Built (FileTree.above path) t t')
    (hparent : makeParent path t = (.ok (), t')) {bs : Bytes}
    (hwrite : t'.writeFile path bs = .ok t'') (hlstat : t.lstat? path = none)
    (hback : ¬ t.Backtracks path) : t.Created path bs t'' := by
  have hgrown := hbuilt.grown hsound.home
  obtain ⟨loc, number, hwritten⟩ := FileTree.exists_writtenAt (hgrown.sound hsound) hwrite
  obtain ⟨hfree, hname⟩ := hwritten.isNew hsound.home hbuilt hlstat hback
  obtain ⟨rfl, hcontents⟩ := hwritten.new hfree
  rw [hgrown.contents_eq] at hcontents
  refine ⟨⟨loc, ?_, hname, ?_⟩, hcontents, fun parent hhead => ?_⟩
  · by_contra hthere
    obtain ⟨sight, hsight⟩ := Option.ne_none_iff_exists'.mp hthere
    exact absurd (hfree.symm.trans (hgrown.kept loc sight hsight)) (by simp)
  · rw [hwritten.sight?_eq, if_pos rfl, hgrown.contents_eq]
  · obtain ⟨-, hdirs⟩ := FileTree.grown_of_makeDirectories hsound.home (FileTree.above path)
    rw [← makeParent_eq, hparent] at hdirs
    have hdir := FileTree.isDirectory_iff.mp (hdirs rfl parent hhead)
    exact FileTree.isDirectory_iff.mpr
      (hwritten.extends.stat (hgrown.home hsound.home) hdir)

end Loading

/-! ### A path that goes up from nowhere -/

theorem pathNames_file : pathNames "n/../f" = ["n", "..", "f"] := by
  rw [pathNames_eq]
  rfl

theorem pathNames_up : pathNames "n/.." = ["n", ".."] := by
  rw [pathNames_eq]
  rfl

theorem pathNames_down : pathNames "n" = ["n"] := by
  rw [pathNames_eq]
  rfl

/-- The directories that the file at `n/../f` needs. -/
theorem above_file : FileTree.above "n/../f" = ["n/..", "n"] := by
  have hfile : FileTree.parentPath? "n/../f" = some "n/.." := by
    rw [FileTree.parentPath?, show FileTree.splitStart "n/../f" = ("", "n/../f") from rfl]
    simp only [pathNames_file]
    rfl
  have hup : FileTree.parentPath? "n/.." = some "n" := by
    rw [FileTree.parentPath?, show FileTree.splitStart "n/.." = ("", "n/..") from rfl]
    simp only [pathNames_up]
    rfl
  have hdown : FileTree.parentPath? "n" = some "" := by
    rw [FileTree.parentPath?, show FileTree.splitStart "n" = ("", "n") from rfl]
    simp only [pathNames_down]
    rfl
  rw [FileTree.above, hfile]
  simp only [FileTree.ancestors, show "n/..".length = 4 from rfl, FileTree.ancestors.go, hup, hdown]
  simp

/-- Whatever bytes the file `f` has, while `n` is missing there is nothing at `n/../f`. -/
theorem lstat?_file (bs : Bytes) :
    (FileTree.empty.insertFile ["f"] bs).lstat? "n/../f" = none := by
  simp only [FileTree.lstat?, FileTree.resolve, pathNames_file]
  rfl

/-- So `n` is made. -/
theorem makeParent_file (bs : Bytes) : makeParent "n/../f" (FileTree.empty.insertFile ["f"] bs) =
    (.ok (), (FileTree.empty.insertFile ["f"] bs).insert ["n"] (.directory [])) := by
  set t := FileTree.empty.insertFile ["f"] bs with ht
  set t' := t.insert ["n"] (.directory []) with ht'
  have hup : t.makeDirectory "n/.." = .error .notFound := by
    simp only [ht, FileTree.makeDirectory, FileTree.hasProperName, FileTree.checkParent,
      FileTree.trimmedNames, pathNames_up]
    rfl
  have hdown : t.makeDirectory "n" = .ok t' := by
    simp only [ht', ht, FileTree.makeDirectory, FileTree.hasProperName, FileTree.trimmedNames,
      pathNames_down, FileTree.resolve]
    rfl
  have hagain : t'.makeDirectory "n/.." = .error .fileExists := by
    simp only [ht', ht, FileTree.makeDirectory, FileTree.hasProperName, FileTree.checkParent,
      FileTree.trimmedNames, pathNames_up]
    rfl
  have hthere : t'.isDirectory "n/.." = true := by
    simp only [ht', ht, FileTree.isDirectory, FileTree.stat, FileTree.resolve, pathNames_up]
    rfl
  rw [makeParent_eq, above_file]
  simp [FileTree.makeDirectories, hup, hdown, FileTree.makeDirectories.settle, hagain, hthere]

/-- And then the path leads to the file `f`, which is overwritten. -/
theorem exists_loadFrom_file {toml : Document.Codec} (htoml : toml.Faithful) (bs : Bytes) :
    ∃ text t', default.text toml = .ok text ∧
    loadFrom toml "n/../f" (FileTree.empty.insertFile ["f"] bs) =
      (.ok (default, [.settingsSaved "n/../f"]), t') ∧
    t'.readFile "f" = .ok (Bytes.ofText text) := by
  obtain ⟨text, htext⟩ := exists_text_default htoml
  set t' := (FileTree.empty.insertFile ["f"] bs).insert ["n"] (.directory []) with ht'
  have hwrite : t'.writeFile "n/../f" (Bytes.ofText text) =
      .ok (t'.setContent 0 (Bytes.ofText text)) := by
    simp only [ht', FileTree.writeFile, FileTree.resolve, pathNames_file]
    rfl
  have hsave := save_of_text (makeParent_file bs) htext hwrite
  have hmissing := FileTree.pathExists_of_lstat?_eq_none (lstat?_file bs)
  refine ⟨text, _, htext, by rw [loadFrom, if_neg (by simp [hmissing]), hsave], ?_⟩
  rw [ht']
  cbv

/-! ### One place -/

/-- **Settings are loaded from one place, and whatever else there is does not matter.**

It is the first of the places that the environment names, where an empty text names none. Whatever
comes of it, all that was there is there, what is new is the file at that place or a directory above
it, and all other files have the bytes that they had.

If there is something, nothing is changed at all, and what is loaded depends on what is seen on the
way and on the bytes of that file alone.

If there is nothing it goes well exactly if there is a directory for a file, or one can be made, and
a file can be written. Then the usual settings are loaded, the file has their written form, and
whoever loads settings again loads these and changes nothing. If the path itself stands for nothing,
not even for a link, the file is a new one, unless the path goes up from where there is no
directory. -/
theorem load_touches_one_path {toml : Document.Codec} (htoml : toml.Faithful) {t : FileTree}
    (hsound : t.Sound) (env : Environment) :
    env.locations.head? = some env.path ∧
    t.Touched env.path (load toml env t).2 ∧ (load toml env t).2.Sound ∧
    (t.pathExists env.path = true →
      (load toml env t).2 = t ∧
        ∀ t', t.Alike env.path t' → load toml env t' = ((load toml env t).1, t')) ∧
    (t.pathExists env.path = false →
      ((∃ loaded, (load toml env t).1 = .ok loaded) ↔ CanSave env.path t) ∧
      ∀ s told, (load toml env t).1 = .ok (s, told) → s = default ∧
        load toml env (load toml env t).2 = (.ok (default, []), (load toml env t).2) ∧
        ∃ text, default.text toml = .ok text ∧
          (load toml env t).2.readFile env.path = .ok (Bytes.ofText text) ∧
          (t.lstat? env.path = none → ¬ t.Backtracks env.path →
            t.Created env.path (Bytes.ofText text) (load toml env t).2)) ∧
    (t.lstat? env.path = none → t.pathExists env.path = false) := by
  obtain ⟨htouched, hsound'⟩ := touched_of_loadFrom htoml hsound env.path
  refine ⟨env.head?_locations, htouched, hsound', fun hexists => ?_,
    fun hmissing => ⟨?_, fun s told h => ?_⟩, FileTree.pathExists_of_lstat?_eq_none⟩
  · refine ⟨?_, fun t' halike => loadFrom_of_alike halike hexists⟩
    rw [load, loadFrom_of_pathExists hexists]
  · obtain ⟨t', -, ⟨hcannot, e, hload⟩ | ⟨text, t'', -, hparent, hwrite, hload⟩⟩ :=
      loadFrom_of_missing htoml hmissing
    · rw [load, hload]
      exact ⟨fun ⟨_, h⟩ => absurd h (by simp), fun h => absurd h hcannot⟩
    · rw [load, hload]
      exact ⟨fun _ => ⟨t', _, t'', hparent, hwrite⟩, fun _ => ⟨_, rfl⟩⟩
  · obtain ⟨hs, text, t', htext, hbuilt, hparent, hwrite⟩ := written_of_loadFrom htoml hmissing h
    have hgrown := hbuilt.grown hsound.home
    have hread := (FileTree.written_of_writeFile (hgrown.sound hsound) hwrite).readFile
    exact ⟨hs, loadFrom_of_readFile hread (ofText?_of_text htoml rfl rfl htext), text, htext, hread,
      created_of_writeFile hsound hbuilt hparent hwrite⟩

/-- One file is there and is read as TOML, whatever else there is; another one is made. -/
theorem load_touches_one_path_two :
    let t := FileTree.empty.insertFile ["f"] (Bytes.ofText "log_level = 'x'")
    let there : Environment := ⟨some "/f", some "/d", none⟩
    let missing : Environment := ⟨some "/d/c", some "", none⟩
    let toml := Toml.codec
    toml.Faithful ∧ t.Sound ∧
      (t.pathExists there.path = true ∧ (load toml there t).2 = t ∧
        t.Alike there.path (t.insertFile ["g"] []) ∧
        load toml there (t.insertFile ["g"] []) = ((load toml there t).1, t.insertFile ["g"] [])) ∧
      t.lstat? missing.path = none ∧ ¬ t.Backtracks missing.path ∧ CanSave missing.path t ∧
      ∃ told text, (load toml missing t).1 = .ok (default, told) ∧ default.text toml = .ok text ∧
        t.Created missing.path (Bytes.ofText text) (load toml missing t).2 ∧
        load toml missing (load toml missing t).2 =
          (.ok (default, []), (load toml missing t).2) := by
  intro t there missing toml
  have htoml : toml.Faithful := Toml.faithful_codec
  have hsound : t.Sound := FileTree.sound_insertFile "f" _
  have hstat : t.stat there.path = .ok (.file 0) := by
    unfold t there
    cbv
  have hexists : t.pathExists there.path = true := by
    rw [FileTree.pathExists, hstat]
    rfl
  have halike : t.Alike there.path (t.insertFile ["g"] []) := by
    have hplaces : t.places there.path = [["f"]] := by
      unfold t there
      cbv
    refine ⟨by unfold t there; cbv, fun place hplace => ?_, fun number hnumber => ?_⟩
    · rw [hplaces, List.mem_singleton] at hplace
      rw [hplace]
      rfl
    · obtain rfl := Node.file.inj (Except.ok.inj (hstat.symm.trans hnumber))
      rfl
  have hlstat : t.lstat? missing.path = none := by
    unfold t missing
    cbv
  have hback : ¬ t.Backtracks missing.path := by
    rintro ⟨front, rest, hnames, -⟩
    have hnone : ".." ∉ pathNames missing.path := by
      rw [show pathNames missing.path = ["", "d", "c"] by cbv]
      decide
    exact hnone (by simp [hnames])
  have hsave : CanSave missing.path t := by
    refine ⟨t.insert ["d"] (.directory []), [],
      (t.insert ["d"] (.directory [])).insertFile ["d", "c"] [], ?_, ?_⟩
    · unfold t missing
      cbv
    · unfold t missing
      cbv
  obtain ⟨-, -, -, hthere, -⟩ := load_touches_one_path htoml hsound there
  obtain ⟨-, -, -, -, hmissing, hnothing⟩ := load_touches_one_path htoml hsound missing
  obtain ⟨hiff, hloaded⟩ := hmissing (hnothing hlstat)
  obtain ⟨⟨s, told⟩, hok⟩ := hiff.mpr hsave
  obtain ⟨rfl, hagain, text, htext, -, hcreated⟩ := hloaded s told hok
  exact ⟨htoml, hsound, ⟨hexists, (hthere hexists).1, halike, (hthere hexists).2 _ halike⟩, hlstat,
    hback, hsave, told, text, hok, htext, hcreated hlstat hback, hagain⟩

/-- **A file is lost**: it names a control unit, and when settings have been loaded from a path that
comes by nothing and goes up from there, it does not. That is so with any codec that can be relied
on and reads the file as it should, and TOML does. -/
theorem load_overwrites :
    let unit := "ecu_id='F'"
    let t := FileTree.empty.insertFile ["f"] (Bytes.ofText unit)
    let env : Environment := ⟨some "n/../f", none, none⟩
    t.Sound ∧ t.pathExists env.path = false ∧ t.lstat? env.path = none ∧
      t.readText "f" = .ok unit ∧
      (Toml.codec.Faithful ∧ Toml.codec.read? unit = some (.table [("ecu_id", .text "F")])) ∧
      ∀ toml : Document.Codec, toml.Faithful →
        toml.read? unit = some (.table [("ecu_id", .text "F")]) →
        ∃ told text t', load toml env t = (.ok (default, told), t') ∧
          t'.readText "f" = .ok text ∧ text ≠ unit := by
  intro unit t env
  have hlstat := lstat?_file (Bytes.ofText unit)
  have htext : t.readText "f" = .ok unit := by
    have hfile : t.readFile "f" = .ok (Bytes.ofText unit) := by
      unfold t unit
      cbv
    simp only [FileTree.readText, hfile, bind, Except.bind, Bytes.text?_ofText]
  have hread : Toml.codec.read? unit = some (.table [("ecu_id", .text "F")]) := by
    unfold unit
    cbv
  refine ⟨FileTree.sound_insertFile "f" _, FileTree.pathExists_of_lstat?_eq_none hlstat, hlstat,
    htext, ⟨Toml.faithful_codec, hread⟩, fun toml htoml hunit => ?_⟩
  obtain ⟨text, t', hdefault, hload, hfile⟩ := exists_loadFrom_file htoml (Bytes.ofText unit)
  have hlost : t'.readText "f" = .ok text := by
    simp only [FileTree.readText, hfile, bind, Except.bind, Bytes.text?_ofText]
  refine ⟨_, text, t', hload, hlost, ?_⟩
  -- the usual settings name another control unit
  rintro rfl
  have hother : (ofDocument? false (.table [("ecu_id", .text "F")])).map (·.ecu.chars) =
      some [70] := by cbv
  have hdefault' := ofText?_of_text htoml rfl rfl hdefault
  rw [ofText?, hunit, Option.bind_eq_bind, Option.bind_some] at hdefault'
  rw [hdefault'] at hother
  exact absurd (Option.some.inj hother) (by decide)

end Settings

end LogCourier

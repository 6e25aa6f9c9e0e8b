import LogCourier.Proofs.FileTree.Addition
import LogCourier.Proofs.Settings.Codec
import LogCourier.Proofs.Settings.Overlay
import LogCourier.Proofs.SocketAddress

/-!
# Settings that are kept in a file

Settings that are written to a file are read from it again (`LogCourier.Settings.save_and_load`),
with any codec that can be relied on (`LogCourier.Document.Codec.Faithful`). There is one thing that
can go wrong with the settings themselves: such a codec has no number of more than sixty-three bits,
and four of the settings have sixty-four (`LogCourier.Settings.Storable`). This is found out
**before the file is touched**, but after the directory for it has been made.

Three things have to be arranged. What is written has to be read as the table it was written for,
which is the business of the codec; the table has to be read as the settings, each of which is said
in it (`LogCourier.Settings.ofDocument?_entries`); and the path has to lead to the file that was
written, whatever it went through to get there (`LogCourier.FileTree.written_of_writeFile`).
-/

namespace LogCourier

/-- Whether an address is one of the older family. -/
def SocketAddress.isV4 : SocketAddress → Bool
  | v4 _ _ => true
  | v6 _ _ _ => false

theorem SocketAddress.ofText?_text {a : SocketAddress} (h : a.isV4 = true) :
    ofText? a.text = some a := by
  cases a with
  | v4 host port => exact ofText?_v4 host port
  | v6 host scope port => exact absurd h (by simp [isV4])

namespace Settings

/-! ### Numbers that can be written -/

/-- **Settings that can be written**: no number in them needs more than sixty-three bits. -/
structure Storable (s : Settings) : Prop where
  /-- Not the bytes of a chunk. -/
  chunkSize : s.transfers.chunkSize.toNat ≤ 2 ^ 63 - 1
  /-- Not the transfers at once. -/
  maxConcurrent : s.transfers.maxConcurrent.toNat ≤ 2 ^ 63 - 1
  /-- Not the transfers that wait. -/
  maxPending : s.transfers.maxPending.toNat ≤ 2 ^ 63 - 1
  /-- Not the length of a pause. -/
  burstMillis : s.transfers.burstMillis.toNat ≤ 2 ^ 63 - 1

/-- A number that needs no more than sixty-three bits is written as it is. -/
theorem isPlain_natural {n : Nat} (h : n ≤ 2 ^ 63 - 1) : (natural n).IsPlain := by
  change -2 ^ 63 ≤ (n : Int) ∧ (n : Int) < 2 ^ 63
  omega

/-- What is written of settings: four texts, and behind them how files are carried. -/
theorem entries_eq_laidOut (s : Settings) : s.entries = Document.laidOut
    [("ecu_id", .text s.ecu.text), ("udp_target", .text s.target.text),
      ("ingress", .text s.ingress.text), ("log_level", .text s.logLevel)]
    [("file_transfer", s.transfers.entries)] :=
  rfl

section Text

variable {toml : Document.Codec} {s : Settings}

/-- **Settings that can be written have a written form**, which is read as their table. -/
theorem Storable.exists_text (h : s.Storable) (htoml : toml.Faithful) :
    ∃ text, s.text toml = .ok text ∧ toml.read? text = some (.table s.entries) := by
  rw [text, entries_eq_laidOut]
  refine htoml.reads _ _ ?_ ?_ ?_
  · exact (by decide : Document.Named
      ["ecu_id", "udp_target", "ingress", "log_level", "file_transfer"])
  · simp [Document.IsPlain]
  · have hburst : s.transfers.burstCount.toNat ≤ 2 ^ 63 - 1 :=
      Nat.le_trans (Nat.le_of_lt s.transfers.burstCount.toNat_lt) (by decide)
    have hnames : Document.Named (s.transfers.entries.map Prod.fst) :=
      (by decide : Document.Named ["enabled", "chunk_size", "max_concurrent_transfers",
        "max_pending_transfers", "burst_count", "burst_interval_ms"])
    refine List.forall_mem_singleton.mpr ⟨hnames, ?_⟩
    simp only [Transfers.entries, List.forall_mem_cons, List.not_mem_nil, false_imp_iff,
      implies_true, and_true]
    exact ⟨trivial, isPlain_natural h.chunkSize, isPlain_natural h.maxConcurrent,
      isPlain_natural h.maxPending, isPlain_natural hburst, isPlain_natural h.burstMillis⟩

/-- **Others have none.** -/
theorem exists_error_of_not_storable (h : ¬ s.Storable) (htoml : toml.Faithful) :
    ∃ message, s.text toml = .error message := by
  rw [text, entries_eq_laidOut]
  have hlarge : ∃ n : Nat, 2 ^ 63 ≤ n ∧ natural n ∈ s.transfers.entries.map Prod.snd := by
    by_contra hnone
    have hsmall {n : Nat} (hmem : natural n ∈ s.transfers.entries.map Prod.snd) :
        n ≤ 2 ^ 63 - 1 := by
      by_contra hlt
      exact hnone ⟨n, by omega, hmem⟩
    exact h ⟨hsmall (by simp [Transfers.entries]), hsmall (by simp [Transfers.entries]),
      hsmall (by simp [Transfers.entries]), hsmall (by simp [Transfers.entries])⟩
  obtain ⟨n, hn, hmem⟩ := hlarge
  exact htoml.refuses _ _ n (by omega) (.inr ⟨_, List.mem_singleton.mpr rfl, hmem⟩)

/-! ### The written form -/

/-- The settings are said in the table that is written for them. -/
theorem ofDocument?_entries (htarget : s.target.isV4 = true) (hingress : s.ingress.isV4 = true) :
    ofDocument? false (.table s.entries) = some s := by
  have htransfers : s.entries.lookup "file_transfer" = some (.table s.transfers.entries) := rfl
  refine ofDocument?_eq_some_iff.mpr ⟨fun d hd => ?_, fun f => ?_⟩
  · rw [htransfers] at hd
    rw [← Option.some.inj hd, tells]
  · cases f with
    | ecu => exact ⟨_, rfl, Id.ofText_of_text s.ecu⟩
    | target => exact ⟨_, rfl, SocketAddress.ofText?_text htarget⟩
    | ingress => exact ⟨_, rfl, SocketAddress.ofText?_text hingress⟩
    | _ => exact rfl

/-- **What is written is read again.** -/
theorem ofText?_of_text (htoml : toml.Faithful) {text : String} (htarget : s.target.isV4 = true)
    (hingress : s.ingress.isV4 = true) (h : s.text toml = .ok text) :
    ofText? toml text = some s := by
  have hstorable : s.Storable := by
    by_contra hnot
    obtain ⟨message, hmessage⟩ := exists_error_of_not_storable hnot htoml
    exact absurd (h.symm.trans hmessage) (by simp)
  obtain ⟨text', htext, hread⟩ := hstorable.exists_text htoml
  obtain rfl : text = text' := Except.ok.inj (h.symm.trans htext)
  rw [ofText?, hread]
  exact ofDocument?_entries htarget hingress

end Text

/-! ### The directory for a file -/

section Parent

variable {t t' t'' : FileTree} {path : String}

/-- Where a file goes directories are made and nothing else. -/
theorem grown_of_makeParent (path : String)
    (hhome : t.sight? t.workingDirectory = some .directory) : t.Grown (makeParent path t).2 := by
  rw [makeParent]
  split
  · exact (FileTree.grown_of_makeDirectories hhome _).1
  · exact .refl t

/-- They are made once. -/
theorem makeParent_again (hhome : t.sight? t.workingDirectory = some .directory)
    (h : makeParent path t = (.ok (), t')) (hmore : t'.Extends t'') :
    makeParent path t'' = (.ok (), t'') := by
  rw [makeParent] at h ⊢
  split
  · rename_i hparent
    rw [hparent] at h
    exact FileTree.makeDirectoryAll_again hhome h hmore
  · rfl

end Parent

/-! ### Files -/

/-- **A path at which a file can be written**: there is a directory for it, or one can be made, and
in that there is a file, or one can be made. -/
def CanSave (path : String) (t : FileTree) : Prop :=
  ∃ t' bs t'', makeParent path t = (.ok (), t') ∧ t'.writeFile path bs = .ok t''

section Saving

variable {toml : Document.Codec} {s : Settings} {t t' t'' : FileTree} {path : String}

theorem save_of_text {text : String} (hparent : makeParent path t = (.ok (), t'))
    (htext : s.text toml = .ok text) (hwrite : t'.writeFile path (Bytes.ofText text) = .ok t'') :
    s.save toml path t = (.ok [.settingsSaved path], t'') := by
  simp only [save, hparent, htext, hwrite]

theorem save_of_text_eq_error {message : String} (hparent : makeParent path t = (.ok (), t'))
    (htext : s.text toml = .error message) :
    s.save toml path t = (.error (.unwritable message), t') := by
  simp only [save, hparent, htext]

/-- A file in which settings are written is read as these. -/
theorem loadFrom_of_readFile {text : String} (hread : t.readFile path = .ok (Bytes.ofText text))
    (htext : ofText? toml text = some s) : loadFrom toml path t = (.ok (s, []), t) := by
  have hfile : t.readText path = .ok text := by
    simp only [FileTree.readText, hread, bind, Except.bind, Bytes.text?_ofText]
  rw [loadFrom_of_readText toml hfile, htext]

end Saving

/-- **Settings are saved and loaded again.**

Let the codec be one that can be relied on, let the addresses be of the older family, let nothing be
amiss with the tree, and let a file be written at the path. Then settings are saved if their numbers
can be written, and otherwise not.

Once they have been saved, the file has their written form, they are loaded from it as they were,
and when they are saved again all stays as it is. If they cannot be saved, there may be more
directories than before, but all files are where they were, with the bytes that they had: the one at
the path, if there is one, and no other. -/
theorem save_and_load {toml : Document.Codec} (htoml : toml.Faithful) {s : Settings}
    (htarget : s.target.isV4 = true) (hingress : s.ingress.isV4 = true) {t : FileTree}
    (hsound : t.Sound) {path : String} (hpath : CanSave path t) :
    ((∃ told, (s.save toml path t).1 = .ok told) ↔ s.Storable) ∧
    (s.Storable → ∃ text t', s.text toml = .ok text ∧
      s.save toml path t = (.ok [.settingsSaved path], t') ∧
      t'.readFile path = .ok (Bytes.ofText text) ∧
      loadFrom toml path t' = (.ok (s, []), t') ∧
      s.save toml path t' = (.ok [.settingsSaved path], t')) ∧
    (¬ s.Storable → ∃ message t', s.save toml path t = (.error (.unwritable message), t') ∧
      t.Grown t' ∧
      (∀ loc number, t'.sight? loc = some (.file number) ↔ t.sight? loc = some (.file number)) ∧
      ∀ bs, t.readFile path = .ok bs → t'.readFile path = .ok bs) := by
  obtain ⟨t', bs, _, hparent, hwritten⟩ := hpath
  have hgrown : t.Grown t' := by
    have := grown_of_makeParent path hsound.home
    rwa [hparent] at this
  have hsave (h : s.Storable) : ∃ text t', s.text toml = .ok text ∧
      s.save toml path t = (.ok [.settingsSaved path], t') ∧
      t'.readFile path = .ok (Bytes.ofText text) ∧
      loadFrom toml path t' = (.ok (s, []), t') ∧
      s.save toml path t' = (.ok [.settingsSaved path], t') := by
    obtain ⟨text, htext, -⟩ := h.exists_text htoml
    obtain ⟨t'', hwrite⟩ := FileTree.exists_writeFile hwritten (Bytes.ofText text)
    have hfile := FileTree.written_of_writeFile (hgrown.sound hsound) hwrite
    exact ⟨text, t'', htext, save_of_text hparent htext hwrite, hfile.readFile,
      loadFrom_of_readFile hfile.readFile (ofText?_of_text htoml htarget hingress htext),
      save_of_text (makeParent_again hsound.home hparent hfile.toExtends) htext hfile.writeFile⟩
  have hrefuse (h : ¬ s.Storable) :
      ∃ message, s.save toml path t = (.error (.unwritable message), t') := by
    obtain ⟨message, htext⟩ := exists_error_of_not_storable h htoml
    exact ⟨message, save_of_text_eq_error hparent htext⟩
  refine ⟨⟨fun ⟨told, htold⟩ => ?_, fun h => ?_⟩, hsave, fun h => ?_⟩
  · by_contra h
    obtain ⟨message, hrefused⟩ := hrefuse h
    rw [hrefused] at htold
    exact absurd htold (by simp)
  · obtain ⟨text, t'', -, hsaved, -⟩ := hsave h
    exact ⟨_, by rw [hsaved]⟩
  · obtain ⟨message, hrefused⟩ := hrefuse h
    exact ⟨message, t', hrefused, hgrown, fun _ _ => hgrown.sight?_eq_file_iff,
      fun _ hread => hgrown.readFile hsound hread⟩

/-- The usual settings are saved as TOML where there is nothing yet. -/
theorem save_and_load_fresh :
    let t := FileTree.empty
    let toml := Toml.codec
    toml.Faithful ∧ Settings.default.target.isV4 = true ∧ Settings.default.ingress.isV4 = true ∧
      t.Sound ∧ CanSave "/d/c" t ∧ ∃ text t', Settings.default.text toml = .ok text ∧
        Settings.default.save toml "/d/c" t = (.ok [.settingsSaved "/d/c"], t') ∧
        t'.readFile "/d/c" = .ok (Bytes.ofText text) ∧
        loadFrom toml "/d/c" t' = (.ok (Settings.default, []), t') := by
  intro t toml
  have htoml : toml.Faithful := Toml.faithful_codec
  have hsound : t.Sound := FileTree.sound_empty
  have hpath : CanSave "/d/c" t := by
    refine ⟨t.insert ["d"] (.directory []), [],
      (t.insert ["d"] (.directory [])).insertFile ["d", "c"] [], ?_, ?_⟩
    · cbv
    · cbv
  have hstorable : Settings.default.Storable := ⟨by decide, by decide, by decide, by decide⟩
  obtain ⟨-, hsave, -⟩ := save_and_load htoml (s := Settings.default) rfl rfl hsound hpath
  obtain ⟨text, t', htext, hsaved, hread, hload, -⟩ := hsave hstorable
  exact ⟨htoml, rfl, rfl, hsound, hpath, text, t', htext, hsaved, hread, hload⟩

end Settings

end LogCourier

import LogCourier.Proofs.Id.Forms
import LogCourier.Settings.File
import LogCourier.Toml
import Mathlib

/-!
# What a file says, and what it leaves out

A settings file need not say everything. What it says is taken as it is said, and what it leaves out
is as usual, **each setting by itself**: there are ten of them (`LogCourier.Settings.Field`), each
with a place in the file where it would be said (`LogCourier.Settings.Field.said?`), and the value
of a setting depends on nothing else in the file.

What is usual is written down in several places. Where a setting is read it has a usual value of its
own (`LogCourier.Settings.Field.usual`); where nothing is said of how files are carried there is one
for all of that; and where there is no file at all there is one for everything. **They are the
same** (`LogCourier.Settings.Field.usual_eq`, `LogCourier.Settings.Transfers.asSaid_of_missing`).

But one thing that is said and means nothing spoils the whole file, so that a mistake is not taken
for a usual value.

What table a text is read as is for a codec to say. All of this holds for any codec, and where an
example needs one, for TOML.
-/

namespace LogCourier.Settings

/-! ### The settings one by one -/

/-- The ten settings. -/
inductive Field
  /-- The control unit that messages name. -/
  | ecu
  /-- Where messages go. -/
  | target
  /-- Where records come from. -/
  | ingress
  /-- What is logged. -/
  | logLevel
  /-- Whether files are carried. -/
  | enabled
  /-- The bytes of a full chunk. -/
  | chunkSize
  /-- The transfers that may run at once. -/
  | maxConcurrent
  /-- The transfers that may wait besides. -/
  | maxPending
  /-- The packets between two pauses. -/
  | burstCount
  /-- The length of a pause. -/
  | burstMillis
  deriving DecidableEq, Repr

namespace Field

/-- What a setting can be. -/
@[reducible]
def Value : Field → Type
  | ecu => Id
  | target | ingress => SocketAddress
  | logLevel => String
  | enabled => Bool
  | burstCount => UInt32
  | chunkSize | maxConcurrent | maxPending | burstMillis => UInt64

/-- A setting, out of all. -/
def get : (f : Field) → Settings → f.Value
  | ecu, s => s.ecu
  | target, s => s.target
  | ingress, s => s.ingress
  | logLevel, s => s.logLevel
  | enabled, s => s.transfers.enabled
  | chunkSize, s => s.transfers.chunkSize
  | maxConcurrent, s => s.transfers.maxConcurrent
  | maxPending, s => s.transfers.maxPending
  | burstCount, s => s.transfers.burstCount
  | burstMillis, s => s.transfers.burstMillis

/-- The value that a setting has where it is read and nothing is said of it. -/
def usual : (f : Field) → f.Value
  | ecu => defaultEcu
  | target => defaultTarget
  | ingress => defaultIngress
  | logLevel => defaultLogLevel
  | enabled => Transfers.defaultEnabled
  | chunkSize => Transfers.defaultChunkSize
  | maxConcurrent => Transfers.defaultMaxConcurrent
  | maxPending => Transfers.defaultMaxPending
  | burstCount => Transfers.defaultBurstCount
  | burstMillis => Transfers.defaultBurstMillis

/-- **It is the value that it has where there is no file at all.** -/
theorem usual_eq (f : Field) : f.usual = f.get default := by
  cases f <;> rfl

/-- **What has to be written for a setting to be this**: an identifier and an address are texts that
are read as such, and what is logged is any text; a number is a whole number, and that very one. So
a negative number means nothing, and neither does one that is too large for the setting. -/
def Means : (f : Field) → Document → f.Value → Prop
  | ecu, d, id => ∃ s, d = .text s ∧ Id.ofText s = .ok id
  | target, d, a | ingress, d, a => ∃ s, d = .text s ∧ SocketAddress.ofText? s = some a
  | logLevel, d, s => d = .text s
  | enabled, d, b => d = .flag b
  | burstCount, d, n => d = .integer (n : UInt32).toNat
  | chunkSize, d, n | maxConcurrent, d, n | maxPending, d, n | burstMillis, d, n =>
    d = .integer (n : UInt64).toNat

/-- Where a setting is said: by that name among all, or at that place and by that name among those
that tell how files are carried. -/
def key : Field → String ⊕ (Nat × String)
  | ecu => .inl "ecu_id"
  | target => .inl "udp_target"
  | ingress => .inl "ingress"
  | logLevel => .inl "log_level"
  | enabled => .inr (0, "enabled")
  | chunkSize => .inr (1, "chunk_size")
  | maxConcurrent => .inr (2, "max_concurrent_transfers")
  | maxPending => .inr (3, "max_pending_transfers")
  | burstCount => .inr (4, "burst_count")
  | burstMillis => .inr (5, "burst_interval_ms")

/-- Two values are not meant by the same. -/
theorem Means.unique {f : Field} {d : Document} {v v' : f.Value} (h : f.Means d v)
    (h' : f.Means d v') : v = v' := by
  have hword {n n' : UInt64} (hn : d = .integer n.toNat) (hn' : d = .integer n'.toNat) :
      n = n' :=
    UInt64.toNat_inj.mp (Int.ofNat_inj.mp (Document.integer.inj (hn.symm.trans hn')))
  cases f with
  | ecu =>
    obtain ⟨s, rfl, hs⟩ := h
    obtain ⟨s', heq, hs'⟩ := h'
    rw [← Document.text.inj heq, hs] at hs'
    exact Except.ok.inj hs'
  | target | ingress =>
    obtain ⟨s, rfl, hs⟩ := h
    obtain ⟨s', heq, hs'⟩ := h'
    rw [← Document.text.inj heq, hs] at hs'
    exact Option.some.inj hs'
  | logLevel => exact Document.text.inj (h.symm.trans h')
  | enabled => exact Document.flag.inj (h.symm.trans h')
  | burstCount =>
    exact UInt32.toNat_inj.mp (Int.ofNat_inj.mp (Document.integer.inj (h.symm.trans h')))
  | chunkSize | maxConcurrent | maxPending | burstMillis => exact hword h h'

/-! ### What is said of them -/

/-- What is said in a document of how files are carried, at a place or by a name: a table has
entries by name, a list has them by place, and nothing is said by a date. -/
def inside (place : Nat) (name : String) : Option Document → Option Document
  | some (.table entries) => entries.lookup name
  | some (.list items) => items[place]?
  | _ => none

/-- **What is said of a setting** in a table. -/
def said? (entries : List (String × Document)) (f : Field) : Option Document :=
  match f.key with
  | .inl name => entries.lookup name
  | .inr (place, name) => inside place name (entries.lookup "file_transfer")

/-- **A setting is what is said of it**, and as usual if nothing is. -/
def Holds (entries : List (String × Document)) (f : Field) (v : f.Value) : Prop :=
  match f.said? entries with
  | none => v = f.get default
  | some d => f.Means d v

/-- Only one value is. -/
theorem Holds.unique {entries entries' : List (String × Document)} {f : Field} {v v' : f.Value}
    (hsame : f.said? entries = f.said? entries') (h : f.Holds entries v)
    (h' : f.Holds entries' v') : v = v' := by
  rw [Holds] at h h'
  rw [← hsame] at h'
  cases hsaid : f.said? entries with
  | none =>
    rw [hsaid] at h h'
    exact h.trans h'.symm
  | some d =>
    rw [hsaid] at h h'
    exact h.unique h'

end Field

/-- Whether a document can tell how files are carried: a table can, and so can a list of values and,
as it happens, a date. -/
def tells : Document → Bool
  | .table _ | .list _ | .dateTime _ => true
  | _ => false

/-- **A table that makes sense**: what it says of a setting means something. -/
structure Sensible (entries : List (String × Document)) : Prop where
  /-- How files are carried is told by what can tell it. -/
  transfers : ∀ d, entries.lookup "file_transfer" = some d → tells d = true
  /-- What is said of a setting means a value of it. -/
  said : ∀ (f : Field) d, f.said? entries = some d → ∃ v, f.Means d v

/-! ### Reading them -/

theorem readNat?_eq_some_iff {bound n : Nat} {d : Document} :
    readNat? bound d = some n ↔ d = .integer n ∧ n < bound := by
  cases d with
  | integer m =>
    simp only [readNat?, Document.integer.injEq]
    split
    · rename_i h
      rw [Option.some.injEq]
      omega
    · rename_i h
      constructor
      · exact fun hnone => absurd hnone (by simp)
      · rintro ⟨rfl, hlt⟩
        omega
  | _ => simp [readNat?]

theorem readWord64?_eq_some_iff {d : Document} {n : UInt64} :
    readWord64? d = some n ↔ d = .integer n.toNat := by
  rw [readWord64?, Option.map_eq_some_iff]
  constructor
  · rintro ⟨m, hm, rfl⟩
    obtain ⟨rfl, hlt⟩ := readNat?_eq_some_iff.mp hm
    rw [UInt64.toNat_ofNat_of_lt' hlt]
  · exact fun h => ⟨n.toNat, readNat?_eq_some_iff.mpr ⟨h, n.toNat_lt⟩, UInt64.ofNat_toNat⟩

theorem readWord32?_eq_some_iff {d : Document} {n : UInt32} :
    readWord32? d = some n ↔ d = .integer n.toNat := by
  rw [readWord32?, Option.map_eq_some_iff]
  constructor
  · rintro ⟨m, hm, rfl⟩
    obtain ⟨rfl, hlt⟩ := readNat?_eq_some_iff.mp hm
    rw [UInt32.toNat_ofNat_of_lt' hlt]
  · exact fun h => ⟨n.toNat, readNat?_eq_some_iff.mpr ⟨h, n.toNat_lt⟩, UInt32.ofNat_toNat⟩

theorem readAddress?_eq_some_iff {d : Document} {a : SocketAddress} :
    readAddress? d = some a ↔ ∃ s, d = .text s ∧ SocketAddress.ofText? s = some a := by
  cases d <;> simp [readAddress?]

theorem readText?_eq_some_iff {d : Document} {s : String} : readText? d = some s ↔ d = .text s := by
  cases d <;> simp [readText?]

theorem readFlag?_eq_some_iff {d : Document} {b : Bool} : readFlag? d = some b ↔ d = .flag b := by
  cases d <;> simp [readFlag?]

/-- An entry is read as what is said of it, and as usual if nothing is. -/
theorem entry?_eq_some_iff_holds (fields : Fields) (place : Nat)
    {entries : List (String × Document)} {name : String} {f : Field} {v : f.Value}
    {read : Document → Option f.Value} (hsaid : fields place name = f.said? entries)
    (hread : ∀ d, read d = some v ↔ f.Means d v) :
    entry? fields place name f.usual read = some v ↔ f.Holds entries v := by
  rw [ entry?, hsaid, Field.Holds, f.usual_eq]
  cases f.said? entries with
  | none => simp only [Option.some.injEq, eq_comm]
  | some d => exact hread d

/-- A document that can tell how files are carried has entries, if one is lax about their number. -/
theorem fields?_lax (count : Nat) (d : Document) :
    fields? false count d =
      if tells d then some fun place name => Field.inside place name (some d) else none := by
  cases d <;> simp [fields?, tells, Field.inside]

/-- **How files are carried is what is said of it.** -/
@[mk_iff]
structure Transfers.AsSaid (entries : List (String × Document)) (t : Transfers) : Prop where
  /-- Whether they are. -/
  enabled : Field.Holds entries .enabled t.enabled
  /-- The bytes of a full chunk. -/
  chunkSize : Field.Holds entries .chunkSize t.chunkSize
  /-- The transfers that may run at once. -/
  maxConcurrent : Field.Holds entries .maxConcurrent t.maxConcurrent
  /-- The transfers that may wait besides. -/
  maxPending : Field.Holds entries .maxPending t.maxPending
  /-- The packets between two pauses. -/
  burstCount : Field.Holds entries .burstCount t.burstCount
  /-- The length of a pause. -/
  burstMillis : Field.Holds entries .burstMillis t.burstMillis

/-- How files are carried is read entry by entry. -/
theorem Transfers.ofDocument?_eq_some_iff {entries : List (String × Document)} {d : Document}
    {t : Transfers} (h : entries.lookup "file_transfer" = some d) :
    ofDocument? false d = some t ↔ tells d = true ∧ t.AsSaid entries := by
  have hentry {f : Field} {v : f.Value} {read : Document → Option f.Value} (place : Nat)
      (name : String) (hkey : f.key = .inr (place, name))
      (hread : ∀ d, read d = some v ↔ f.Means d v) :=
    entry?_eq_some_iff_holds (fun place name => Field.inside place name (some d)) place
      (show Field.inside place name (some d) = f.said? entries by rw [Field.said?, hkey, h]) hread
  rw [ofDocument?, fields?_lax]
  cases htells : tells d with
  | false => simp
  | true =>
    rw [asSaid_iff, ← hentry 0 _ rfl fun _ => readFlag?_eq_some_iff,
      ← hentry 1 _ rfl fun _ => readWord64?_eq_some_iff,
      ← hentry 2 _ rfl fun _ => readWord64?_eq_some_iff,
      ← hentry 3 _ rfl fun _ => readWord64?_eq_some_iff,
      ← hentry 4 _ rfl fun _ => readWord32?_eq_some_iff,
      ← hentry 5 _ rfl fun _ => readWord64?_eq_some_iff]
    simp only [if_true, Option.bind_eq_bind, Option.bind_some, Option.bind_eq_some_iff]
    constructor
    · rintro ⟨enabled, h₀, chunkSize, h₁, maxConcurrent, h₂, maxPending, h₃, burstCount, h₄,
        burstMillis, h₅, heq⟩
      obtain rfl := Option.some.inj heq
      exact ⟨trivial, h₀, h₁, h₂, h₃, h₄, h₅⟩
    · rintro ⟨-, h₀, h₁, h₂, h₃, h₄, h₅⟩
      exact ⟨_, h₀, _, h₁, _, h₂, _, h₃, _, h₄, _, h₅, rfl⟩

/-- Where nothing is said of how files are carried, all of it is as usual. -/
theorem Transfers.asSaid_of_missing {entries : List (String × Document)} {t : Transfers}
    (h : entries.lookup "file_transfer" = none) : Transfers.default = t ↔ t.AsSaid entries := by
  obtain ⟨enabled, chunkSize, maxConcurrent, maxPending, burstCount, burstMillis⟩ := t
  simp only [asSaid_iff, Field.Holds, Field.said?, Field.key, h, Field.inside, Field.get, default,
    Transfers.default, mk.injEq, eq_comm]
  rfl

/-- How files are carried is read if what is said of it can be. -/
theorem entry?_transfers_eq_some_iff {entries : List (String × Document)} {t : Transfers} :
    entry? (fun _ name => entries.lookup name) 4 "file_transfer" Transfers.default
        (Transfers.ofDocument? false) = some t ↔
      (∀ d, entries.lookup "file_transfer" = some d → tells d = true) ∧ t.AsSaid entries := by
  rw [ entry?]
  cases h : entries.lookup "file_transfer" with
  | none =>
    rw [← Transfers.asSaid_of_missing h, Option.some.injEq]
    simp only [reduceCtorEq, false_imp_iff, implies_true, true_and]
  | some d => simp only [Transfers.ofDocument?_eq_some_iff h, Option.some.injEq, forall_eq']

/-- **Settings are read from a table if each of them is what is said of it.** -/
theorem ofDocument?_eq_some_iff {entries : List (String × Document)} {s : Settings} :
    ofDocument? false (.table entries) = some s ↔
      (∀ d, entries.lookup "file_transfer" = some d → tells d = true) ∧
        ∀ f : Field, f.Holds entries (f.get s) := by
  have hfields : (∀ f : Field, f.Holds entries (f.get s)) ↔
      Field.Holds entries .ecu s.ecu ∧ Field.Holds entries .target s.target ∧
      Field.Holds entries .ingress s.ingress ∧ Field.Holds entries .logLevel s.logLevel ∧
      s.transfers.AsSaid entries := by
    constructor
    · exact fun h => ⟨h .ecu, h .target, h .ingress, h .logLevel,
        ⟨h .enabled, h .chunkSize, h .maxConcurrent, h .maxPending, h .burstCount, h .burstMillis⟩⟩
    · rintro ⟨hecu, htarget, hingress, hlevel, h⟩ f
      cases f with
      | ecu => exact hecu
      | target => exact htarget
      | ingress => exact hingress
      | logLevel => exact hlevel
      | enabled => exact h.enabled
      | chunkSize => exact h.chunkSize
      | maxConcurrent => exact h.maxConcurrent
      | maxPending => exact h.maxPending
      | burstCount => exact h.burstCount
      | burstMillis => exact h.burstMillis
  have hentry {f : Field} {v : f.Value} {read : Document → Option f.Value} (place : Nat)
      (name : String) (hkey : f.key = .inl name) (hread : ∀ d, read d = some v ↔ f.Means d v) :=
    entry?_eq_some_iff_holds (fun _ name => entries.lookup name) place
      (show entries.lookup name = f.said? entries by rw [Field.said?, hkey]) hread
  rw [hfields, ← hentry 0 _ rfl fun _ => readId?_eq_some_iff,
    ← hentry 1 _ rfl fun _ => readAddress?_eq_some_iff,
    ← hentry 2 _ rfl fun _ => readAddress?_eq_some_iff,
    ← hentry 3 _ rfl fun _ => readText?_eq_some_iff]
  simp only [ofDocument?, fields?, Option.bind_eq_bind, Option.bind_some, Option.bind_eq_some_iff]
  constructor
  · rintro ⟨ecu, h₀, target, h₁, ingress, h₂, logLevel, h₃, transfers, h₄, heq⟩
    obtain rfl := Option.some.inj heq
    obtain ⟨htells, hrest⟩ := entry?_transfers_eq_some_iff.mp h₄
    exact ⟨htells, h₀, h₁, h₂, h₃, hrest⟩
  · rintro ⟨htells, h₀, h₁, h₂, h₃, hrest⟩
    exact ⟨_, h₀, _, h₁, _, h₂, _, h₃, _, entry?_transfers_eq_some_iff.mpr ⟨htells, hrest⟩, rfl⟩

/-- **They are read from any table that makes sense**, and from no other. -/
theorem exists_ofDocument?_iff {entries : List (String × Document)} :
    (∃ s, ofDocument? false (.table entries) = some s) ↔ Sensible entries := by
  constructor
  · rintro ⟨s, hs⟩
    obtain ⟨htells, hholds⟩ := ofDocument?_eq_some_iff.mp hs
    refine ⟨htells, fun f d hsaid => ⟨f.get s, ?_⟩⟩
    have := hholds f
    rwa [Field.Holds, hsaid] at this
  · intro h
    have hvalue (f : Field) : ∃ v, f.Holds entries v := by
      cases hsaid : f.said? entries with
      | none =>
        refine ⟨f.get default, ?_⟩
        rw [Field.Holds, hsaid]
      | some d =>
        obtain ⟨v, hv⟩ := h.said f d hsaid
        refine ⟨v, ?_⟩
        rw [Field.Holds, hsaid]
        exact hv
    choose value hholds using hvalue
    refine ⟨⟨value .ecu, value .target, value .ingress, value .logLevel,
      ⟨value .enabled, value .chunkSize, value .maxConcurrent, value .maxPending,
        value .burstCount, value .burstMillis⟩⟩,
      ofDocument?_eq_some_iff.mpr ⟨h.transfers, fun f => ?_⟩⟩
    have := hholds f
    cases f <;> exact this

/-! ### Files -/

section Codec

variable {toml : Document.Codec} {t : FileTree} {path text : String}

/-- A file that is there is read and kept. -/
theorem loadFrom_of_readText (toml : Document.Codec) (h : t.readText path = .ok text) :
    loadFrom toml path t =
      ((match ofText? toml text with
        | some s => .ok (s, [])
        | none => .error (.parsing path)), t) := by
  have hexists : t.pathExists path = true := by
    cases hstat : t.stat path with
    | ok n => rw [FileTree.pathExists, hstat]; rfl
    | error e =>
      simp only [FileTree.readText, FileTree.readFile, FileTree.openFile, hstat, bind,
        Except.bind] at h
      exact absurd h (by simp)
  rw [loadFrom, if_pos hexists, readFrom, h]
  cases hread : ofText? toml text with
  | none => simp only [hread, Except.map]
  | some s => simp only [hread, Except.map]

/-- A file that holds a table says what the table does. -/
theorem loadFrom_of_table {entries : List (String × Document)} (hfile : t.readText path = .ok text)
    (htable : toml.read? text = some (.table entries)) :
    loadFrom toml path t = ((match ofDocument? false (.table entries) with
      | some s => .ok (s, [])
      | none => .error (.parsing path)), t) := by
  rw [loadFrom_of_readText toml hfile, ofText?, htable]
  rfl

/-- **Settings that are loaded from a table are what it says of them.** -/
theorem holds_of_loadFrom {entries : List (String × Document)} (hfile : t.readText path = .ok text)
    (htable : toml.read? text = some (.table entries)) {s : Settings} {told : List Event}
    (hs : (loadFrom toml path t).1 = .ok (s, told)) (f : Field) : f.Holds entries (f.get s) := by
  rw [loadFrom_of_table hfile htable] at hs
  cases hread : ofDocument? false (.table entries) with
  | none => simp only [hread, reduceCtorEq] at hs
  | some s' =>
    simp only [hread, Except.ok.injEq, Prod.mk.injEq] at hs
    obtain ⟨rfl, -⟩ := hs
    exact (ofDocument?_eq_some_iff.mp hread).2 f

end Codec

/-- A file that holds a text is read as that text. -/
theorem readText_insertFile (text : String) :
    (FileTree.empty.insertFile ["c"] (Bytes.ofText text)).readText "/c" = .ok text := by
  have hfile : (FileTree.empty.insertFile ["c"] (Bytes.ofText text)).readFile "/c" =
      .ok (Bytes.ofText text) := by cbv
  simp only [FileTree.readText, hfile, bind, Except.bind, Bytes.text?_ofText]

/-- A list and a date stand where a table does: the list has one value, which is the first setting
in it, and by the date nothing is said. It is TOML that says so, and any codec will do that reads
the same there. -/
theorem loadFrom_list_and_date :
    (let text := "file_transfer = [false]"
      let entries : List (String × Document) := [("file_transfer", .list [.flag false])]
      let t := FileTree.empty.insertFile ["c"] (Bytes.ofText text)
      let idle : Settings :=
        { default with transfers := { Transfers.default with enabled := false } }
      Toml.codec.read? text = some (.table entries) ∧
        ∀ toml : Document.Codec, toml.read? text = some (.table entries) →
          loadFrom toml "/c" t = (.ok (idle, []), t)) ∧
    (let text := "file_transfer = 1979-05-27"
      let entries : List (String × Document) := [("file_transfer", .dateTime "1979-05-27")]
      let t := FileTree.empty.insertFile ["c"] (Bytes.ofText text)
      Toml.codec.read? text = some (.table entries) ∧
        ∀ toml : Document.Codec, toml.read? text = some (.table entries) →
          loadFrom toml "/c" t = (.ok (default, []), t)) := by
  refine ⟨⟨by cbv, fun toml htable => ?_⟩, ⟨by cbv, fun toml htable => ?_⟩⟩
  · have hread : ofDocument? false (.table [("file_transfer", .list [.flag false])]) =
        some { default with transfers := { Transfers.default with enabled := false } } := by cbv
    rw [loadFrom_of_table (readText_insertFile _) htable, hread]
  · have hread : ofDocument? false (.table [("file_transfer", .dateTime "1979-05-27")]) =
        some default := by cbv
    rw [loadFrom_of_table (readText_insertFile _) htable, hread]

/-- **What a file says is laid over what is usual.**

Let a file hold a table. If the table makes sense the file is read, and each setting is what is said
of it, or as usual if nothing is; whatever else is in the table does not matter. If it does not make
sense nothing is read, and the file is named in the error. No file is changed by either.

So of two files that say the same of a setting one reads the same setting, whatever they say of the
others. -/
theorem loadFrom_overlay (toml : Document.Codec) {t : FileTree} {path text : String}
    {entries : List (String × Document)} (hfile : t.readText path = .ok text)
    (htable : toml.read? text = some (.table entries)) :
    (loadFrom toml path t).2 = t ∧
    (Sensible entries → ∃ s, (loadFrom toml path t).1 = .ok (s, []) ∧
      ∀ f : Field, f.Holds entries (f.get s)) ∧
    (¬ Sensible entries → (loadFrom toml path t).1 = .error (.parsing path)) ∧
    ∀ (t' : FileTree) (path' text' : String) (entries' : List (String × Document)),
      t'.readText path' = .ok text' → toml.read? text' = some (.table entries') →
      ∀ s told s' told', (loadFrom toml path t).1 = .ok (s, told) →
        (loadFrom toml path' t').1 = .ok (s', told') →
        ∀ f : Field, f.said? entries = f.said? entries' → f.get s = f.get s' := by
  refine ⟨by rw [loadFrom_of_table hfile htable], fun h => ?_, fun h => ?_, ?_⟩
  · obtain ⟨s, hs⟩ := exists_ofDocument?_iff.mpr h
    refine ⟨s, by rw [loadFrom_of_table hfile htable, hs], (ofDocument?_eq_some_iff.mp hs).2⟩
  · rw [loadFrom_of_table hfile htable]
    cases hread : ofDocument? false (.table entries) with
    | none => rfl
    | some s => exact absurd (exists_ofDocument?_iff.mp ⟨s, hread⟩) h
  · intro t' path' text' entries' hfile' htable' s told s' told' hs hs' f hsame
    exact (holds_of_loadFrom hfile htable hs f).unique hsame
      (holds_of_loadFrom hfile' htable' hs' f)

/-- Two things are said, and something that nobody knows. -/
theorem loadFrom_overlay_two :
    let text := "log_level = 'x'\ncolour = 3\n[file_transfer]\nburst_count = 7\n"
    let entries : List (String × Document) := [("log_level", .text "x"), ("colour", .integer 3),
      ("file_transfer", .table [("burst_count", .integer 7)])]
    let t := FileTree.empty.insertFile ["c"] (Bytes.ofText text)
    t.readText "/c" = .ok text ∧ Toml.codec.read? text = some (.table entries) ∧
      Sensible entries ∧ ∃ s, loadFrom Toml.codec "/c" t = (.ok (s, []), t) ∧ s.logLevel = "x" ∧
        s.transfers.burstCount = 7 ∧ s.transfers.chunkSize = default.transfers.chunkSize := by
  intro text entries t
  have hfile : t.readText "/c" = .ok text := readText_insertFile text
  have htable : Toml.codec.read? text = some (.table entries) := by
    unfold text entries
    cbv
  have hsensible : Sensible entries :=
    exists_ofDocument?_iff.mp ⟨{ default with
      logLevel := "x", transfers := { Transfers.default with burstCount := 7 } }, by cbv⟩
  obtain ⟨htree, hload, -, -⟩ := loadFrom_overlay Toml.codec hfile htable
  obtain ⟨s, hs, hholds⟩ := hload hsensible
  refine ⟨hfile, htable, hsensible, s, Prod.ext hs htree, ?_, ?_, ?_⟩
  · exact (Document.text.inj (hholds .logLevel)).symm
  · exact Field.Means.unique (f := .burstCount) (hholds .burstCount) rfl
  · exact hholds .chunkSize

end LogCourier.Settings

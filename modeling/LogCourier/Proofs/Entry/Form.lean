import LogCourier.Proofs.Bytes
import LogCourier.Proofs.Entry
import LogCourier.Proofs.Id
import Mathlib.Logic.ExistsUnique

/-!
# One entry, one written form

The written form of an entry is laid down in a table, and a **form** is one row of it filled in:
the parts of a record, as they stand one after the other (`LogCourier.Entry.Form`). Not every
filling is good. A form is **valid** if each of its parts is what the table says
(`LogCourier.Entry.Form.Valid`); nothing in that mentions how records are written or read.

| part | what may stand there |
| --- | --- |
| version | `01` |
| application, context | one to four ASCII characters, filled up with NUL |
| flag | `00` or `01` |
| length | the number of bytes of the name, from 1 to 4096 |
| name | UTF-8 without NUL |

Writing and reading are then two ways to say the same: **an entry is written as a record exactly
if some valid form stands in the record and says the entry, and it is read from it exactly then**
(`LogCourier.Entry.encode_eq_ok_iff`, `LogCourier.Entry.decode_eq_ok_iff`). What has to be seen is
that there is no freedom anywhere: an identifier has one filling, a flag one byte, a length two
bytes of which the first is the greater digit, and nothing may follow the name.

The main statement is `LogCourier.Entry.codec_exact`.
-/

namespace LogCourier.Entry

/-! ### Forms -/

/-- The parts of a record, in their order. -/
structure Form where
  /-- The version. -/
  version : UInt8
  /-- The application. -/
  appid : Bytes
  /-- The context. -/
  ctxid : Bytes
  /-- Whether the file is removed. -/
  flag : UInt8
  /-- The length of the name, in multiples of 256. -/
  high : UInt8
  /-- The rest of the length of the name. -/
  low : UInt8
  /-- The name. -/
  name : Bytes

namespace Form

/-- The parts one after the other. -/
def bytes (f : Form) : Bytes :=
  [f.version] ++ f.appid ++ f.ctxid ++ [f.flag, f.high, f.low] ++ f.name

/-- **Each part is what may stand there.** -/
structure Valid (f : Form) : Prop where
  /-- The version is the first one. -/
  version : f.version = 0x01
  /-- The application is an identifier, filled up. -/
  appid : Id.Padded f.appid
  /-- So is the context. -/
  ctxid : Id.Padded f.ctxid
  /-- The flag is set or not. -/
  flag : f.flag = 0x00 ∨ f.flag = 0x01
  /-- The length is that of the name. -/
  said : f.high.toNat * 256 + f.low.toNat = f.name.length
  /-- The name is not empty. -/
  named : 1 ≤ f.name.length
  /-- The name is not too long. -/
  fits : f.name.length ≤ 4096
  /-- There is no NUL in the name. -/
  nulFree : 0 ∉ f.name
  /-- The name is UTF-8. -/
  utf8 : Bytes.IsUtf8 f.name

/-- **What a form says**: the entry whose parts these are. -/
structure Says (f : Form) (e : Entry) : Prop where
  /-- The application is the one meant. -/
  appid : f.appid = e.appid.bytes
  /-- The context is the one meant. -/
  ctxid : f.ctxid = e.ctxid.bytes
  /-- The flag tells whether the file is removed. -/
  flag : f.flag = 0x01 ↔ e.deleteFile = true
  /-- The name is that of the file. -/
  name : f.name = Bytes.ofText e.fileName

/-- A valid form says something. -/
theorem Valid.exists_says {f : Form} (h : f.Valid) : ∃ e, f.Says e := by
  obtain ⟨appid, happ⟩ := h.appid.exists_bytes_eq
  obtain ⟨ctxid, hctx⟩ := h.ctxid.exists_bytes_eq
  obtain ⟨fileName, hname⟩ := h.utf8.exists_ofText
  exact ⟨⟨appid, ctxid, fileName, decide (f.flag = 0x01)⟩, happ.symm, hctx.symm,
    decide_eq_true_iff.symm, hname.symm⟩

end Form

/-- The form of an entry. -/
def form (e : Entry) : Form where
  version := version
  appid := e.appid.bytes
  ctxid := e.ctxid.bytes
  flag := flagByte e.deleteFile
  high := UInt8.ofNat ((Bytes.ofText e.fileName).length / 256)
  low := UInt8.ofNat (Bytes.ofText e.fileName).length
  name := Bytes.ofText e.fileName

theorem flagByte_eq_iff (delete : Bool) : flagByte delete = 0x01 ↔ delete = true := by
  cases delete <;> decide

theorem form_says (e : Entry) : e.form.Says e :=
  ⟨rfl, rfl, flagByte_eq_iff e.deleteFile, rfl⟩

/-- A flag that is set or not is the byte of what it tells. -/
theorem eq_flagByte {flag : UInt8} {delete : Bool} (hflag : flag = 0x00 ∨ flag = 0x01)
    (htells : flag = 0x01 ↔ delete = true) : flag = flagByte delete := by
  cases delete with
  | false => exact hflag.resolve_right fun hone => absurd (htells.mp hone) (by simp)
  | true => exact htells.mpr rfl

/-- **A valid form that says an entry is the form of it**: nothing is left to choose. -/
theorem Form.Says.eq_form {f : Form} {e : Entry} (h : f.Says e) (hvalid : f.Valid) :
    f = e.form := by
  have hflag := eq_flagByte hvalid.flag h.flag
  have hsaid := hvalid.said
  obtain ⟨version, appid, ctxid, flag, high, low, name⟩ := f
  obtain ⟨rfl, rfl, -, rfl⟩ := h
  have hhigh := high.toNat_lt
  have hlow := low.toNat_lt
  simp only at hsaid
  simp only [form, Form.mk.injEq, true_and, and_true]
  refine ⟨hvalid.version, hflag, ?_, ?_⟩
  · rw [← UInt8.toNat_inj, UInt8.toNat_ofNat', ← hsaid]
    omega
  · rw [← UInt8.toNat_inj, UInt8.toNat_ofNat', ← hsaid]
    omega

/-- The name of an entry can be written. -/
def Nameable (e : Entry) : Prop :=
  1 ≤ (Bytes.ofText e.fileName).length ∧ (Bytes.ofText e.fileName).length ≤ 4096 ∧
    0 ∉ Bytes.ofText e.fileName

/-- The form of an entry is valid if its name can be written, and only then. -/
theorem form_valid_iff (e : Entry) : e.form.Valid ↔ e.Nameable := by
  constructor
  · intro h
    exact ⟨h.named, h.fits, h.nulFree⟩
  · rintro ⟨hsome, hfits, hnul⟩
    refine ⟨rfl, e.appid.padded_bytes, e.ctxid.padded_bytes, ?_, ?_, hsome, hfits, hnul,
      Bytes.isUtf8_ofText _⟩
    · change flagByte e.deleteFile = 0x00 ∨ flagByte e.deleteFile = 0x01
      cases e.deleteFile
      · exact Or.inl rfl
      · exact Or.inr rfl
    · simp only [form, UInt8.toNat_ofNat']
      omega

/-- A valid form that says an entry stands in a record, if the entry has a name that can be
written and the record is its form. -/
theorem exists_form_iff (e : Entry) (record : Bytes) :
    (∃ f : Form, f.Valid ∧ f.bytes = record ∧ f.Says e) ↔ e.Nameable ∧ e.form.bytes = record := by
  constructor
  · rintro ⟨f, hvalid, rfl, hsays⟩
    obtain rfl := hsays.eq_form hvalid
    exact ⟨e.form_valid_iff.mp hvalid, rfl⟩
  · rintro ⟨hname, hbytes⟩
    exact ⟨e.form, e.form_valid_iff.mpr hname, hbytes, e.form_says⟩

/-! ### Writing -/

/-- What is written is the form. -/
theorem encode_of_nameable {e : Entry} (h : e.Nameable) : e.encode = .ok e.form.bytes := by
  obtain ⟨hsome, hfits, hnul⟩ := h
  have hmax : maxNameLength = 4096 := rfl
  have hlength : (UInt16.ofNat (Bytes.ofText e.fileName).length).toNat =
      (Bytes.ofText e.fileName).length := by
    rw [UInt16.toNat_ofNat']
    omega
  simp only [encode]
  rw [if_neg (by omega), if_neg hnul]
  simp [Form.bytes, form, Bytes.be16, hlength]

/-- **An entry is written exactly if its name can be.** -/
theorem exists_encode_iff (e : Entry) : (∃ record, e.encode = .ok record) ↔ e.Nameable := by
  constructor
  · rintro ⟨record, h⟩
    have hmax : maxNameLength = 4096 := rfl
    simp only [encode] at h
    split at h
    · exact absurd h (by simp)
    split at h
    · exact absurd h (by simp)
    · rename_i hlength hnul
      exact ⟨by omega, by omega, hnul⟩
  · exact fun h => ⟨_, encode_of_nameable h⟩

/-- **An entry is written as the form that says it.** -/
theorem encode_eq_ok_iff (e : Entry) (record : Bytes) :
    e.encode = .ok record ↔ ∃ f : Form, f.Valid ∧ f.bytes = record ∧ f.Says e := by
  rw [exists_form_iff]
  constructor
  · intro h
    have hname := e.exists_encode_iff.mp ⟨record, h⟩
    rw [encode_of_nameable hname] at h
    exact ⟨hname, Except.ok.inj h⟩
  · rintro ⟨hname, rfl⟩
    exact encode_of_nameable hname

/-! ### Reading -/

theorem readId_eq_ok_iff {field : Field} {raw : Bytes} {id : Id} (hlength : raw.length = 4) :
    readId field raw = .ok id ↔ id.bytes = raw := by
  constructor
  · intro h
    unfold readId at h
    split at h
    · rename_i id' hid
      rw [← Except.ok.inj h]
      exact Id.bytes_of_ofBytes hlength hid
    · exact absurd h (by simp)
  · rintro rfl
    simp only [readId, Id.ofBytes_bytes]

theorem readFlag_eq_ok_iff {b : UInt8} {delete : Bool} :
    readFlag b = .ok delete ↔ b = flagByte delete := by
  constructor
  · intro h
    unfold readFlag at h
    split at h
    · rename_i hb
      rw [← Except.ok.inj h]
      exact hb
    split at h
    · rename_i hb
      rw [← Except.ok.inj h]
      exact hb
    · exact absurd h (by simp)
  · rintro rfl
    cases delete <;> rfl

/-- A name is read from so many bytes as were said, if it is a name that can be written. -/
theorem readName_eq_ok_iff {said : Nat} {rest : Bytes} {name : String} :
    readName said rest = .ok name ↔ Bytes.ofText name = rest ∧ rest.length = said ∧ 1 ≤ said ∧
      said ≤ maxNameLength ∧ 0 ∉ rest := by
  constructor
  · intro h
    obtain ⟨htext, hlength, hsome, hfits⟩ := ofText_of_readName h
    refine ⟨htext, hlength, hsome, hfits, fun hnul => ?_⟩
    unfold readName at h
    rw [if_neg (by omega), if_neg (by omega), if_neg (by omega), if_pos hnul] at h
    exact absurd h (by simp)
  · rintro ⟨rfl, rfl, hsome, hfits, hnul⟩
    unfold readName
    rw [if_neg (by omega), if_neg (by omega), if_neg (by omega), if_neg hnul, Bytes.text?_ofText]

/-- Twelve bytes and a name are read part by part. -/
theorem decode_eq_ok_iff_parts {v a₀ a₁ a₂ a₃ c₀ c₁ c₂ c₃ flag hi lo : UInt8} {rest : Bytes}
    {e : Entry} :
    decode (v :: a₀ :: a₁ :: a₂ :: a₃ :: c₀ :: c₁ :: c₂ :: c₃ :: flag :: hi :: lo :: rest) = .ok e ↔
      v = version ∧ readId .appid [a₀, a₁, a₂, a₃] = .ok e.appid ∧
      readId .ctxid [c₀, c₁, c₂, c₃] = .ok e.ctxid ∧ readFlag flag = .ok e.deleteFile ∧
      readName (Bytes.word16 hi lo).toNat rest = .ok e.fileName := by
  constructor
  · intro h
    simp only [decode, bind, Except.bind, pure, Except.pure] at h
    split at h
    · exact absurd h (by simp)
    split at h
    · exact absurd h (by simp)
    split at h
    · exact absurd h (by simp)
    split at h
    · exact absurd h (by simp)
    split at h
    · exact absurd h (by simp)
    · rename_i hversion _ _ happ _ _ hctx _ _ hflag _ _ hname
      obtain rfl := Except.ok.inj h
      exact ⟨Decidable.not_not.mp hversion, happ, hctx, hflag, hname⟩
  · rintro ⟨rfl, happ, hctx, hflag, hname⟩
    simp only [decode, happ, hctx, hflag, hname, bind, Except.bind, pure, Except.pure]
    rfl

/-- **An entry is read from the form that says it.** -/
theorem decode_eq_ok_iff (e : Entry) (record : Bytes) :
    decode record = .ok e ↔ ∃ f : Form, f.Valid ∧ f.bytes = record ∧ f.Says e := by
  rw [exists_form_iff]
  constructor
  · intro h
    unfold decode at h
    split at h
    · rename_i v a₀ a₁ a₂ a₃ c₀ c₁ c₂ c₃ flag hi lo rest
      obtain ⟨rfl, happ, hctx, hflag, hname⟩ := decode_eq_ok_iff_parts.mp h
      obtain ⟨htext, hlength, hsome, hfits, hnul⟩ := readName_eq_ok_iff.mp hname
      have hsaid := Bytes.be16_word16 hi lo
      rw [Bytes.be16, ← hlength, List.cons.injEq, List.cons.injEq] at hsaid
      refine ⟨?_, ?_⟩
      · rw [Nameable, htext, hlength]
        exact ⟨hsome, hfits, hnul⟩
      · simp only [Form.bytes, form, (readId_eq_ok_iff rfl).mp happ, (readId_eq_ok_iff rfl).mp hctx,
          ← readFlag_eq_ok_iff.mp hflag, htext, hsaid.1, hsaid.2.1]
        rfl
    · exact absurd h (by simp)
  · rintro ⟨hname, rfl⟩
    obtain ⟨a₀, a₁, a₂, a₃, happ⟩ := e.appid.exists_bytes_eq
    obtain ⟨c₀, c₁, c₂, c₃, hctx⟩ := e.ctxid.exists_bytes_eq
    have hbytes : e.form.bytes = version :: a₀ :: a₁ :: a₂ :: a₃ :: c₀ :: c₁ :: c₂ :: c₃ ::
        flagByte e.deleteFile :: e.form.high :: e.form.low :: Bytes.ofText e.fileName := by
      simp only [Form.bytes, form, happ, hctx]
      rfl
    have hsaid : (Bytes.word16 e.form.high e.form.low).toNat =
        (Bytes.ofText e.fileName).length := by
      rw [Bytes.toNat_word16]
      exact (e.form_valid_iff.mpr hname).said
    rw [hbytes]
    refine decode_eq_ok_iff_parts.mpr ⟨rfl, (readId_eq_ok_iff rfl).mpr happ,
      (readId_eq_ok_iff rfl).mpr hctx, readFlag_eq_ok_iff.mpr rfl, readName_eq_ok_iff.mpr ?_⟩
    rw [hsaid]
    exact ⟨rfl, rfl, hname⟩

/-! ### One for one -/

/-- **One entry, one record.**

An entry can be written exactly if its name has 1 to 4096 bytes and no NUL, and then it is read
again from what was written. What can be read is what would be written, so of the many strings of
bytes just those are read in which a valid form stands, and the entry that is read is the one the
form says. A record that can be read is the record of one entry and no other, and an entry that
can be written is read from one record and no other. -/
theorem codec_exact :
    (∀ e : Entry, (∃ record, e.encode = .ok record) ↔
      1 ≤ (Bytes.ofText e.fileName).length ∧ (Bytes.ofText e.fileName).length ≤ 4096 ∧
        0 ∉ Bytes.ofText e.fileName) ∧
    (∀ (e : Entry) (record : Bytes), e.encode = .ok record → decode record = .ok e) ∧
    (∀ (record : Bytes) (e : Entry), decode record = .ok e → e.encode = .ok record) ∧
    (∀ record : Bytes, (∃ e, decode record = .ok e) ↔ ∃ f : Form, f.Valid ∧ f.bytes = record) ∧
    (∀ (record : Bytes) (e : Entry),
      decode record = .ok e ↔ ∃ f : Form, f.Valid ∧ f.bytes = record ∧ f.Says e) ∧
    (∀ record : Bytes, (∃ e, decode record = .ok e) → ∃! e : Entry, e.encode = .ok record) ∧
    ∀ e : Entry, (∃ record, e.encode = .ok record) → ∃! record, decode record = .ok e := by
  have hsame (e : Entry) (record : Bytes) : e.encode = .ok record ↔ decode record = .ok e :=
    (e.encode_eq_ok_iff record).trans (e.decode_eq_ok_iff record).symm
  refine ⟨exists_encode_iff, fun e record => (hsame e record).mp,
    fun record e => (hsame e record).mpr, ?_, fun record e => e.decode_eq_ok_iff record, ?_, ?_⟩
  · intro record
    constructor
    · rintro ⟨e, h⟩
      obtain ⟨f, hvalid, hbytes, -⟩ := (e.decode_eq_ok_iff record).mp h
      exact ⟨f, hvalid, hbytes⟩
    · rintro ⟨f, hvalid, hbytes⟩
      obtain ⟨e, hsays⟩ := hvalid.exists_says
      exact ⟨e, (e.decode_eq_ok_iff record).mpr ⟨f, hvalid, hbytes, hsays⟩⟩
  -- two entries of one record are both read from it, and two records of one entry both written
  · rintro record ⟨e, h⟩
    refine ⟨e, (hsame e record).mpr h, fun e' h' => ?_⟩
    exact Except.ok.inj (((hsame e' record).mp h').symm.trans h)
  · rintro e ⟨record, h⟩
    refine ⟨record, (hsame e record).mp h, fun record' h' => ?_⟩
    exact Except.ok.inj (((hsame e record').mpr h').symm.trans h)

/-- A short context is filled up, and the length of the name has its greater digit first. -/
theorem codec_exact_trace :
    let e : Entry := ⟨Id.ecu1, Id.ft, "/tmp/trace.bin", true⟩
    let record : Bytes := [0x01, 0x45, 0x43, 0x55, 0x31, 0x46, 0x54, 0x00, 0x00, 0x01, 0x00, 0x0E,
      0x2F, 0x74, 0x6D, 0x70, 0x2F, 0x74, 0x72, 0x61, 0x63, 0x65, 0x2E, 0x62, 0x69, 0x6E]
    e.encode = .ok record ∧ decode record = .ok e ∧
      (∃! e' : Entry, e'.encode = .ok record) ∧ ∃ f : Form, f.Valid ∧ f.bytes = record := by
  intro e record
  obtain ⟨-, hread, -, hvalid, -, hone, -⟩ := codec_exact
  have hname : Bytes.ofText e.fileName = [0x2F, 0x74, 0x6D, 0x70, 0x2F, 0x74, 0x72, 0x61, 0x63,
      0x65, 0x2E, 0x62, 0x69, 0x6E] := by decide
  have hencode : e.encode = .ok record := by
    simp only [encode, hname]
    rfl
  have hdecode := hread e record hencode
  exact ⟨hencode, hdecode, hone record ⟨e, hdecode⟩, (hvalid record).mp ⟨e, hdecode⟩⟩

end LogCourier.Entry

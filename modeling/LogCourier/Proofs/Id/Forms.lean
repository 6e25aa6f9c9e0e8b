import LogCourier.Proofs.Bytes
import LogCourier.Proofs.Id
import LogCourier.Settings.Document
import Mathlib.Data.List.DropRight

/-!
# The forms of an identifier

An identifier is written in three ways: as four bytes on the wire, as a text for people, and as the
same text in a document. This file says that they agree (`LogCourier.Id.forms_agree`): each is read
back as the identifier it was written for, and nothing else is read than what is written, or what
differs from it by its filling.

A text may have filling, too: a text of four bytes at most is read as the four bytes that it makes
with NUL behind it. So there are more texts that are read than identifiers, `FT` and `FT` with a NUL
behind it being the same one. What is told of an identifier is the text without the filling, and
that is **one text for each identifier** (`LogCourier.Id.text_inj`).

Lengths are those of bytes. A text that is not ASCII may be too long although it has four characters
or fewer, and then that is the fault which is told; faults have an order
(`LogCourier.Id.Fault`).
-/

namespace LogCourier

namespace Id

/-! ### Names -/

/-- **A text that can name something**: it is not empty, and all of it is ASCII and not NUL. -/
structure IsName (s : String) : Prop where
  /-- There is a character. -/
  ne_empty : s ≠ ""
  /-- Each is ASCII, and not NUL. -/
  ascii : ∀ c ∈ s.toList, c ≠ '\x00' ∧ c.toNat < 128

theorem IsName.ofText_ne_nil {s : String} (h : IsName s) : Bytes.ofText s ≠ [] :=
  fun hnil => h.ne_empty (Bytes.ofText_inj.mp hnil)

/-- So many NUL characters. -/
def nuls (k : Nat) : String :=
  String.ofList (List.replicate k '\x00')

theorem ofText_nuls (k : Nat) : Bytes.ofText (nuls k) = List.replicate k 0 := by
  rw [nuls, Bytes.ofText_ofList]
  induction k with
  | zero => rfl
  | succ k ih => rw [List.replicate_succ, List.flatMap_cons, ih]; rfl

/-- The character of an ASCII byte. -/
theorem toNat_ofNat_of_lt {b : UInt8} (h : b < 128) : (Char.ofNat b.toNat).toNat = b.toNat := by
  have hlt : b.toNat < 128 := h
  have hvalid : b.toNat.isValidChar := .inl (by omega)
  rw [Char.ofNat, dif_pos hvalid]
  rfl

/-- The text of an identifier has its characters as bytes. -/
theorem ofText_text (id : Id) : Bytes.ofText id.text = id.chars := by
  have hchars := id.ascii
  rw [text, Bytes.ofText_ofList]
  generalize id.chars = chars at hchars
  induction chars with
  | nil => rfl
  | cons b chars ih =>
    have hb := (hchars b List.mem_cons_self).2
    rw [List.map_cons, List.flatMap_cons, ih fun x hx => hchars x (List.mem_cons_of_mem _ hx),
      Bytes.utf8EncodeChar_of_lt (by rw [toNat_ofNat_of_lt hb]; exact hb), toNat_ofNat_of_lt hb,
      UInt8.ofNat_toNat]
    rfl

theorem isName_text (id : Id) : IsName id.text where
  ne_empty := by
    intro h
    have hchars := id.ofText_text
    rw [h] at hchars
    exact id.ne_nil hchars.symm
  ascii := by
    intro c hc
    rw [text, String.toList_ofList, List.mem_map] at hc
    obtain ⟨b, hb, rfl⟩ := hc
    obtain ⟨hnul, hlt⟩ := id.ascii b hb
    rw [toNat_ofNat_of_lt hlt]
    refine ⟨fun h => hnul ?_, hlt⟩
    rw [← UInt8.toNat_inj, ← toNat_ofNat_of_lt hlt, h]
    rfl

/-- **A name of no more than four bytes is the text of an identifier.** -/
theorem IsName.exists_text {s : String} (h : IsName s) (hlength : (Bytes.ofText s).length ≤ 4) :
    ∃ id : Id, id.text = s := by
  have hascii : ∀ b ∈ Bytes.ofText s, b ≠ 0 ∧ b < 128 := by
    intro b hb
    rw [← String.ofList_toList (s := s), Bytes.ofText_ofList, List.mem_flatMap] at hb
    obtain ⟨c, hc, hb⟩ := hb
    obtain ⟨hnul, hlt⟩ := h.ascii c hc
    rw [Bytes.utf8EncodeChar_of_lt hlt, List.mem_singleton] at hb
    have hb' : b.toNat = c.toNat := by
      rw [hb, UInt8.toNat_ofNat']
      omega
    refine ⟨fun hzero => hnul ?_, ?_⟩
    · rw [← Char.toNat_inj, ← hb', hzero]
      rfl
    · rw [UInt8.lt_iff_toNat_lt, hb']
      exact hlt
  refine ⟨⟨Bytes.ofText s, h.ofText_ne_nil, hlength, hascii⟩, ?_⟩
  rw [← Bytes.ofText_inj, ofText_text]

/-- **Identifiers with the same text are the same.** -/
theorem text_inj {id id' : Id} : id.text = id'.text ↔ id = id' := by
  refine ⟨fun h => ?_, fun h => h ▸ rfl⟩
  have hchars : id.chars = id'.chars := by rw [← ofText_text, ← ofText_text, h]
  cases id
  cases id'
  subst hchars
  rfl

/-! ### Reading texts -/

/-- Bytes are read as the identifier with a text if they are that text and filling. -/
theorem exists_ofBytes_iff {raw : Bytes} {name : String} :
    (∃ id, ofBytes raw = .ok id ∧ id.text = name) ↔
      IsName name ∧ raw.length ≤ 4 ∧ ∃ k, raw = Bytes.ofText name ++ List.replicate k 0 := by
  constructor
  · rintro ⟨id, hid, rfl⟩
    obtain ⟨hlength, k, hraw⟩ := eq_filled_of_ofBytes hid
    exact ⟨id.isName_text, hlength, k, by rw [ofText_text, hraw]⟩
  · rintro ⟨hname, hlength, k, rfl⟩
    rw [List.length_append, List.length_replicate] at hlength
    obtain ⟨id, rfl⟩ := hname.exists_text (by omega)
    rw [ofText_text] at hlength ⊢
    exact ⟨id, id.ofBytes_filled hlength, rfl⟩

/-- A text is read as the identifier with a text if it is that text and filling. -/
theorem exists_ofText_iff {s name : String} :
    (∃ id, ofText s = .ok id ∧ id.text = name) ↔
      IsName name ∧ (Bytes.ofText s).length ≤ 4 ∧ ∃ k, s = name ++ nuls k := by
  rw [show ofText s = ofBytes (Bytes.ofText s) from rfl, exists_ofBytes_iff]
  simp only [← ofText_nuls, ← Bytes.ofText_append, Bytes.ofText_inj]

/-- The text of an identifier is read as it. -/
theorem ofText_of_text (id : Id) : ofText id.text = .ok id := by
  have h := id.ofBytes_filled (k := 0) (by simpa using id.length_le)
  rwa [List.replicate_zero, List.append_nil, ← ofText_text] at h

/-- **What is told of a text that was read is the text without its filling.** -/
theorem toList_text_of_ofText {s : String} {id : Id} (h : ofText s = .ok id) :
    id.text.toList = s.toList.rdropWhile (· = '\x00') := by
  obtain ⟨hname, -, k, rfl⟩ := exists_ofText_iff.mp ⟨id, h, rfl⟩
  clear h
  rw [String.toList_append, nuls, String.toList_ofList]
  induction k with
  | zero =>
    rw [List.replicate_zero, List.append_nil, eq_comm, List.rdropWhile_eq_self_iff]
    intro hsome hnul
    exact (hname.ascii _ (List.getLast_mem hsome)).1 (of_decide_eq_true hnul)
  | succ k ih =>
    rw [List.replicate_succ', ← List.append_assoc, List.rdropWhile_concat_pos _ _ _ (by simp)]
    exact ih

/-! ### What is wrong with others -/

/-- **What is wrong with bytes that name nothing.** Of several faults there is one that comes first,
and only that is told. -/
inductive Fault (raw : Bytes) : Error → Prop
  /-- There are no bytes, or too many. -/
  | length (h : raw.length = 0 ∨ 4 < raw.length) : Fault raw (.length raw.length)
  /-- This byte is not ASCII, and those before it are. -/
  | nonAscii {front rest : Bytes} {b : UInt8} (hlength : 1 ≤ raw.length ∧ raw.length ≤ 4)
      (hraw : raw = front ++ b :: rest) (hfront : ∀ x ∈ front, x < 128) (hb : 128 ≤ b) :
      Fault raw (.nonAscii b)
  /-- All is ASCII, but there is filling before anything else. -/
  | empty (hlength : 1 ≤ raw.length ∧ raw.length ≤ 4) (hascii : ∀ x ∈ raw, x < 128)
      (hhead : raw.head? = some 0) : Fault raw .empty
  /-- All is ASCII and there is text at the start, but there is text behind filling, too. -/
  | gap {front rest : Bytes} {b : UInt8} (hlength : 1 ≤ raw.length ∧ raw.length ≤ 4)
      (hascii : ∀ x ∈ raw, x < 128) (hhead : raw.head? ≠ some 0) (hraw : raw = front ++ 0 :: rest)
      (hmem : b ∈ rest) (hb : b ≠ 0) : Fault raw .gap

/-- Bytes are all ASCII if none is found that is not. -/
theorem find?_eq_none_iff_ascii {raw : Bytes} :
    raw.find? (128 ≤ ·) = none ↔ ∀ x ∈ raw, x < 128 := by
  simp only [List.find?_eq_none, decide_eq_true_eq, UInt8.not_le]

theorem takeWhile_eq_nil_iff_head? {raw : Bytes} (h : 1 ≤ raw.length) :
    raw.takeWhile (· ≠ 0) = [] ↔ raw.head? = some 0 := by
  cases raw with
  | nil => exact absurd h (by simp)
  | cons b raw =>
    by_cases hb : b = 0
    · simp [hb]
    · simp [hb]

/-- Bytes with text behind filling, and otherwise not. -/
theorem any_dropWhile_iff {raw : Bytes} : (raw.dropWhile (· ≠ 0)).any (· ≠ 0) = true ↔
    ∃ front rest b, raw = front ++ 0 :: rest ∧ b ∈ rest ∧ b ≠ 0 := by
  induction raw with
  | nil => simp
  | cons x raw ih =>
    by_cases hx : x = 0
    · subst hx
      rw [List.dropWhile_cons_of_neg (by simp), List.any_cons]
      simp only [ne_eq, not_true_eq_false, decide_false, Bool.false_or, List.any_eq_true,
        decide_eq_true_eq]
      constructor
      · rintro ⟨b, hmem, hb⟩
        exact ⟨[], raw, b, rfl, hmem, hb⟩
      · rintro ⟨front, rest, b, hraw, hmem, hb⟩
        refine ⟨b, ?_, hb⟩
        cases front with
        | nil => exact (List.cons.inj hraw).2 ▸ hmem
        | cons y front =>
          rw [(List.cons.inj hraw).2]
          exact List.mem_append_right _ (List.mem_cons_of_mem _ hmem)
    · rw [List.dropWhile_cons_of_pos (by simp [hx]), ih]
      constructor
      · rintro ⟨front, rest, b, rfl, hmem, hb⟩
        exact ⟨x :: front, rest, b, rfl, hmem, hb⟩
      · rintro ⟨front, rest, b, hraw, hmem, hb⟩
        cases front with
        | nil => exact absurd (List.cons.inj hraw).1 hx
        | cons y front => exact ⟨front, rest, b, (List.cons.inj hraw).2, hmem, hb⟩

/-- **The first fault is told.** -/
theorem ofBytes_eq_error_iff {raw : Bytes} {e : Error} : ofBytes raw = .error e ↔ Fault raw e := by
  constructor
  · intro h
    unfold ofBytes at h
    split at h
    · rename_i hlength
      rw [← Except.error.inj h]
      exact .length hlength
    rename_i hlength
    have hlength' : 1 ≤ raw.length ∧ raw.length ≤ 4 := by omega
    split at h
    · rename_i b hfind
      rw [← Except.error.inj h]
      obtain ⟨hb, front, rest, hraw, hfront⟩ := List.find?_eq_some_iff_append.mp hfind
      refine .nonAscii hlength' hraw (fun x hx => ?_) (of_decide_eq_true hb)
      simpa using hfront x hx
    rename_i hfind
    have hascii := find?_eq_none_iff_ascii.mp hfind
    split at h
    · rename_i hnil
      rw [← Except.error.inj h]
      exact .empty hlength' hascii ((takeWhile_eq_nil_iff_head? hlength'.1).mp hnil)
    rename_i hnil
    split at h
    · rename_i hgap
      rw [← Except.error.inj h]
      obtain ⟨front, rest, b, hraw, hmem, hb⟩ := any_dropWhile_iff.mp hgap
      exact .gap hlength' hascii (mt (takeWhile_eq_nil_iff_head? hlength'.1).mpr hnil) hraw hmem hb
    · exact absurd h (by simp)
  · intro h
    unfold ofBytes
    cases h with
    | length h => rw [dif_pos h]
    | nonAscii hlength hraw hfront hb =>
      rename_i front rest b
      rw [dif_neg (by omega)]
      have hfind : raw.find? (128 ≤ ·) = some b := by
        rw [List.find?_eq_some_iff_append]
        exact ⟨decide_eq_true hb, front, rest, hraw, fun x hx => by simpa using hfront x hx⟩
      split
      · rename_i b' hb'
        rw [hfind] at hb'
        rw [Option.some.inj hb']
      · rename_i hnone
        rw [hfind] at hnone
        exact absurd hnone (by simp)
    | empty hlength hascii hhead =>
      rw [dif_neg (by omega)]
      split
      · rename_i b hb
        rw [find?_eq_none_iff_ascii.mpr hascii] at hb
        exact absurd hb (by simp)
      · rw [dif_pos ((takeWhile_eq_nil_iff_head? hlength.1).mpr hhead)]
    | gap hlength hascii hhead hraw hmem hb =>
      rw [dif_neg (by omega)]
      split
      · rename_i b hb
        rw [find?_eq_none_iff_ascii.mpr hascii] at hb
        exact absurd hb (by simp)
      · rw [dif_neg (mt (takeWhile_eq_nil_iff_head? hlength.1).mp hhead),
          if_pos (any_dropWhile_iff.mpr ⟨_, _, _, hraw, hmem, hb⟩)]

/-- Filling is no fault and mends none. -/
theorem Fault.filled {raw : Bytes} {e : Error} (h : Fault raw e) (hsome : 1 ≤ raw.length) {k : Nat}
    (hlength : raw.length + k ≤ 4) : Fault (raw ++ List.replicate k 0) e := by
  have hlength' : 1 ≤ (raw ++ List.replicate k 0).length ∧
      (raw ++ List.replicate k 0).length ≤ 4 := by
    rw [List.length_append, List.length_replicate]
    omega
  have hascii (hraw : ∀ x ∈ raw, x < 128) : ∀ x ∈ raw ++ List.replicate k 0, x < 128 := by
    intro x hx
    rcases List.mem_append.mp hx with hx | hx
    · exact hraw x hx
    · rw [(List.mem_replicate.mp hx).2]
      decide
  have hhead : (raw ++ List.replicate k 0).head? = raw.head? :=
    List.head?_append_of_ne_nil _ (List.length_pos_iff.mp hsome)
  cases h with
  | length h => omega
  | nonAscii _ hraw hfront hb =>
    exact .nonAscii hlength' (by rw [hraw, List.append_assoc, List.cons_append]) hfront hb
  | empty _ hraw hzero => exact .empty hlength' (hascii hraw) (hhead.trans hzero)
  | gap _ hraw hzero heq hmem hb =>
    exact .gap hlength' (hascii hraw) (hhead ▸ hzero)
      (by rw [heq, List.append_assoc, List.cons_append]) (List.mem_append_left _ hmem) hb

/-- **It does not matter who fills up.** Bytes that are not too many are read like the four that
they make with filling. -/
theorem ofBytes_append_filling {raw : Bytes} (hsome : 1 ≤ raw.length) {k : Nat}
    (hlength : raw.length + k ≤ 4) : ofBytes (raw ++ List.replicate k 0) = ofBytes raw := by
  cases hraw : ofBytes raw with
  | error e => exact ofBytes_eq_error_iff.mpr ((ofBytes_eq_error_iff.mp hraw).filled hsome hlength)
  | ok id =>
    obtain ⟨-, j, rfl⟩ := eq_filled_of_ofBytes hraw
    rw [List.length_append, List.length_replicate] at hlength
    rw [List.append_assoc, List.replicate_append_replicate]
    exact id.ofBytes_filled (by omega)

end Id

/-! ### Documents -/

/-- An identifier in a document is a text that is read as it. -/
theorem Settings.readId?_eq_some_iff {d : Document} {id : Id} :
    readId? d = some id ↔ ∃ s, d = .text s ∧ Id.ofText s = .ok id := by
  cases d with
  | text s =>
    simp only [readId?, Document.text.injEq, exists_eq_left']
    cases Id.ofText s <;> simp [Except.toOption]
  | _ => simp [readId?]

namespace Id

/-- **The forms of an identifier agree.**

* Four bytes are read as the identifier with a text exactly if they are that text, which has to be a
  name, and filling; and what is read is written as the same four bytes.
* A text is read as the identifier with a text exactly if it is that name and filling, of four bytes
  at most; and what is told of it is the text without the NULs that end it. Whether the text is
  filled up before it is read does not matter.
* What is written in any of the three forms is read as the identifier it was written for, and
  identifiers are the same if their texts are.
* What is not read has a fault, and the first one is told. -/
theorem forms_agree :
    (∀ (raw : Bytes) (name : String), raw.length = 4 →
      ((∃ id, ofBytes raw = .ok id ∧ id.text = name) ↔
        IsName name ∧ ∃ k, raw = Bytes.ofText name ++ List.replicate k 0) ∧
      ∀ id, ofBytes raw = .ok id → id.bytes = raw) ∧
    (∀ s name : String,
      ((∃ id, ofText s = .ok id ∧ id.text = name) ↔
        (1 ≤ (Bytes.ofText s).length ∧ (Bytes.ofText s).length ≤ 4) ∧ IsName name ∧
          ∃ k, s = name ++ nuls k) ∧
      (∀ id, ofText s = .ok id → id.text.toList = s.toList.rdropWhile (· = '\x00')) ∧
      (1 ≤ (Bytes.ofText s).length → (Bytes.ofText s).length ≤ 4 → ofText s =
        ofBytes (Bytes.ofText s ++ List.replicate (4 - (Bytes.ofText s).length) 0))) ∧
    (∀ id : Id, ofText id.text = .ok id ∧ Settings.readId? (.text id.text) = some id ∧
      ofBytes id.bytes = .ok id ∧ ∀ id' : Id, id = id' ↔ id.text = id'.text) ∧
    (∀ (raw : Bytes) (e : Error), ofBytes raw = .error e ↔ Fault raw e) ∧
    ∀ (s : String) (e : Error), ofText s = .error e ↔ Fault (Bytes.ofText s) e := by
  refine ⟨fun raw name hlength => ⟨?_, fun id => bytes_of_ofBytes hlength⟩, fun s name =>
    ⟨?_, fun id => toList_text_of_ofText, fun hsome hlength => ?_⟩, fun id => ⟨id.ofText_of_text,
    Settings.readId?_eq_some_iff.mpr ⟨_, rfl, id.ofText_of_text⟩, id.ofBytes_bytes,
    fun id' => text_inj.symm⟩, fun raw e => ofBytes_eq_error_iff, fun s e => ofBytes_eq_error_iff⟩
  · rw [exists_ofBytes_iff, hlength]
    simp
  · rw [exists_ofText_iff]
    constructor
    · rintro ⟨hname, hlength, k, rfl⟩
      refine ⟨⟨?_, hlength⟩, hname, k, rfl⟩
      rw [Bytes.ofText_append, List.length_append]
      have hsome := List.length_pos_iff.mpr hname.ofText_ne_nil
      omega
    · rintro ⟨⟨-, hlength⟩, hname, hfilled⟩
      exact ⟨hname, hlength, hfilled⟩
  · exact (ofBytes_append_filling hsome (by omega)).symm

/-- The identifier `FT` is read from its four bytes, and from its text with a NUL behind it. -/
theorem forms_agree_filled :
    let raw : Bytes := [0x46, 0x54, 0x00, 0x00]
    (raw.length = 4 ∧ ofBytes raw = .ok ft ∧ ft.bytes = raw) ∧
    (ofText "FT\x00" = .ok ft ∧
      ft.text.toList = "FT\x00".toList.rdropWhile (· = '\x00')) ∧
    (1 ≤ (Bytes.ofText "FT\x00").length ∧ (Bytes.ofText "FT\x00").length ≤ 4 ∧
      ofText "FT\x00" = ofBytes (Bytes.ofText "FT\x00" ++
        List.replicate (4 - (Bytes.ofText "FT\x00").length) 0)) := by
  intro raw
  obtain ⟨hwire, htext, -⟩ := forms_agree
  have hraw : ofBytes raw = .ok ft := rfl
  have hread : ofText "FT\x00" = .ok ft := rfl
  exact ⟨⟨rfl, hraw, (hwire raw "FT" rfl).2 ft hraw⟩,
    ⟨hread, (htext "FT\x00" "FT").2.1 ft hread⟩,
    ⟨by decide, by decide, (htext "FT\x00" "FT").2.2 (by decide) (by decide)⟩⟩

end Id

end LogCourier

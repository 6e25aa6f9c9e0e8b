import LogCourier.Proofs.Toml.Document
import LogCourier.Toml
import Mathlib

/-!
# What has to be known of a codec

Settings are written down with a codec, and read with it again. Not much has to be known of it
(`LogCourier.Document.Codec.Faithful`), and all of that is about tables of texts, flags and whole
numbers, with such tables behind these (`LogCourier.Document.laidOut`):

* **what is written is read as the table it was written for**, if no whole number needs more than
  sixty-four bits with its sign;
* **a table with a whole number above these is not written at all.**

Nothing is said of how a table looks when it is written, of what else can be written, or of what
else is read. So whatever is shown of settings with such a codec holds of many notations and of many
ways to read and to write each of them. There is at least one, which is TOML as it is read and
written here (`LogCourier.Toml.faithful_codec`).
-/

namespace LogCourier

namespace Document

/-- **A value that is written as it is**: a text, a flag, or a whole number of sixty-four bits with
its sign. -/
def IsPlain : Document → Prop
  | text _ | flag _ => True
  | integer n => -2 ^ 63 ≤ n ∧ n < 2 ^ 63
  | _ => False

/-- **Names that can be told apart** and need no quotes: they are of letters, digits, `_` and
`-`. -/
structure Named (names : List String) : Prop where
  /-- No name is empty. -/
  nonempty : "" ∉ names
  /-- No name has other characters. -/
  bare : ∀ name ∈ names, name.toList.all fun c => c.isAlphanum || c == '_' || c == '-'
  /-- No two are the same. -/
  nodup : names.Nodup

instance (names : List String) : Decidable (Named names) :=
  decidable_of_iff ("" ∉ names ∧ (∀ name ∈ names,
      name.toList.all fun c => c.isAlphanum || c == '_' || c == '-') ∧ names.Nodup)
    ⟨fun h => ⟨h.1, h.2.1, h.2.2⟩, fun h => ⟨h.nonempty, h.bare, h.nodup⟩⟩

/-- The entries of a table of values, with tables of values behind them. -/
def laidOut (values : List (String × Document))
    (tables : List (String × List (String × Document))) : List (String × Document) :=
  values ++ tables.map fun e => (e.1, table e.2)

/-- **A codec that can be relied on** for settings. -/
structure Codec.Faithful (codec : Codec) : Prop where
  /-- What is written is read again. -/
  reads : ∀ values tables, Named (values.map Prod.fst ++ tables.map Prod.fst) →
    (∀ e ∈ values, e.2.IsPlain) →
    (∀ e ∈ tables, Named (e.2.map Prod.fst) ∧ ∀ i ∈ e.2, i.2.IsPlain) →
    ∃ text, codec.write (laidOut values tables) = .ok text ∧
      codec.read? text = some (table (laidOut values tables))
  /-- A whole number that is too large is not written. -/
  refuses : ∀ values tables (n : Int), 2 ^ 63 ≤ n →
    (integer n ∈ values.map Prod.snd ∨ ∃ e ∈ tables, integer n ∈ e.2.map Prod.snd) →
    ∃ message, codec.write (laidOut values tables) = .error message

end Document

/-! ### TOML -/

namespace Toml

section Laid

variable {values : List (String × Document)} {tables : List (String × List (String × Document))}

theorem isNone_entriesOf? {d : Document} (h : d.IsPlain) : (entriesOf? d).isNone = true := by
  cases d with
  | table entries => exact h.elim
  | _ => rfl

theorem isSome_writeScalar? {d : Document} (h : d.IsPlain) : (writeScalar? d).isSome = true := by
  cases d with
  | flag b => rfl
  | text s => rfl
  | integer n =>
    have hn : -2 ^ 63 ≤ n ∧ n < 2 ^ 63 := h
    have hwritable : isWritable n = true := decide_eq_true (by unfold maxInteger; omega)
    rw [writeScalar?, if_pos hwritable]
    rfl
  | _ => exact h.elim

/-- A whole number that is too large has no written form. -/
theorem writeScalar?_eq_none {n : Int} (h : 2 ^ 63 ≤ n) : writeScalar? (.integer n) = none := by
  have hwritable : ¬ isWritable n = true := fun hwritable => by
    have hle := (of_decide_eq_true hwritable).2
    unfold maxInteger at hle
    omega
  rw [writeScalar?, if_neg hwritable]

/-- The values in a table are written first. -/
theorem filter_laidOut (h : ∀ e ∈ values, e.2.IsPlain) :
    (Document.laidOut values tables).filter (fun e => (entriesOf? e.2).isNone) = values := by
  rw [Document.laidOut, List.filter_append,
    List.filter_eq_self.mpr fun e he => isNone_entriesOf? (h e he), List.filter_map,
    List.filter_eq_nil_iff.mpr fun e _ => by simp [entriesOf?], List.map_nil, List.append_nil]

/-- The tables in it are written behind them. -/
theorem filter_laidOut_tables (h : ∀ e ∈ values, e.2.IsPlain) :
    (Document.laidOut values tables).filter (fun e => (entriesOf? e.2).isSome) =
      tables.map fun e => (e.1, .table e.2) := by
  have hnone (e : String × Document) (he : e ∈ values) : ¬ (entriesOf? e.2).isSome = true := by
    simp [Option.isNone_iff_eq_none.mp (isNone_entriesOf? (h e he))]
  rw [Document.laidOut, List.filter_append, List.filter_eq_nil_iff.mpr hnone, List.nil_append,
    List.filter_map]
  exact congrArg (List.map _) (List.filter_eq_self.mpr fun _ _ => rfl)

/-- They are the tables that there are. -/
theorem filterMap_laidOut (h : ∀ e ∈ values, e.2.IsPlain) :
    ((Document.laidOut values tables).filterMap fun e => (entriesOf? e.2).map (e.1, ·)) =
      tables := by
  have hnone (e : String × Document) (he : e ∈ values) :
      (entriesOf? e.2).map (e.1, ·) = none := by
    rw [Option.isNone_iff_eq_none.mp (isNone_entriesOf? (h e he)), Option.map_none]
  rw [Document.laidOut, List.filterMap_append, List.filterMap_eq_nil_iff.mpr hnone,
    List.nil_append, List.filterMap_map]
  exact List.filterMap_some

/-- A table can be written if all its values can, and so can those of the tables in it. -/
theorem isSome_write?_laidOut (hvalues : ∀ e ∈ values, e.2.IsPlain)
    (htables : ∀ e ∈ tables, ∀ i ∈ e.2, i.2.IsPlain) :
    (write? (Document.laidOut values tables)).isSome = true := by
  rw [isSome_write?, filter_laidOut hvalues, filterMap_laidOut hvalues, Bool.and_eq_true,
    List.all_eq_true, List.all_eq_true]
  refine ⟨fun e he => isSome_writeScalar? (hvalues e he), fun e he => ?_⟩
  exact List.all_eq_true.mpr fun i hi => isSome_writeScalar? (htables e he i hi)

/-- It cannot be written if there is a whole number in it that is too large. -/
theorem write?_laidOut_eq_none {n : Int} (hn : 2 ^ 63 ≤ n)
    (h : .integer n ∈ values.map Prod.snd ∨ ∃ e ∈ tables, .integer n ∈ e.2.map Prod.snd) :
    write? (Document.laidOut values tables) = none := by
  have hnone : ¬ (writeScalar? (.integer n)).isSome = true := by simp [writeScalar?_eq_none hn]
  rw [← Option.not_isSome_iff_eq_none, isSome_write?, Bool.and_eq_true, List.all_eq_true,
    List.all_eq_true]
  rintro ⟨hvalues, htables⟩
  rcases h with hvalue | ⟨e, he, hvalue⟩
  · obtain ⟨⟨name, d⟩, hmem, rfl⟩ := List.mem_map.mp hvalue
    exact hnone (hvalues _ (List.mem_filter.mpr ⟨List.mem_append_left _ hmem, rfl⟩))
  · obtain ⟨⟨name, d⟩, hmem, rfl⟩ := List.mem_map.mp hvalue
    have hsection : e ∈ (Document.laidOut values tables).filterMap
        fun e => (entriesOf? e.2).map (e.1, ·) :=
      List.mem_filterMap.mpr ⟨(e.1, .table e.2), List.mem_append_right _
        (List.mem_map.mpr ⟨e, he, rfl⟩), rfl⟩
    exact hnone (List.all_eq_true.mp (htables e hsection) _ hmem)

/-- A letter or a digit may stand in a name. -/
theorem isNameChar_of_isAlphanum {c : Char} (h : c.isAlphanum = true) : isNameChar c = true := by
  simp only [Char.isAlphanum, Char.isAlpha, Char.isUpper, Char.isLower, Char.isDigit,
    Bool.or_eq_true, Bool.and_eq_true, decide_eq_true_eq, ge_iff_le, UInt32.le_iff_toNat_le] at h
  change (65 ≤ c.toNat ∧ c.toNat ≤ 90 ∨ 97 ≤ c.toNat ∧ c.toNat ≤ 122) ∨
    48 ≤ c.toNat ∧ c.toNat ≤ 57 at h
  simp only [isNameChar, Bool.or_eq_true, Bool.and_eq_true, decide_eq_true_eq]
  omega

theorem named_of_named {names : List String} (h : Document.Named names) : Named names where
  bare := by
    intro name hmem
    refine ⟨fun hempty => h.nonempty (hempty ▸ hmem), fun c hc => ?_⟩
    have hbare := List.all_eq_true.mp (h.bare name hmem) c hc
    simp only [Bool.or_eq_true, beq_iff_eq] at hbare
    rcases hbare with (halnum | rfl) | rfl
    · exact isNameChar_of_isAlphanum halnum
    · rfl
    · rfl
  nodup := h.nodup

/-- **TOML can be relied on.** -/
theorem faithful_codec : codec.Faithful where
  reads := by
    intro values tables hnames hvalues htables
    obtain ⟨text, htext⟩ := Option.isSome_iff_exists.mp
      (isSome_write?_laidOut hvalues fun e he => (htables e he).2)
    have hfst : (Document.laidOut values tables).map Prod.fst =
        values.map Prod.fst ++ tables.map Prod.fst := by
      rw [Document.laidOut, List.map_append, List.map_map]
      rfl
    have hread := read?_of_write? htext (hfst ▸ named_of_named hnames) fun name pairs hmem => by
      rcases List.mem_append.mp hmem with hvalue | htable
      · exact (hvalues _ hvalue).elim
      · obtain ⟨e, he, heq⟩ := List.mem_map.mp htable
        rw [← Document.table.inj (Prod.mk.inj heq).2]
        exact named_of_named (htables e he).1
    rw [filter_laidOut hvalues, filter_laidOut_tables hvalues] at hread
    exact ⟨text, by simp only [codec, htext, Option.elim], hread⟩
  refuses := by
    intro values tables n hn h
    exact ⟨outOfRange, by simp only [codec, write?_laidOut_eq_none hn h, Option.elim]⟩

end Laid

end Toml

end LogCourier

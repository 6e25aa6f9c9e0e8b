import LogCourier.Proofs.Entry.Form

/-!
# What is said of a damaged record

A record can lose its end on the way, or something can get stuck behind it. Either is told from
the other, and from every other damage, by the error that the reader answers with
(`LogCourier.Entry.damage_exact`).

The reader looks at a record from left to right, so **the first twelve bytes decide what becomes of
the rest** (`LogCourier.Entry.heading_cases`): either something is wrong with them, and then that is
said whatever follows; or they say how long the name is, and then it only matters how many bytes
follow.

| bytes that follow | what is said |
| --- | --- |
| fewer than the name has | that so many bytes are missing |
| more | that so many are left over |
| as many | nothing, unless the name has a NUL in it or is no text |

The lengths are compared before the name is looked at. So a record that is cut short is truncated
even if it is cut in the middle of a character, and of a record with something behind it nothing
is known of its name.
-/

namespace LogCourier.Entry

/-! ### The twelve bytes before the name -/

/-- The entry with that name in the place of its own. -/
def named (e : Entry) (name : String) : Entry :=
  { e with fileName := name }

/-- An error that the bytes before the name are to blame for. -/
def DecodeError.IsOfHeading : DecodeError → Prop
  | unsupportedVersion _ | invalidId .. | invalidFlag _ => True
  | truncated .. | nameLength _ | nameEncoding | nameNul | trailing _ => False

theorem isOfHeading_of_readId {field : Field} {raw : Bytes} {e : DecodeError}
    (h : readId field raw = .error e) : e.IsOfHeading := by
  unfold readId at h
  split at h
  · exact absurd h (by simp)
  · rw [← Except.error.inj h]
    trivial

theorem isOfHeading_of_readFlag {b : UInt8} {e : DecodeError} (h : readFlag b = .error e) :
    e.IsOfHeading := by
  unfold readFlag at h
  split at h
  · exact absurd h (by simp)
  split at h
  · exact absurd h (by simp)
  · rw [← Except.error.inj h]
    trivial

/-- Fewer than twelve bytes are no record, whatever they are. -/
theorem decode_of_short {record : Bytes} (h : record.length < headerLength) :
    decode record = .error (.truncated headerLength record.length) := by
  have hlength : headerLength = 12 := rfl
  unfold decode
  split
  · simp only [List.length_cons] at h
    omega
  · rfl

/-- **The first twelve bytes decide what becomes of the rest**: either they are refused, or what
follows is read as a name of the length that they say. -/
theorem heading_cases {head : Bytes} (h : head.length = headerLength) :
    (∃ e : DecodeError, e.IsOfHeading ∧ ∀ rest, decode (head ++ rest) = .error e) ∨
      ∃ (said : Nat) (unnamed : Entry), ∀ rest,
        decode (head ++ rest) = (readName said rest).map unnamed.named := by
  match head, h with
  | [v, a₀, a₁, a₂, a₃, c₀, c₁, c₂, c₃, flag, hi, lo], _ =>
    simp only [List.cons_append, List.nil_append, decode, bind, Except.bind, pure, Except.pure]
    by_cases hversion : v = version
    · simp only [hversion, ne_eq, not_true_eq_false, if_false]
      rcases happ : readId .appid [a₀, a₁, a₂, a₃] with e | appid
      · exact Or.inl ⟨e, isOfHeading_of_readId happ, fun _ => rfl⟩
      rcases hctx : readId .ctxid [c₀, c₁, c₂, c₃] with e | ctxid
      · exact Or.inl ⟨e, isOfHeading_of_readId hctx, fun _ => rfl⟩
      rcases hflag : readFlag flag with e | deleteFile
      · exact Or.inl ⟨e, isOfHeading_of_readFlag hflag, fun _ => rfl⟩
      refine Or.inr ⟨(Bytes.word16 hi lo).toNat, ⟨appid, ctxid, "", deleteFile⟩, fun rest => ?_⟩
      cases readName (Bytes.word16 hi lo).toNat rest <;> rfl
    · simp only [ne_eq, hversion, not_false_eq_true, if_true]
      exact Or.inl ⟨.unsupportedVersion v, trivial, fun _ => rfl⟩

/-- A record of twelve bytes or more begins with twelve bytes. -/
theorem exists_heading {record : Bytes} (h : headerLength ≤ record.length) :
    ∃ head rest, record = head ++ rest ∧ head.length = headerLength :=
  ⟨record.take headerLength, record.drop headerLength, (List.take_append_drop _ _).symm,
    List.length_take_of_le h⟩

/-! ### The bytes that follow -/

section Name

variable {said : Nat} {rest : Bytes}

theorem readName_of_fewer (hsome : 1 ≤ said) (hfits : said ≤ maxNameLength)
    (h : rest.length < said) : readName said rest =
      .error (.truncated (headerLength + said) (headerLength + rest.length)) := by
  unfold readName
  rw [if_neg (by omega), if_pos h]

theorem readName_of_more (hsome : 1 ≤ said) (hfits : said ≤ maxNameLength)
    (h : said < rest.length) : readName said rest = .error (.trailing (rest.length - said)) := by
  unfold readName
  rw [if_neg (by omega), if_neg (by omega), if_pos h]

/-- As many bytes as there should be are a name, or at fault themselves. -/
theorem readName_of_as_many (hsome : 1 ≤ said) (hfits : said ≤ maxNameLength)
    (h : rest.length = said) :
    (∃ name, readName said rest = .ok name) ∨ readName said rest = .error .nameNul ∨
      readName said rest = .error .nameEncoding := by
  unfold readName
  rw [if_neg (by omega), if_neg (by omega), if_neg (by omega)]
  split
  · exact Or.inr (Or.inl rfl)
  split
  · exact Or.inl ⟨_, rfl⟩
  · exact Or.inr (Or.inr rfl)

/-- **All that can be said of the bytes that follow.** -/
inductive NameVerdict (said : Nat) (rest : Bytes) : Except DecodeError String → Prop
  /-- No name is of that length, however many bytes there are. -/
  | unfit : NameVerdict said rest (.error (.nameLength said))
  /-- Some are missing. -/
  | fewer (h : rest.length < said) :
      NameVerdict said rest (.error (.truncated (headerLength + said) (headerLength + rest.length)))
  /-- Some are left over. -/
  | more (hsome : 1 ≤ said) (hfits : said ≤ maxNameLength) (h : said < rest.length) :
      NameVerdict said rest (.error (.trailing (rest.length - said)))
  /-- There is a NUL among them. -/
  | nul : NameVerdict said rest (.error .nameNul)
  /-- They are no text. -/
  | encoding : NameVerdict said rest (.error .nameEncoding)
  /-- They are a name. -/
  | name (text : String) : NameVerdict said rest (.ok text)

/-- One of these is what the reader says, and the lengths are told for a reason. -/
theorem readName_verdict (said : Nat) (rest : Bytes) :
    NameVerdict said rest (readName said rest) := by
  unfold readName
  split
  · exact .unfit
  rename_i hrange
  split
  · exact .fewer ‹_›
  split
  · exact .more (by omega) (by omega) ‹_›
  split
  · exact .nul
  split
  · exact .name _
  · exact .encoding

/-- **That bytes are missing is said only if they are.** -/
theorem of_readName_truncated {expected got : Nat}
    (h : readName said rest = .error (.truncated expected got)) :
    got = headerLength + rest.length ∧ got < expected := by
  have hverdict := readName_verdict said rest
  rw [h] at hverdict
  cases hverdict with
  | fewer hless => exact ⟨rfl, Nat.add_lt_add_left hless _⟩

/-- **That bytes are left over is said only if they are.** -/
theorem of_readName_trailing {k : Nat} (h : readName said rest = .error (.trailing k)) :
    1 ≤ said ∧ said ≤ maxNameLength ∧ rest.length = said + k ∧ 0 < k := by
  have hverdict := readName_verdict said rest
  rw [h] at hverdict
  cases hverdict with
  | more hsome hfits hmore => exact ⟨hsome, hfits, by omega, by omega⟩

end Name

/-! ### Records -/

/-- **A record that can be read**: twelve bytes that say how long the name is, and the name. -/
theorem exists_heading_of_decode {record : Bytes} {e : Entry} (h : decode record = .ok e) :
    ∃ (head name : Bytes) (unnamed : Entry), record = head ++ name ∧ head.length = headerLength ∧
      name = Bytes.ofText e.fileName ∧ 1 ≤ name.length ∧ name.length ≤ maxNameLength ∧
      ∀ rest, decode (head ++ rest) = (readName name.length rest).map unnamed.named := by
  have hlong : headerLength ≤ record.length := by
    refine Nat.le_of_not_lt fun hshort => ?_
    rw [decode_of_short hshort] at h
    exact absurd h (by simp)
  obtain ⟨head, name, rfl, hhead⟩ := exists_heading hlong
  rcases heading_cases hhead with ⟨fault, -, hfault⟩ | ⟨said, unnamed, hreads⟩
  · rw [hfault] at h
    exact absurd h (by simp)
  · rw [hreads] at h
    rcases hname : readName said name with fault | fileName
    · rw [hname] at h
      exact absurd h (by simp [Except.map])
    · rw [hname] at h
      obtain ⟨htext, rfl, hsome, hfits⟩ := ofText_of_readName hname
      refine ⟨head, name, unnamed, rfl, hhead, ?_, hsome, hfits, hreads⟩
      rw [← Except.ok.inj h]
      exact htext.symm

/-- **A record that is cut short is truncated.** -/
theorem decode_of_cut {record part : Bytes} {e : Entry} (h : decode record = .ok e)
    (hpart : part <+: record) (hproper : part ≠ record) :
    decode part = .error (.truncated
      (if part.length < 12 then 12 else 12 + (Bytes.ofText e.fileName).length) part.length) := by
  have hlength : headerLength = 12 := rfl
  split
  · rename_i hshort
    exact decode_of_short hshort
  · rename_i hlong
    obtain ⟨head, name, unnamed, rfl, hhead, rfl, hsome, hfits, hreads⟩ :=
      exists_heading_of_decode h
    -- the cut is in the name
    obtain ⟨rest, rfl⟩ : head <+: part :=
      List.prefix_of_prefix_length_le (List.prefix_append _ _) hpart (by omega)
    have hrest : rest <+: Bytes.ofText e.fileName := (List.prefix_append_right_inj head).mp hpart
    have hfewer : rest.length < (Bytes.ofText e.fileName).length :=
      Nat.lt_of_le_of_ne hrest.length_le fun hsame => hproper (by rw [hrest.eq_of_length hsame])
    rw [hreads, readName_of_fewer hsome hfits hfewer, List.length_append, hhead]
    rfl

/-- **A record with something behind it has so many bytes left over.** -/
theorem decode_append {record tail : Bytes} {e : Entry} (h : decode record = .ok e)
    (htail : tail ≠ []) : decode (record ++ tail) = .error (.trailing tail.length) := by
  obtain ⟨head, name, unnamed, rfl, -, -, hsome, hfits, hreads⟩ := exists_heading_of_decode h
  have hmore : 0 < tail.length := List.length_pos_iff.mpr htail
  have hlonger : name.length < (name ++ tail).length := by
    rw [List.length_append]
    omega
  rw [List.append_assoc, hreads, readName_of_more hsome hfits hlonger, List.length_append,
    Nat.add_sub_cancel_left]
  rfl

/-- What is said of the length of a record is said of its name, or the record has not even the
twelve bytes before it. -/
theorem length_fault_cases {record : Bytes} {fault : DecodeError}
    (h : decode record = .error fault) (hheading : ¬ fault.IsOfHeading) :
    (record.length < headerLength ∧ fault = .truncated headerLength record.length) ∨
      ∃ (head rest : Bytes) (said : Nat) (unnamed : Entry), record = head ++ rest ∧
        head.length = headerLength ∧ readName said rest = .error fault ∧
        ∀ rest, decode (head ++ rest) = (readName said rest).map unnamed.named := by
  by_cases hshort : record.length < headerLength
  · rw [decode_of_short hshort] at h
    exact Or.inl ⟨hshort, (Except.error.inj h).symm⟩
  obtain ⟨head, rest, rfl, hhead⟩ := exists_heading (Nat.le_of_not_lt hshort)
  rcases heading_cases hhead with ⟨fault', hof, hfault⟩ | ⟨said, unnamed, hreads⟩
  · rw [hfault] at h
    exact absurd (Except.error.inj h ▸ hof) hheading
  · refine Or.inr ⟨head, rest, said, unnamed, rfl, hhead, ?_, hreads⟩
    rw [hreads] at h
    cases hname : readName said rest with
    | error fault' =>
      rw [hname] at h
      rw [Except.error.inj h]
    | ok name =>
      rw [hname] at h
      exact absurd h (by simp [Except.map])

/-- **What is said of a damaged record is what happened to it.**

Let a record be read as an entry. Then it has twelve bytes and those of the name; whatever is left
of it when it is cut short is refused as truncated, with the twelve bytes or the whole length for
what was expected and its own length for what was got; and with anything behind it, it is refused
for as many bytes as that has. So of two records that can be read neither is the beginning of the
other.

Conversely, and for any bytes: if they are refused as truncated, they are as many as is said, and
fewer than expected; and if they are refused for some bytes left over, then without these they can
be read, or it is only their name that is wrong. -/
theorem damage_exact :
    (∀ (record : Bytes) (e : Entry), decode record = .ok e →
      record.length = 12 + (Bytes.ofText e.fileName).length ∧
      (∀ part, part <+: record → part ≠ record → decode part = .error (.truncated
        (if part.length < 12 then 12 else 12 + (Bytes.ofText e.fileName).length) part.length)) ∧
      ∀ tail, tail ≠ [] → decode (record ++ tail) = .error (.trailing tail.length)) ∧
    (∀ (record record' : Bytes) (e e' : Entry), decode record = .ok e → decode record' = .ok e' →
      record <+: record' → record = record') ∧
    (∀ (record : Bytes) (expected got : Nat), decode record = .error (.truncated expected got) →
      got = record.length ∧ got < expected) ∧
    ∀ (record : Bytes) (k : Nat), decode record = .error (.trailing k) →
      0 < k ∧ k ≤ record.length ∧
      let cut := record.take (record.length - k)
      (∃ e, decode cut = .ok e) ∨ decode cut = .error .nameNul ∨
        decode cut = .error .nameEncoding := by
  refine ⟨fun record e h => ⟨?_, fun part => decode_of_cut h, fun tail => decode_append h⟩,
    ?_, ?_, ?_⟩
  · obtain ⟨head, name, unnamed, rfl, hhead, rfl, -⟩ := exists_heading_of_decode h
    rw [List.length_append, hhead]
    rfl
  · intro record record' e e' h h' hbegins
    refine Decidable.byContradiction fun hproper => ?_
    rw [decode_of_cut h' hbegins hproper] at h
    exact absurd h (by simp)
  · intro record expected got h
    rcases length_fault_cases h not_false with ⟨hshort, hfault⟩ |
      ⟨head, rest, said, unnamed, rfl, hhead, hname, -⟩
    · obtain ⟨rfl, rfl⟩ := DecodeError.truncated.inj hfault
      exact ⟨rfl, hshort⟩
    · obtain ⟨hgot, hless⟩ := of_readName_truncated hname
      rw [List.length_append, hhead]
      exact ⟨hgot, hless⟩
  · intro record k h
    rcases length_fault_cases h not_false with ⟨-, hfault⟩ |
      ⟨head, rest, said, unnamed, rfl, hhead, hname, hreads⟩
    · exact absurd hfault (by simp)
    · obtain ⟨hsome, hfits, hlength, hmore⟩ := of_readName_trailing hname
      have hcut : (head ++ rest).take ((head ++ rest).length - k) = head ++ rest.take said := by
        rw [List.length_append, hlength, ← Nat.add_assoc, Nat.add_sub_cancel, List.take_append,
          Nat.add_sub_cancel_left, List.take_of_length_le (Nat.le_add_right _ _)]
      refine ⟨hmore, by rw [List.length_append]; omega, ?_⟩
      simp only [hcut, hreads]
      have hexact : (rest.take said).length = said := List.length_take_of_le (by omega)
      rcases readName_of_as_many hsome hfits hexact with ⟨name, hok⟩ | hnul | hencoding
      · exact Or.inl ⟨_, by rw [hok]; rfl⟩
      · exact Or.inr (Or.inl (by rw [hnul]; rfl))
      · exact Or.inr (Or.inr (by rw [hencoding]; rfl))

/-- A record of fourteen bytes, cut in its heading, cut in its name, and with two bytes behind it.
With a NUL in its name and a byte behind it, it is told of the byte first. -/
theorem damage_exact_fourteen :
    let heading : Bytes := [0x01, 0x45, 0x43, 0x55, 0x31, 0x46, 0x54, 0x00, 0x00, 0x01, 0x00, 0x02]
    let record := heading ++ [0x2F, 0x66]
    let stray := heading ++ [0x2F, 0x00, 0x66]
    decode record = .ok ⟨Id.ecu1, Id.ft, "/f", true⟩ ∧
      decode (record.take 5) = .error (.truncated 12 5) ∧
      decode (record.take 13) = .error (.truncated 14 13) ∧
      decode (record ++ [0x00, 0x01]) = .error (.trailing 2) ∧
      decode stray = .error (.trailing 1) ∧
      ((∃ e, decode (stray.take 14) = .ok e) ∨ decode (stray.take 14) = .error .nameNul ∨
        decode (stray.take 14) = .error .nameEncoding) := by
  intro heading record stray
  obtain ⟨hread, -, -, htrailing⟩ := damage_exact
  have hrecord : decode record = .ok ⟨Id.ecu1, Id.ft, "/f", true⟩ := rfl
  obtain ⟨-, hpart, htail⟩ := hread record _ hrecord
  have hname : (Bytes.ofText "/f").length = 2 := by decide
  have hstray : decode stray = .error (.trailing 1) := rfl
  refine ⟨hrecord, hpart _ (List.take_prefix _ _) (by decide), ?_, htail _ (by decide), hstray,
    (htrailing stray 1 hstray).2.2⟩
  have hcut := hpart _ (List.take_prefix 13 record) (by decide)
  rw [hname] at hcut
  exact hcut

end LogCourier.Entry

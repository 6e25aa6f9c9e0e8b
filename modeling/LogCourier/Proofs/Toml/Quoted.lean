import LogCourier.Proofs.Numeral
import LogCourier.Toml.Printer
import LogCourier.Toml.Quoted

/-!
# Quoted text that is written and read

Whatever is in a text, **it is read again from between its quotes**
(`LogCourier.Toml.readQuoted?_quoted`), in each of the four kinds of quotes that it may have been
written in.

What could go wrong lies at the ends of a text. In the kinds with three quotes the text may have
quotes of its own, right before those that close it, and the reader has to tell them apart by their
number. It does, because there are never three of them in a row: in `'''` the text was looked
through for that before this kind was taken, and in `"""` every third one is escaped
(`LogCourier.Toml.quotesAt_escaped`). And a line end right behind the opening quotes does not count,
so one is put there whenever the text has a line end at all.
-/

namespace LogCourier.Toml

/-! ### Characters -/

/-- What needs no escape may stand in a text, but for the line end. -/
theorem isPlain_of_needsEscape {c : Char} (h : needsEscape c = false) (hline : c ≠ '\n') :
    isPlain c = true := by
  by_cases htab : c = '\t'
  · rw [htab]
    decide
  simp only [needsEscape, Bool.or_eq_false_iff, Bool.and_eq_false_iff, decide_eq_false_iff_not,
    bne_eq_false_iff_eq, beq_eq_false_iff_ne, htab, hline, or_false] at h
  simp only [isPlain, Bool.or_eq_true, Bool.and_eq_true, decide_eq_true_eq, beq_iff_eq]
  omega

theorem ne_of_isPlain {c : Char} (h : isPlain c = true) : c ≠ '\n' ∧ c ≠ '\r' :=
  ⟨ne_of_test h (by decide), ne_of_test h (by decide)⟩

/-- A text that begins with something plain does not begin with a line end. -/
theorem skipNewline?_of_ne {c : Char} (hline : c ≠ '\n') (hreturn : c ≠ '\r') (rest : List Char) :
    skipNewline? (c :: rest) = none := by
  unfold skipNewline?
  split
  · rename_i heq
    exact absurd (List.cons.inj heq).1 hline
  · rename_i heq
    exact absurd (List.cons.inj heq).1 hreturn
  · rfl

/-! ### Escapes -/

/-- The number of a character is that of the character. -/
theorem scalar?_toNat (c : Char) : scalar? c.toNat = some c := by
  have hvalid : c.toNat.isValidChar := c.valid
  rw [scalar?, dif_pos hvalid]
  rfl

theorem digit?_toUpper_ofNat : ∀ n < 128,
    Numeral.digit? (Char.ofNat n).toUpper = Numeral.digit? (Char.ofNat n) := by
  decide

/-- Upper-case digits in base sixteen stand for what the lower-case ones do. -/
theorem digit?_toUpper {c : Char} (h : Numeral.isDigit 16 c = true) :
    Numeral.digit? c.toUpper = Numeral.digit? c := by
  have hlt : c.toNat < 128 := by
    by_contra hge
    have hnone : Numeral.digit? c = none := by
      simp only [Numeral.digit?]
      rw [if_neg (by omega), if_neg (by omega), if_neg (by omega)]
    rw [Numeral.isDigit, hnone] at h
    exact absurd h (by simp)
  have hchar := digit?_toUpper_ofNat c.toNat hlt
  rwa [Char.ofNat_toNat] at hchar

theorem value_map_toUpper {digits : List Char} (h : ∀ c ∈ digits, Numeral.isDigit 16 c = true) :
    Numeral.value 16 (digits.map Char.toUpper) = Numeral.value 16 digits := by
  rw [Numeral.value, Numeral.value, List.foldl_map]
  exact List.foldl_ext _ _ _ fun n c hc => by rw [digit?_toUpper (h c hc)]

theorem value_replicate_zero (k : Nat) (digits : List Char) :
    Numeral.value 16 (List.replicate k '0' ++ digits) = Numeral.value 16 digits := by
  induction k with
  | zero => rfl
  | succ k ih => rw [List.replicate_succ, List.cons_append, Numeral.value_zero_cons, ih]

/-- Four digits in base sixteen are read as the character that they are of. -/
theorem readScalar?_fourDigits {c : Char} (h : c.toNat < 65536) (rest : List Char) :
    readScalar? 4 (fourDigits c.toNat ++ rest) = some (c, rest) := by
  have hdigits (d : Char) (hd : d ∈ Nat.toDigits 16 c.toNat) : Numeral.isDigit 16 d = true :=
    Numeral.isDigit_of_mem_toDigits (by decide) (by decide) _ hd
  have hlength : (fourDigits c.toNat).length = 4 := by
    have hle : (Nat.toDigits 16 c.toNat).length ≤ 4 := by
      rw [Nat.length_toDigits_le_iff (by decide) (by decide)]
      exact h
    rw [fourDigits, List.length_append, List.length_replicate, List.length_map]
    omega
  have hall : (fourDigits c.toNat).all (Numeral.isDigit 16) = true := by
    rw [List.all_eq_true]
    intro d hd
    rcases List.mem_append.mp hd with hzero | hd
    · rw [(List.mem_replicate.mp hzero).2]
      decide
    · obtain ⟨digit, hdigit, rfl⟩ := List.mem_map.mp hd
      rw [Numeral.isDigit, digit?_toUpper (hdigits digit hdigit)]
      exact hdigits digit hdigit
  have hvalue : Numeral.value 16 (fourDigits c.toNat) = c.toNat := by
    rw [fourDigits, value_replicate_zero, value_map_toUpper hdigits,
      Numeral.value_toDigits (by decide) (by decide)]
  have htake : (fourDigits c.toNat ++ rest).take 4 = fourDigits c.toNat :=
    List.take_left' hlength
  have hdrop : (fourDigits c.toNat ++ rest).drop 4 = rest := List.drop_left' hlength
  simp only [readScalar?, htake, hdrop]
  rw [if_pos ⟨hlength, hall⟩, hvalue, scalar?_toNat]
  rfl

/-- A letter behind a backslash is not the end of a line. -/
theorem skipEscapedNewline?_cons {c : Char} (hspace : isSpace c = false) (hline : c ≠ '\n')
    (hreturn : c ≠ '\r') (rest : List Char) : skipEscapedNewline? (c :: rest) = none := by
  rw [skipEscapedNewline?, skipSpaces, List.dropWhile_cons_of_neg (by simp [hspace]),
    skipNewline?_of_ne hline hreturn]
  rfl

/-- **An escape is read as the character that it was written for**, and does not look like one of a
line end. -/
theorem readEscape?_of_escape? {lines : Bool} {c : Char} {e : List Char}
    (h : escape? lines c = some e) : ∃ body, e = '\\' :: body ∧ ∀ rest,
      readEscape? (body ++ rest) = some (c, rest) ∧ skipEscapedNewline? (body ++ rest) = none := by
  -- most escapes are a letter
  have letter (d : Char) (he : e = ['\\', d]) (hletter : escapeLetter? d = some c)
      (hd : d ≠ 'u' ∧ d ≠ 'U' ∧ isSpace d = false ∧ d ≠ '\n' ∧ d ≠ '\r') :
      ∃ body, e = '\\' :: body ∧ ∀ rest, readEscape? (body ++ rest) = some (c, rest) ∧
        skipEscapedNewline? (body ++ rest) = none := by
    refine ⟨[d], he, fun rest => ⟨?_, skipEscapedNewline?_cons hd.2.2.1 hd.2.2.2.1 hd.2.2.2.2 rest⟩⟩
    simp only [List.cons_append, List.nil_append, readEscape?]
    rw [if_neg hd.1, if_neg hd.2.1, hletter]
    rfl
  unfold escape? at h
  split at h
  · rename_i hc
    exact letter 'b' (Option.some.inj h).symm (hc ▸ rfl) (by decide)
  split at h
  · rename_i hc
    exact letter 't' (Option.some.inj h).symm (hc ▸ rfl) (by decide)
  split at h
  · rename_i hc
    cases lines with
    | true => exact absurd h (by simp)
    | false => exact letter 'n' (Option.some.inj h).symm (hc ▸ rfl) (by decide)
  split at h
  · rename_i hc
    exact letter 'f' (Option.some.inj h).symm (hc ▸ rfl) (by decide)
  split at h
  · rename_i hc
    exact letter 'r' (Option.some.inj h).symm (hc ▸ rfl) (by decide)
  split at h
  · rename_i hc
    exact letter '\\' (Option.some.inj h).symm (by rw [hc]; rfl) (by decide)
  split at h
  · rename_i hneeds
    have hlt : c.toNat < 65536 := by
      simp only [needsEscape, Bool.or_eq_true, Bool.and_eq_true, decide_eq_true_eq,
        beq_iff_eq] at hneeds
      omega
    refine ⟨'u' :: fourDigits c.toNat, (Option.some.inj h).symm, fun rest =>
      ⟨?_, skipEscapedNewline?_cons (by decide) (by decide) (by decide) _⟩⟩
    simp only [List.cons_append, readEscape?, if_true]
    exact readScalar?_fourDigits hlt rest
  · exact absurd h (by simp)

/-- What is not escaped may stand for itself. -/
theorem plain_of_escape? {lines : Bool} {c : Char} (h : escape? lines c = none) :
    c ≠ '\\' ∧ (isPlain c = true ∨ (lines = true ∧ c = '\n')) := by
  unfold escape? at h
  split at h
  · exact absurd h (by simp)
  split at h
  · exact absurd h (by simp)
  split at h
  · rename_i hline
    cases lines with
    | true => exact ⟨by rw [hline]; decide, .inr ⟨rfl, hline⟩⟩
    | false => exact absurd h (by simp)
  split at h
  · exact absurd h (by simp)
  split at h
  · exact absurd h (by simp)
  split at h
  · exact absurd h (by simp)
  split at h
  · exact absurd h (by simp)
  · rename_i hline _ _ hbackslash hneeds
    exact ⟨hbackslash, .inl (isPlain_of_needsEscape (Bool.eq_false_iff.mpr hneeds) hline)⟩

/-! ### One line -/

section OneLine

variable {c : Char} {rest : List Char}

theorem readBasic?_quote (rest : List Char) : readBasic? ('"' :: rest) = some ([], rest) := by
  rw [readBasic?]
  simp

theorem readBasic?_escape {e : Char} {rest' : List Char} (h : readEscape? rest = some (e, rest')) :
    readBasic? ('\\' :: rest) = (readBasic? rest').map fun (s, r) => (e :: s, r) := by
  rw [readBasic?]
  simp only [Char.reduceEq, if_false, if_true]
  split
  · rename_i e' rest'' heq
    obtain ⟨rfl, rfl⟩ := Prod.mk.inj (Option.some.inj (h.symm.trans heq))
    rfl
  · rename_i heq
    exact absurd (h.symm.trans heq) (by simp)

theorem readBasic?_plain (hquote : c ≠ '"') (hbackslash : c ≠ '\\') (hplain : isPlain c = true) :
    readBasic? (c :: rest) = (readBasic? rest).map fun (s, r) => (c :: s, r) := by
  rw [readBasic?]
  simp only [hquote, hbackslash, hplain, if_false, if_true]

/-- **What is written in `"` is read again.** -/
theorem readBasic?_escaped (cs rest : List Char) (row : Nat) :
    readBasic? (escaped false row cs ++ '"' :: rest) = some (cs, rest) := by
  induction cs generalizing row with
  | nil => exact readBasic?_quote rest
  | cons c cs ih =>
    rw [escaped]
    by_cases hquote : c = '"'
    · subst hquote
      simp only [if_true, Bool.false_and, Bool.false_eq_true, if_false, List.cons_append]
      rw [readBasic?_escape (e := '"') rfl, ih]
      rfl
    · simp only [hquote, if_false]
      cases hescape : escape? false c with
      | some e =>
        obtain ⟨body, rfl, hbody⟩ := readEscape?_of_escape? hescape
        simp only [List.append_assoc, List.cons_append]
        rw [readBasic?_escape (hbody _).1, ih]
        rfl
      | none =>
        obtain ⟨hbackslash, hplain | ⟨hlines, -⟩⟩ := plain_of_escape? hescape
        · simp only [List.cons_append]
          rw [readBasic?_plain hquote hbackslash hplain, ih]
          rfl
        · exact absurd hlines (by simp)

/-- **What is written in `'` is read again.** -/
theorem readLiteral?_append {cs : List Char} (h : ∀ c ∈ cs, isPlain c = true ∧ c ≠ '\'')
    (rest : List Char) : readLiteral? (cs ++ '\'' :: rest) = some (cs, rest) := by
  induction cs with
  | nil => simp [readLiteral?]
  | cons c cs ih =>
    obtain ⟨hplain, hquote⟩ := h c List.mem_cons_self
    rw [List.cons_append, readLiteral?, if_neg hquote, if_pos hplain,
      ih fun d hd => h d (List.mem_cons_of_mem _ hd)]
    rfl

end OneLine

/-! ### Rows of quotes -/

section Rows

variable {quote : Char} {rest : List Char}

theorem quotesAt_cons (quote : Char) (rest : List Char) :
    quotesAt quote (quote :: rest) = quotesAt quote rest + 1 := by
  rw [quotesAt, List.takeWhile_cons_of_pos (by simp), List.length_cons]
  rfl

theorem quotesAt_of_ne {c : Char} (h : c ≠ quote) (rest : List Char) :
    quotesAt quote (c :: rest) = 0 := by
  rw [quotesAt, List.takeWhile_cons_of_neg (by simp [h])]
  rfl

/-- All the quotes of a row are counted. -/
theorem quotesAt_replicate (quote : Char) (k : Nat) (h : ∀ c ∈ rest.head?, c ≠ quote) :
    quotesAt quote (List.replicate k quote ++ rest) = k := by
  induction k with
  | zero =>
    cases rest with
    | nil => rfl
    | cons c rest => exact quotesAt_of_ne (h c rfl) rest
  | succ k ih => rw [List.replicate_succ, List.cons_append, quotesAt_cons, ih]

/-- Up to two quotes before the closing three belong to the text. -/
theorem closing?_add_three {k : Nat} (h : k ≤ 2) : closing? (k + 3) = some (k, k + 3) := by
  rw [closing?, if_neg (by omega)]
  congr 2 <;> omega

theorem closing?_of_lt {k : Nat} (h : k < 3) : closing? k = none :=
  if_pos h

/-- **In a text with escapes there are never more than two quotes in a row**, those just before
included: either they end it, or something else comes behind them. -/
theorem quotesAt_escaped (cs tail : List Char) {row : Nat} (h : row ≤ 2) :
    (∃ k, row + k ≤ 2 ∧ cs = List.replicate k '"' ∧
      escaped true row cs = List.replicate k '"') ∨
    row + quotesAt '"' (escaped true row cs ++ tail) ≤ 2 := by
  induction cs generalizing row with
  | nil => exact .inl ⟨0, h, rfl, rfl⟩
  | cons c cs ih =>
    rw [escaped]
    by_cases hquote : c = '"'
    · subst hquote
      by_cases hrow : row < 2
      · simp only [hrow, decide_true, Bool.and_self, if_true, List.cons_append]
        have hrow' : row + 1 ≤ 2 := by omega
        rcases ih hrow' with ⟨k, hk, rfl, heq⟩ | hle
        · exact .inl ⟨k + 1, by omega, rfl, by rw [heq]; rfl⟩
        · rw [quotesAt_cons]
          exact .inr (by omega)
      · simp only [hrow, decide_false, Bool.and_false, Bool.false_eq_true, if_true, if_false,
          List.cons_append]
        rw [quotesAt_of_ne (by decide)]
        exact .inr h
    · right
      simp only [hquote, if_false]
      cases hescape : escape? true c with
      | some e =>
        obtain ⟨body, rfl, -⟩ := readEscape?_of_escape? hescape
        simp only [List.cons_append]
        rw [quotesAt_of_ne (by decide)]
        exact h
      | none =>
        simp only [List.cons_append]
        rw [quotesAt_of_ne hquote]
        exact h

/-- Three quotes in a row are found further on, too. -/
theorem hasTriple_of_cons {c : Char} {cs : List Char} (h : hasTriple quote (c :: cs) = false) :
    hasTriple quote cs = false := by
  match cs with
  | [] | [_] => rfl
  | a :: b :: cs =>
    rw [hasTriple, Bool.or_eq_false_iff] at h
    exact h.2

/-- **In a text without three quotes in a row** they end it, or something else comes behind them. -/
theorem quotesAt_of_hasTriple (cs tail : List Char) (h : hasTriple quote cs = false) :
    (∃ k ≤ 2, cs = List.replicate k quote) ∨ quotesAt quote (cs ++ tail) ≤ 2 := by
  match cs with
  | [] => exact .inl ⟨0, by omega, rfl⟩
  | [a] =>
    by_cases ha : a = quote
    · exact .inl ⟨1, by omega, by rw [ha]; rfl⟩
    · exact .inr (by rw [List.cons_append, quotesAt_of_ne ha]; omega)
  | [a, b] =>
    by_cases ha : a = quote
    · by_cases hb : b = quote
      · exact .inl ⟨2, by omega, by rw [ha, hb]; rfl⟩
      · refine .inr ?_
        rw [ha, List.cons_append, quotesAt_cons, List.cons_append, quotesAt_of_ne hb]
        omega
    · exact .inr (by rw [List.cons_append, quotesAt_of_ne ha]; omega)
  | a :: b :: c :: cs =>
    refine .inr ?_
    simp only [List.cons_append]
    by_cases ha : a = quote
    · by_cases hb : b = quote
      · have hc : c ≠ quote := by
          rintro rfl
          subst ha hb
          rw [hasTriple] at h
          exact absurd h (by simp)
        exact Nat.le_of_eq (by rw [ha, hb, quotesAt_cons, quotesAt_cons, quotesAt_of_ne hc])
      · rw [ha, quotesAt_cons, quotesAt_of_ne hb]
        omega
    · rw [quotesAt_of_ne ha]
      omega

end Rows

/-! ### Several lines -/

section Lines

variable {c : Char} {rest : List Char}

/-- A row of quotes with three more behind it ends the text. -/
theorem readBasicLines?_close {k : Nat} (hk : k ≤ 2) (h : ∀ c ∈ rest.head?, c ≠ '"') :
    readBasicLines? (List.replicate k '"' ++ (List.replicate 3 '"' ++ rest)) =
      some (List.replicate k '"', rest) := by
  rw [← List.append_assoc, List.replicate_append_replicate]
  have hrow := quotesAt_replicate '"' (k + 3) h
  have hdrop : (List.replicate (k + 3) '"' ++ rest).drop (k + 3) = rest :=
    List.drop_left' List.length_replicate
  rw [List.replicate_succ, List.cons_append] at hrow hdrop ⊢
  rw [readBasicLines?]
  simp only [if_true, hrow, closing?_add_three hk, hdrop]

/-- A row of fewer than three quotes is text. -/
theorem readBasicLines?_quote (h : quotesAt '"' ('"' :: rest) < 3) :
    readBasicLines? ('"' :: rest) = (readBasicLines? rest).map fun (s, r) => ('"' :: s, r) := by
  rw [readBasicLines?]
  simp only [if_true, closing?_of_lt h]

theorem readBasicLines?_escape {e : Char} {rest' : List Char}
    (hline : skipEscapedNewline? rest = none) (h : readEscape? rest = some (e, rest')) :
    readBasicLines? ('\\' :: rest) = (readBasicLines? rest').map fun (s, r) => (e :: s, r) := by
  rw [readBasicLines?]
  simp only [Char.reduceEq, if_false, if_true]
  split
  · rename_i heq
    exact absurd (hline.symm.trans heq) (by simp)
  split
  · rename_i e' rest'' heq
    obtain ⟨rfl, rfl⟩ := Prod.mk.inj (Option.some.inj (h.symm.trans heq))
    rfl
  · rename_i heq
    exact absurd (h.symm.trans heq) (by simp)

theorem readBasicLines?_newline (rest : List Char) :
    readBasicLines? ('\n' :: rest) = (readBasicLines? rest).map fun (s, r) => ('\n' :: s, r) := by
  rw [readBasicLines?]
  simp only [Char.reduceEq, if_false]
  split
  · rename_i rest' heq
    obtain rfl := Option.some.inj heq
    rfl
  · rename_i heq
    exact absurd heq (by simp [skipNewline?])

theorem readBasicLines?_plain (hquote : c ≠ '"') (hbackslash : c ≠ '\\')
    (hplain : isPlain c = true) :
    readBasicLines? (c :: rest) = (readBasicLines? rest).map fun (s, r) => (c :: s, r) := by
  obtain ⟨hline, hreturn⟩ := ne_of_isPlain hplain
  rw [readBasicLines?]
  simp only [hquote, hbackslash, if_false]
  split
  · rename_i heq
    rw [skipNewline?_of_ne hline hreturn] at heq
    exact absurd heq (by simp)
  · rw [if_pos hplain]

/-- **What is written in `"""` is read again.** -/
theorem readBasicLines?_escaped (cs : List Char) {row : Nat} (hrow : row ≤ 2)
    (h : ∀ c ∈ rest.head?, c ≠ '"') :
    readBasicLines? (escaped true row cs ++ (List.replicate 3 '"' ++ rest)) = some (cs, rest) := by
  induction cs generalizing row with
  | nil => exact readBasicLines?_close (k := 0) (by omega) h
  | cons c cs ih =>
    by_cases hquote : c = '"'
    · subst hquote
      rcases quotesAt_escaped ('"' :: cs) (List.replicate 3 '"' ++ rest) hrow with
        ⟨k, hk, heq, hescaped⟩ | hle
      -- from here on there are only quotes
      · rw [hescaped, heq]
        exact readBasicLines?_close (by omega) h
      · rw [escaped] at hle ⊢
        by_cases hfew : row < 2
        · simp only [hfew, decide_true, Bool.and_self, if_true, List.cons_append] at hle ⊢
          rw [readBasicLines?_quote (by omega), ih (by omega)]
          rfl
        · simp only [hfew, decide_false, Bool.and_false, Bool.false_eq_true, if_true, if_false,
            List.cons_append]
          rw [readBasicLines?_escape (e := '"')
            (skipEscapedNewline?_cons (by decide) (by decide) (by decide) _) rfl, ih (by omega)]
          rfl
    · rw [escaped]
      simp only [hquote, if_false]
      cases hescape : escape? true c with
      | some e =>
        obtain ⟨body, rfl, hbody⟩ := readEscape?_of_escape? hescape
        simp only [List.append_assoc, List.cons_append]
        rw [readBasicLines?_escape (hbody _).2 (hbody _).1, ih (by omega)]
        rfl
      | none =>
        simp only [List.cons_append]
        obtain ⟨hbackslash, hplain | ⟨-, rfl⟩⟩ := plain_of_escape? hescape
        · rw [readBasicLines?_plain hquote hbackslash hplain, ih (by omega)]
          rfl
        · rw [readBasicLines?_newline, ih (by omega)]
          rfl

/-- A row of quotes with three more behind it ends the text. -/
theorem readLiteralLines?_close {k : Nat} (hk : k ≤ 2) (h : ∀ c ∈ rest.head?, c ≠ '\'') :
    readLiteralLines? (List.replicate k '\'' ++ (List.replicate 3 '\'' ++ rest)) =
      some (List.replicate k '\'', rest) := by
  rw [← List.append_assoc, List.replicate_append_replicate]
  have hrow := quotesAt_replicate '\'' (k + 3) h
  have hdrop : (List.replicate (k + 3) '\'' ++ rest).drop (k + 3) = rest :=
    List.drop_left' List.length_replicate
  rw [List.replicate_succ, List.cons_append] at hrow hdrop ⊢
  rw [readLiteralLines?]
  simp only [if_true, hrow, closing?_add_three hk, hdrop]

/-- **What is written in `'''` is read again.** -/
theorem readLiteralLines?_append {cs : List Char} (hplain : ∀ c ∈ cs, isPlain c = true ∨ c = '\n')
    (htriple : hasTriple '\'' cs = false) (h : ∀ c ∈ rest.head?, c ≠ '\'') :
    readLiteralLines? (cs ++ (List.replicate 3 '\'' ++ rest)) = some (cs, rest) := by
  induction cs with
  | nil => exact readLiteralLines?_close (k := 0) (by omega) h
  | cons c cs ih =>
    have hrest := ih (fun d hd => hplain d (List.mem_cons_of_mem _ hd)) (hasTriple_of_cons htriple)
    by_cases hquote : c = '\''
    · subst hquote
      rcases quotesAt_of_hasTriple ('\'' :: cs) (List.replicate 3 '\'' ++ rest) htriple with
        ⟨k, hk, heq⟩ | hle
      · rw [heq]
        exact readLiteralLines?_close hk h
      · rw [List.cons_append] at hle ⊢
        rw [readLiteralLines?]
        simp only [if_true, closing?_of_lt (Nat.lt_succ_of_le hle), hrest]
        rfl
    · rw [List.cons_append, readLiteralLines?]
      simp only [hquote, if_false]
      rcases hplain c List.mem_cons_self with hc | rfl
      · obtain ⟨hline, hreturn⟩ := ne_of_isPlain hc
        split
        · rename_i heq
          rw [skipNewline?_of_ne hline hreturn] at heq
          exact absurd heq (by simp)
        · rw [if_pos hc, hrest]
          rfl
      · split
        · rename_i rest' heq
          obtain rfl := Option.some.inj heq
          rw [hrest]
          rfl
        · rename_i heq
          exact absurd heq (by simp [skipNewline?])

end Lines

/-! ### All four -/

/-- A line end that was put before a text is skipped, and nothing else. -/
theorem skipFirstNewline_firstNewline {cs body : List Char}
    (h : '\n' ∉ cs → skipNewline? body = none) :
    skipFirstNewline (firstNewline cs ++ body) = body := by
  by_cases hline : '\n' ∈ cs
  · rw [firstNewline, if_pos (by simpa using hline)]
    rfl
  · rw [firstNewline, if_neg (by simpa using hline), List.nil_append, skipFirstNewline, h hline]
    rfl

/-- What holds of a text that is written on one line without escapes. -/
theorem plain_of_literal {cs : List Char} (h : quotesFor cs = .literal) :
    ∀ c ∈ cs, isPlain c = true ∧ c ≠ '\'' := by
  simp only [quotesFor] at h
  split at h
  · exact absurd h (by simp)
  split at h
  · rename_i hfit
    simp only [Bool.and_eq_true, Bool.not_eq_true', List.any_eq_false, List.elem_eq_mem,
      decide_eq_false_iff_not] at hfit
    obtain ⟨⟨hplain, hline⟩, hquote⟩ := hfit
    exact fun c hc => ⟨isPlain_of_needsEscape (Bool.eq_false_iff.mpr (hplain c hc))
      fun heq => hline (heq ▸ hc), fun heq => hquote (heq ▸ hc)⟩
  split at h
  · exact absurd h (by simp)
  split at h
  · exact absurd h (by simp)
  split at h <;> exact absurd h (by simp)

/-- What holds of a text that is written on several lines without escapes. -/
theorem plain_of_literalLines {cs : List Char} (h : quotesFor cs = .literalLines) :
    (∀ c ∈ cs, isPlain c = true ∨ c = '\n') ∧ hasTriple '\'' cs = false := by
  simp only [quotesFor] at h
  split at h
  · exact absurd h (by simp)
  split at h
  · exact absurd h (by simp)
  split at h
  · exact absurd h (by simp)
  split at h
  · rename_i hfit
    simp only [Bool.and_eq_true, Bool.not_eq_true', List.any_eq_false] at hfit
    refine ⟨fun c hc => ?_, hfit.2⟩
    by_cases hline : c = '\n'
    · exact .inr hline
    · exact .inl (isPlain_of_needsEscape (Bool.eq_false_iff.mpr (hfit.1 c hc)) hline)
  split at h <;> exact absurd h (by simp)

/-- Between three quotes a text without line ends does not begin with one. -/
theorem skipNewline?_escaped {cs : List Char} (h : '\n' ∉ cs) (tail : List Char) :
    skipNewline? (escaped true 0 cs ++ '"' :: tail) = none := by
  cases cs with
  | nil => exact skipNewline?_of_ne (by decide) (by decide) tail
  | cons c cs =>
    rw [escaped]
    by_cases hquote : c = '"'
    · subst hquote
      exact skipNewline?_of_ne (by decide) (by decide) _
    · simp only [hquote, if_false]
      cases hescape : escape? true c with
      | some e =>
        obtain ⟨body, rfl, -⟩ := readEscape?_of_escape? hescape
        exact skipNewline?_of_ne (by decide) (by decide) _
      | none =>
        obtain ⟨-, hplain | ⟨-, rfl⟩⟩ := plain_of_escape? hescape
        · exact skipNewline?_of_ne (ne_of_isPlain hplain).1 (ne_of_isPlain hplain).2 _
        · exact absurd List.mem_cons_self h

/-- Behind `"` there is no other one, but where the text is empty. -/
theorem escaped_ne_quote {cs tail : List Char} (h : ∀ c ∈ tail.head?, c ≠ '"')
    (tail' : List Char) : escaped false 0 cs ++ '"' :: tail ≠ '"' :: '"' :: tail' := by
  intro heq
  cases cs with
  | nil => exact h '"' (by rw [(List.cons.inj heq).2]; rfl) rfl
  | cons c cs =>
    rw [escaped] at heq
    by_cases hquote : c = '"'
    · subst hquote
      exact absurd (List.cons.inj heq).1 (by decide)
    · simp only [hquote, if_false] at heq
      cases hescape : escape? false c with
      | some e =>
        obtain ⟨body, rfl, -⟩ := readEscape?_of_escape? hescape
        rw [hescape] at heq
        exact absurd (List.cons.inj heq).1 (by decide)
      | none =>
        rw [hescape] at heq
        exact hquote (List.cons.inj heq).1

/-- One quote that is not the first of three opens a text on one line. -/
theorem readQuoted?_basic {body : List Char} (h : ∀ tail, body ≠ '"' :: '"' :: tail) :
    readQuoted? ('"' :: body) = readBasic? body := by
  rw [readQuoted?]
  exact h

theorem readQuoted?_literal {body : List Char} (h : ∀ tail, body ≠ '\'' :: '\'' :: tail) :
    readQuoted? ('\'' :: body) = readLiteral? body := by
  rw [readQuoted?]
  exact h

/-- **Quoted text is read again**, if no quote stands behind it. -/
theorem readQuoted?_quoted (cs : List Char) {rest : List Char}
    (h : ∀ c ∈ rest.head?, c ≠ '"' ∧ c ≠ '\'') :
    readQuoted? (quoted cs ++ rest) = some (cs, rest) := by
  have hdouble : ∀ c ∈ rest.head?, c ≠ '"' := fun c hc => (h c hc).1
  have hsingle : ∀ c ∈ rest.head?, c ≠ '\'' := fun c hc => (h c hc).2
  unfold quoted
  split
  · simp only [List.append_assoc, List.cons_append, List.nil_append]
    rw [readQuoted?_basic (escaped_ne_quote hdouble), readBasic?_escaped]
  · rename_i hkind
    have hplain := plain_of_literal hkind
    simp only [List.append_assoc, List.cons_append, List.nil_append]
    rw [readQuoted?_literal, readLiteral?_append hplain]
    intro tail heq
    cases cs with
    | nil => exact hsingle '\'' (by rw [(List.cons.inj heq).2]; rfl) rfl
    | cons c cs => exact (hplain c List.mem_cons_self).2 (List.cons.inj heq).1
  · simp only [List.append_assoc]
    change readBasicLines? (skipFirstNewline (firstNewline cs ++
      (escaped true 0 cs ++ (List.replicate 3 '"' ++ rest)))) = _
    rw [skipFirstNewline_firstNewline, readBasicLines?_escaped cs (by omega) hdouble]
    exact fun hline => skipNewline?_escaped hline ('"' :: '"' :: rest)
  · rename_i hkind
    obtain ⟨hplain, htriple⟩ := plain_of_literalLines hkind
    simp only [List.append_assoc]
    change readLiteralLines? (skipFirstNewline (firstNewline cs ++
      (cs ++ (List.replicate 3 '\'' ++ rest)))) = _
    rw [skipFirstNewline_firstNewline, readLiteralLines?_append hplain htriple hsingle]
    intro hline
    cases cs with
    | nil => exact skipNewline?_of_ne (by decide) (by decide) _
    | cons c cs =>
      rcases hplain c List.mem_cons_self with hc | rfl
      · exact skipNewline?_of_ne (ne_of_isPlain hc).1 (ne_of_isPlain hc).2 _
      · exact absurd List.mem_cons_self hline

end LogCourier.Toml

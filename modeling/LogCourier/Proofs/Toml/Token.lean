import LogCourier.Proofs.Numeral
import LogCourier.Toml.Printer
import LogCourier.Toml.Token

/-!
# Numbers and flags that are written and read

What is written without quotes has to be told from other things of the kind: digits may begin a date
or a number with a fraction as well as be a whole number. **A whole number is read as one**
(`LogCourier.Toml.classify?_integerText`), because in a date there is a `-` between digits, in a
time a `:`, and in a number with a fraction a point or a letter.
-/

namespace LogCourier.Toml

/-- A token ends where a character comes that is in none. -/
theorem readToken?_append {token rest : List Char} {d : Document}
    (htoken : ∀ c ∈ token, isTokenChar c = true)
    (hrest : ∀ c ∈ rest.head?, isTokenChar c = false ∧ c ≠ ' ')
    (h : classify? token = some d) : readToken? (token ++ rest) = some (d, rest) := by
  rw [readToken?, span_append_of_pos htoken fun c hc => (hrest c hc).1]
  simp only []
  split
  · exact absurd rfl (hrest ' ' rfl).2
  · rw [h]
    rfl

/-! ### Digits -/

/-- The range of a digit in base ten. -/
theorem toNat_of_isDigit {c : Char} (h : Numeral.isDigit 10 c = true) :
    48 ≤ c.toNat ∧ c.toNat ≤ 57 := by
  simp only [Numeral.isDigit, Numeral.digit?] at h
  split at h
  · rename_i d hd
    split at hd
    · assumption
    split at hd
    · rename_i hletter
      rw [← Option.some.inj hd] at h
      have := of_decide_eq_true h
      omega
    split at hd
    · rename_i hletter
      rw [← Option.some.inj hd] at h
      have := of_decide_eq_true h
      omega
    · exact absurd hd (by simp)
  · exact absurd h (by simp)

theorem ne_of_isDigit {c d : Char} (h : Numeral.isDigit 10 c = true)
    (hd : d.toNat < 48 ∨ 57 < d.toNat) : c ≠ d := by
  rintro rfl
  have := toNat_of_isDigit h
  omega

theorem isTokenChar_of_isDigit {c : Char} (h : Numeral.isDigit 10 c = true) :
    isTokenChar c = true := by
  obtain ⟨hlow, hhigh⟩ := toNat_of_isDigit h
  simp only [isTokenChar, Bool.or_eq_true, Bool.and_eq_true, decide_eq_true_eq]
  omega

section Digits

variable {digits : List Char} (hsome : digits ≠ [])
  (hdigits : ∀ c ∈ digits, Numeral.isDigit 10 c = true)

include hsome hdigits

/-- Digits without underscores are read as they are. -/
theorem grouped?_digits : grouped? 10 digits = some digits := by
  induction digits with
  | nil => exact absurd rfl hsome
  | cons c digits ih =>
    have hc := hdigits c List.mem_cons_self
    match digits with
    | [] => rw [grouped?, if_pos hc]
    | d :: more =>
      have hd : d ≠ '_' :=
        ne_of_isDigit (hdigits d (List.mem_cons_of_mem _ List.mem_cons_self)) (by decide)
      have hrest := ih (by simp) fun x hx => hdigits x (List.mem_cons_of_mem _ hx)
      rw [grouped?, if_pos hc, hrest]
      · rfl
      · simp
      · exact fun rest heq => hd (List.cons.inj heq).1

/-- Without a zero in front they are a number in base ten. -/
theorem decimal?_digits (hzero : digits.head? = some '0' → digits.length = 1) :
    decimal? digits = some digits := by
  rw [decimal?, grouped?_digits hsome hdigits]
  simp only [Option.bind_eq_bind, Option.bind_some]
  rw [if_neg]
  rintro ⟨hhead, hmore⟩
  have := hzero hhead
  omega

omit hsome in
/-- They are no number with a fraction or an exponent. -/
theorem isUnsignedFloat_digits (negative : Bool) : isUnsignedFloat negative digits = false := by
  have hspan : (digits ++ []).span isGroupChar = (digits, []) :=
    span_append_of_pos (fun c hc => by rw [isGroupChar, hdigits c hc, Bool.true_or]) (by simp)
  rw [List.append_nil] at hspan
  rw [isUnsignedFloat, hspan]
  simp only [exponent?]
  split <;> rfl

end Digits

/-! ### Dates and times -/

/-- Behind a number of so many digits there is no character that is nowhere, and there is no such
number where a text begins with something else. -/
theorem expect?_eq_none_of_field? {length low high : Nat} {c : Char} {cs : List Char}
    {found : Nat × List Char}
    (h : c ∉ cs ∨ ∃ d rest, cs = d :: rest ∧ Numeral.isDigit 10 d = false)
    (hfield : field? (length + 1) low high cs = some found) : expect? c found.2 = none := by
  simp only [field?] at hfield
  split at hfield
  · rename_i hdigits
    rw [← Option.some.inj hfield]
    rcases h with hmissing | ⟨d, rest, rfl, hd⟩
    · change expect? c (cs.drop (length + 1)) = none
      have hmem : c ∉ cs.drop (length + 1) := fun hc => hmissing (List.mem_of_mem_drop hc)
      cases hrest : cs.drop (length + 1) with
      | nil => rfl
      | cons d rest =>
        rw [expect?, if_neg]
        rintro rfl
        rw [hrest] at hmem
        exact hmem List.mem_cons_self
    · have hall := hdigits.2.1
      rw [List.take_succ_cons, List.all_cons, hd, Bool.false_and] at hall
      exact absurd hall (by simp)
  · exact absurd hfield (by simp)

section Dates

variable {cs : List Char}

/-- In a date there is a `-`, and it begins with a digit. -/
theorem skipDate?_eq_none
    (h : '-' ∉ cs ∨ ∃ c rest, cs = c :: rest ∧ Numeral.isDigit 10 c = false) :
    skipDate? cs = none := by
  cases hfield : field? 4 0 9999 cs with
  | none => simp only [skipDate?, hfield, Option.bind_eq_bind, Option.bind_none]
  | some found =>
    simp only [skipDate?, hfield, expect?_eq_none_of_field? h hfield, Option.bind_eq_bind,
      Option.bind_some, Option.bind_none]

/-- In a time there is a `:`, and it begins with a digit. -/
theorem skipTime?_eq_none
    (h : ':' ∉ cs ∨ ∃ c rest, cs = c :: rest ∧ Numeral.isDigit 10 c = false) :
    skipTime? cs = none := by
  cases hfield : field? 2 0 23 cs with
  | none => simp only [skipTime?, hfield, Option.bind_eq_bind, Option.bind_none]
  | some found =>
    simp only [skipTime?, hfield, expect?_eq_none_of_field? h hfield, Option.bind_eq_bind,
      Option.bind_some, Option.bind_none]

theorem isDateTime_eq_false
    (hdate : '-' ∉ cs ∨ ∃ c rest, cs = c :: rest ∧ Numeral.isDigit 10 c = false)
    (htime : ':' ∉ cs ∨ ∃ c rest, cs = c :: rest ∧ Numeral.isDigit 10 c = false) :
    isDateTime cs = false := by
  rw [isDateTime, skipTime?_eq_none htime, skipDate?_eq_none hdate]
  rfl

end Dates

/-! ### Whole numbers -/

section Integers

variable {digits : List Char} (hsome : digits ≠ [])
  (hdigits : ∀ c ∈ digits, Numeral.isDigit 10 c = true)

include hsome hdigits

/-- Digits begin with a digit. -/
theorem exists_cons_of_digits :
    ∃ c rest, digits = c :: rest ∧ 48 ≤ c.toNat ∧ c.toNat ≤ 57 := by
  cases digits with
  | nil => exact absurd rfl hsome
  | cons c rest => exact ⟨c, rest, rfl, toNat_of_isDigit (hdigits c List.mem_cons_self)⟩

/-- Digits without a zero in front are a number in base ten. -/
theorem integer?_digits (hzero : digits.head? = some '0' → digits.length = 1) :
    integer? digits = natural? 10 digits := by
  have hnone (base : Char) (hbase : base.toNat < 48 ∨ 57 < base.toNat) (rest : List Char) :
      digits ≠ '0' :: base :: rest := by
    rintro rfl
    exact ne_of_isDigit (hdigits base (List.mem_cons_of_mem _ List.mem_cons_self)) hbase rfl
  have hsign (sign : Char) (h : sign.toNat < 48 ∨ 57 < sign.toNat) (rest : List Char) :
      digits ≠ sign :: rest := by
    rintro rfl
    exact ne_of_isDigit (hdigits sign List.mem_cons_self) h rfl
  rw [integer?, decimal?_digits hsome hdigits hzero]
  · rfl
  · exact hnone 'x' (by decide)
  · exact hnone 'o' (by decide)
  · exact hnone 'b' (by decide)
  · exact hsign '+' (by decide)
  · exact hsign '-' (by decide)

theorem integer?_minus_digits (hzero : digits.head? = some '0' → digits.length = 1) :
    integer? ('-' :: digits) = negative? digits := by
  simp only [integer?, decimal?_digits hsome hdigits hzero]
  rfl

/-- With a sign or without, digits are no number with a fraction or an exponent. -/
theorem isFloat_of_splitSign {token : List Char} {negative : Bool}
    (h : splitSign token = (negative, digits)) : isFloat token = false := by
  obtain ⟨c, rest, rfl, hlow, hhigh⟩ := exists_cons_of_digits hsome hdigits
  have hword (d : Char) (more : List Char) (h : 57 < d.toNat) : c :: rest ≠ d :: more := by
    rintro heq
    rw [(List.cons.inj heq).1] at hhigh
    omega
  simp only [isFloat, h, isUnsignedFloat_digits hdigits, hword 'i' _ (by decide),
    hword 'n' _ (by decide), decide_false, Bool.or_false]

/-- Digits have no sign. -/
theorem splitSign_digits : splitSign digits = (false, digits) := by
  obtain ⟨c, rest, rfl, hlow, -⟩ := exists_cons_of_digits hsome hdigits
  unfold splitSign
  split
  · rename_i heq
    rw [(List.cons.inj heq).1] at hlow
    exact absurd hlow (by decide)
  · rename_i heq
    rw [(List.cons.inj heq).1] at hlow
    exact absurd hlow (by decide)
  · rfl

omit hsome in
/-- Digits are no date and no time. -/
theorem isDateTime_digits : isDateTime digits = false := by
  have hmissing (c : Char) (h : c.toNat < 48 ∨ 57 < c.toNat) : c ∉ digits :=
    fun hc => ne_of_isDigit (hdigits c hc) h rfl
  exact isDateTime_eq_false (.inl (hmissing '-' (by decide))) (.inl (hmissing ':' (by decide)))

end Integers

/-- What begins otherwise is no word. -/
theorem classify?_of_ne {token : List Char} {c : Char} {rest : List Char}
    (htoken : token = c :: rest) (hword : c ≠ 't' ∧ c ≠ 'f') (hdate : isDateTime token = false)
    (hfloat : isFloat token = false) :
    classify? token = (integer? token).map .integer := by
  rw [classify?, if_neg, if_neg, if_neg (by simp [hdate]), if_neg (by simp [hfloat])]
  · rw [htoken]
    exact fun heq => hword.2 (List.cons.inj heq).1
  · rw [htoken]
    exact fun heq => hword.1 (List.cons.inj heq).1

/-- **A whole number is read as one.** -/
theorem classify?_integerText {n : Int} (h : isWritable n = true) :
    classify? (integerText n) = some (.integer n) := by
  have hdigits (m : Nat) (c : Char) (hc : c ∈ Nat.toDigits 10 m) : Numeral.isDigit 10 c = true :=
    Numeral.isDigit_of_mem_toDigits (by decide) (by decide) m hc
  have hzero (m : Nat) (hhead : (Nat.toDigits 10 m).head? = some '0') :
      (Nat.toDigits 10 m).length = 1 := by
    rw [Numeral.head?_toDigits (by decide) (by decide) m hhead]
    rfl
  rw [isWritable, decide_eq_true_eq] at h
  cases n with
  | ofNat m =>
    have hbelow : m < maxInteger + 1 := by
      have := h.2
      simp only [Int.ofNat_eq_natCast] at this
      omega
    obtain ⟨c, rest, hcons, hlow, hhigh⟩ :=
      exists_cons_of_digits Nat.toDigits_ne_nil (hdigits m)
    have hword : c ≠ 't' ∧ c ≠ 'f' := by
      constructor <;> (rintro rfl; exact absurd hhigh (by decide))
    rw [integerText, classify?_of_ne hcons hword
      (isDateTime_digits (hdigits m)) (isFloat_of_splitSign Nat.toDigits_ne_nil (hdigits m)
        (splitSign_digits Nat.toDigits_ne_nil (hdigits m))),
      integer?_digits Nat.toDigits_ne_nil (hdigits m) (hzero m), natural?,
      Numeral.below?_toDigits (by decide) (by decide) hbelow]
    rfl
  | negSucc m =>
    have hbelow : m + 1 < maxInteger + 2 := by
      have := h.1
      omega
    have hbegin (d : Char) : d ∉ '-' :: Nat.toDigits 10 (m + 1) ∨
        ∃ c rest, '-' :: Nat.toDigits 10 (m + 1) = c :: rest ∧ Numeral.isDigit 10 c = false :=
      .inr ⟨'-', _, rfl, by decide⟩
    rw [integerText, classify?_of_ne rfl (by decide) (isDateTime_eq_false (hbegin '-') (hbegin ':'))
      (isFloat_of_splitSign Nat.toDigits_ne_nil (hdigits (m + 1)) rfl),
      integer?_minus_digits Nat.toDigits_ne_nil (hdigits (m + 1)) (hzero (m + 1)), negative?,
      Numeral.below?_toDigits (by decide) (by decide) hbelow]
    rfl

theorem isTokenChar_integerText (n : Int) : ∀ c ∈ integerText n, isTokenChar c = true := by
  have hdigits (m : Nat) (c : Char) (hc : c ∈ Nat.toDigits 10 m) : isTokenChar c = true :=
    isTokenChar_of_isDigit (Numeral.isDigit_of_mem_toDigits (by decide) (by decide) m hc)
  intro c hc
  cases n with
  | ofNat m => exact hdigits m c hc
  | negSucc m =>
    rcases List.mem_cons.mp hc with rfl | hc
    · decide
    · exact hdigits (m + 1) c hc

end LogCourier.Toml

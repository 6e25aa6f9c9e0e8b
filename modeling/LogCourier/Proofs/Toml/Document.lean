import LogCourier.Proofs.Toml.Quoted
import LogCourier.Proofs.Toml.Token
import LogCourier.Toml.Reader

/-!
# Tables that are written and read

**A table that is written is read again** (`LogCourier.Toml.read?_of_write?`), but for the order of
its entries: tables in it are written behind all else, since whatever comes behind a header goes
into the table that it begins.

A line is read in two steps, and so is the proof about it: first its text becomes a pair or a header
(`LogCourier.Toml.readLine?_pair`, `LogCourier.Toml.readLine?_header`), and then that is put into
what has been built, where its name has to be new.
-/

namespace LogCourier.Toml

/-- A character that passes a test which blanks do not is none. -/
theorem isSpace_of_test {p : Char → Bool} {c : Char} (hc : p c = true) (hspace : p ' ' = false)
    (htab : p '\t' = false) : isSpace c = false := by
  rw [isSpace, beq_false_of_ne (ne_of_test hc hspace), beq_false_of_ne (ne_of_test hc htab),
    Bool.or_false]

/-! ### Values -/

section Values

variable {width depth : Nat} {rest : List Char}

/-- What begins with no quote and no bracket is a token. -/
theorem readValue?_token {c : Char} (h : isTokenChar c = true) :
    readValue? width depth (c :: rest) = readToken? (c :: rest) := by
  unfold readValue?
  split
  · rename_i heq
    exact absurd (Option.some.inj heq) (ne_of_test h (by decide))
  · rename_i heq
    exact absurd (Option.some.inj heq) (ne_of_test h (by decide))
  · rename_i heq
    exact absurd (Option.some.inj heq) (ne_of_test h (by decide))
  · rename_i heq
    exact absurd (Option.some.inj heq) (ne_of_test h (by decide))
  · rename_i heq
    exact absurd (Option.some.inj heq) (ne_of_test h (by decide))
  · rename_i heq
    exact absurd (Option.some.inj heq) (ne_of_test h (by decide))
  · rfl

/-- What begins with a quote is quoted text. -/
theorem readValue?_quote {cs : List Char} (h : cs.head? = some '"' ∨ cs.head? = some '\'') :
    readValue? width depth cs =
      (readQuoted? cs).map fun (s, rest) => (.text (String.ofList s), rest) := by
  unfold readValue?
  rcases h with h | h
  · rw [h]
    cases depth <;> rfl
  · rw [h]
    cases depth <;> rfl

/-- A quoted text begins with a quote. -/
theorem head?_quoted (cs rest : List Char) :
    (quoted cs ++ rest).head? = some '"' ∨ (quoted cs ++ rest).head? = some '\'' := by
  unfold quoted
  split
  · exact .inl rfl
  · exact .inr rfl
  · exact .inl rfl
  · exact .inr rfl

/-- What is written is a token of that meaning, or a text in quotes. -/
theorem writeScalar?_cases {v : Document} {written : List Char}
    (h : writeScalar? v = some written) :
    (∃ c token, written = c :: token ∧ (∀ d ∈ written, isTokenChar d = true) ∧
      classify? written = some v) ∨
    ∃ s, v = .text s ∧ written = quoted s.toList := by
  cases v with
  | flag b =>
    cases Option.some.inj h
    cases b
    · exact .inl ⟨_, _, rfl, List.all_eq_true.mp rfl, rfl⟩
    · exact .inl ⟨_, _, rfl, List.all_eq_true.mp rfl, rfl⟩
  | integer n =>
    simp only [writeScalar?] at h
    split at h
    · rename_i hwritable
      cases Option.some.inj h
      obtain ⟨c, token, hcons⟩ : ∃ c token, integerText n = c :: token := by
        refine List.exists_cons_of_ne_nil ?_
        cases n with
        | ofNat m => exact Nat.toDigits_ne_nil
        | negSucc m => exact List.cons_ne_nil _ _
      exact .inl ⟨c, token, hcons, isTokenChar_integerText n, classify?_integerText hwritable⟩
    · exact absurd h (by simp)
  | text s => exact .inr ⟨s, rfl, (Option.some.inj h).symm⟩
  | null | float | dateTime | list | table => exact absurd h (by simp [writeScalar?])

section Written

variable {v : Document} {written : List Char} (h : writeScalar? v = some written)

include h

/-- **A value is read again**, if the line ends behind it. -/
theorem readValue?_of_writeScalar? :
    readValue? width depth (written ++ '\n' :: rest) = some (v, '\n' :: rest) := by
  rcases writeScalar?_cases h with ⟨c, token, rfl, htoken, hmeaning⟩ | ⟨s, rfl, rfl⟩
  · rw [List.cons_append, readValue?_token (htoken c List.mem_cons_self), ← List.cons_append]
    exact readToken?_append htoken (forall_head?_cons (by decide)) hmeaning
  · rw [readValue?_quote (head?_quoted _ _),
      readQuoted?_quoted _ (forall_head?_cons (by decide))]
    simp only [Option.map_some, String.ofList_toList]

/-- There is no blank in front of it. -/
theorem skipSpaces_of_writeScalar? : skipSpaces (written ++ rest) = written ++ rest := by
  rcases writeScalar?_cases h with ⟨d, token, rfl, htoken, -⟩ | ⟨s, rfl, rfl⟩
  · exact dropWhile_of_head? (forall_head?_cons
      (isSpace_of_test (htoken d List.mem_cons_self) (by decide) (by decide)))
  · refine dropWhile_of_head? fun c hc => ?_
    rcases head?_quoted s.toList rest with hq | hq
    · cases Option.some.inj (hq.symm.trans hc)
      decide
    · cases Option.some.inj (hq.symm.trans hc)
      decide

end Written

end Values

/-! ### What can be written -/

theorem isSome_writePairs? (pairs : List (String × Document)) :
    (writePairs? pairs).isSome = pairs.all fun e => (writeScalar? e.2).isSome := by
  induction pairs with
  | nil => rfl
  | cons e pairs ih =>
    obtain ⟨name, v⟩ := e
    rw [List.all_cons, ← ih, writePairs?]
    cases writeScalar? v with
    | none => rfl
    | some written => cases writePairs? pairs <;> rfl

theorem isSome_writeSections? (sections : List (String × List (String × Document))) :
    (writeSections? sections).isSome = sections.all fun e => (writePairs? e.2).isSome := by
  induction sections with
  | nil => rfl
  | cons e sections ih =>
    obtain ⟨name, pairs⟩ := e
    rw [List.all_cons, ← ih, writeSections?]
    cases writePairs? pairs with
    | none => rfl
    | some written => cases writeSections? sections <;> rfl

/-- **A table can be written if the values in it can**, and those in the tables in it. -/
theorem isSome_write? (entries : List (String × Document)) : (write? entries).isSome =
    ((entries.filter fun e => (entriesOf? e.2).isNone).all (fun e => (writeScalar? e.2).isSome) &&
      (entries.filterMap fun e => (entriesOf? e.2).map (e.1, ·)).all fun e =>
        e.2.all fun i => (writeScalar? i.2).isSome) := by
  simp only [← isSome_writePairs?, ← isSome_writeSections?]
  rw [write?]
  cases writePairs? (entries.filter fun e => (entriesOf? e.2).isNone) with
  | none => rfl
  | some written =>
    cases writeSections? (entries.filterMap fun e => (entriesOf? e.2).map (e.1, ·)) <;> rfl

/-! ### Names -/

/-- A name that needs no quotes. -/
def IsBare (name : String) : Prop :=
  name ≠ "" ∧ ∀ c ∈ name.toList, isNameChar c = true

/-- A name begins with one of its characters. -/
theorem IsBare.exists_cons {name : String} (h : IsBare name) :
    ∃ c cs, name.toList = c :: cs ∧ isNameChar c = true := by
  obtain ⟨c, cs, hcons⟩ :=
    List.exists_cons_of_ne_nil fun hnil => h.1 (String.toList_eq_nil_iff.mp hnil)
  exact ⟨c, cs, hcons, h.2 c (hcons ▸ List.mem_cons_self)⟩

section Keys

variable {name : String} (h : IsBare name) {rest : List Char}

include h

theorem IsBare.head?_append_ne {c : Char} (hc : isNameChar c = false) :
    (name.toList ++ rest).head? ≠ some c := by
  obtain ⟨d, cs, hcons, hd⟩ := h.exists_cons
  rw [hcons]
  exact fun heq => ne_of_test hd hc (Option.some.inj heq)

theorem IsBare.skipSpaces_append : skipSpaces (name.toList ++ rest) = name.toList ++ rest := by
  obtain ⟨c, cs, hcons, hc⟩ := h.exists_cons
  rw [hcons]
  refine dropWhile_of_head? fun d hd => ?_
  cases Option.some.inj hd
  exact isSpace_of_test hc (by decide) (by decide)

/-- **A name is read again.** -/
theorem IsBare.readName?_append (hrest : ∀ c ∈ rest.head?, isNameChar c = false) :
    readName? (name.toList ++ rest) = some (name, rest) := by
  have hspan := span_append_of_pos h.2 hrest
  unfold readName?
  split
  · rename_i heq
    exact absurd heq (h.head?_append_ne (by decide))
  · rename_i heq
    exact absurd heq (h.head?_append_ne (by decide))
  · rw [hspan]
    simp only [String.ofList_toList]
    rw [if_neg (String.toList_eq_nil_iff.not.mpr h.1)]

/-- It is a key of one part, up to what comes behind the blanks after it. -/
theorem IsBare.readKey?_append (parts : Nat) (hrest : ∀ c ∈ rest.head?, isNameChar c = false)
    (hpoint : ∀ c ∈ (skipSpaces rest).head?, c ≠ '.') :
    readKey? (parts + 1) (name.toList ++ rest) = some ([], name, skipSpaces rest) := by
  rw [readKey?, h.skipSpaces_append, h.readName?_append hrest]
  simp only [Option.bind_eq_bind, Option.bind_some]
  split
  · rename_i heq
    rw [heq] at hpoint
    exact absurd rfl (hpoint '.' rfl)
  · rfl

end Keys

/-! ### Lines -/

section Lines

variable {width : Nat} {p q : Progress} {name : String}

/-- **A line with a pair.** -/
theorem readLine?_pair (hname : IsBare name) {v : Document} {written : List Char}
    (hwritten : writeScalar? v = some written) (rest : List Char)
    (hq : p.pair? [] name v = some q) :
    readLine? width p (name.toList ++ [' ', '=', ' '] ++ written ++ ['\n'] ++ rest) =
      some (q, rest) := by
  have hline : name.toList ++ [' ', '=', ' '] ++ written ++ ['\n'] ++ rest =
      name.toList ++ (' ' :: '=' :: ' ' :: (written ++ '\n' :: rest)) := by
    simp only [List.append_assoc, List.cons_append, List.nil_append]
  have hkey : readKey? maxDepth (name.toList ++ (' ' :: '=' :: ' ' :: (written ++ '\n' :: rest))) =
      some ([], name, '=' :: ' ' :: (written ++ '\n' :: rest)) :=
    hname.readKey?_append 78 (forall_head?_cons (by decide)) (forall_head?_cons (by decide))
  have hassign : readAssignment? width p
      (name.toList ++ (' ' :: '=' :: ' ' :: (written ++ '\n' :: rest))) = some (q, rest) := by
    have hvalue : skipSpaces (' ' :: (written ++ '\n' :: rest)) = written ++ '\n' :: rest :=
      skipSpaces_of_writeScalar? hwritten
    have hend : finishLine? ('\n' :: rest) = some rest := rfl
    simp only [readAssignment?, readPair?, hkey, Option.bind_eq_bind, Option.bind_some,
      hvalue, readValue?_of_writeScalar? hwritten, hend, hq]
  rw [hline]
  unfold readLine?
  split
  · rename_i heq
    exact absurd heq (hname.head?_append_ne (by decide))
  · rename_i heq
    exact absurd heq (hname.head?_append_ne (by decide))
  · rename_i heq
    exact absurd heq (hname.head?_append_ne (by decide))
  · rename_i heq
    exact absurd heq (hname.head?_append_ne (by decide))
  · exact hassign

/-- **A line with a header.** -/
theorem readLine?_header (hname : IsBare name) (rest : List Char)
    (hq : p.header? false [] name = some q) :
    readLine? width p ('[' :: (name.toList ++ [']', '\n'] ++ rest)) = some (q, rest) := by
  have hkey : readKey? maxDepth (name.toList ++ (']' :: '\n' :: rest)) =
      some ([], name, ']' :: '\n' :: rest) :=
    hname.readKey?_append 78 (forall_head?_cons (by decide)) (forall_head?_cons (by decide))
  have hend : finishLine? ('\n' :: rest) = some rest := rfl
  have hline : name.toList ++ [']', '\n'] ++ rest = name.toList ++ (']' :: '\n' :: rest) := by
    simp only [List.append_assoc, List.cons_append, List.nil_append]
  change readHeader? p (name.toList ++ [']', '\n'] ++ rest) = some (q, rest)
  rw [hline]
  unfold readHeader?
  split
  rename_i doubled cs' heq
  split at heq
  · rename_i hbracket
    exact absurd (congrArg List.head? hbracket) (hname.head?_append_ne (by decide))
  · obtain ⟨rfl, rfl⟩ := Prod.mk.inj heq
    simp only [hkey, Option.bind_eq_bind, Option.bind_some, hend, hq]

end Lines

/-! ### What is built -/

section Building

variable {name : String} {entries : Entries} (h : name ∉ entries.map Prod.fst)

include h

theorem lookup_new : entries.lookup name = none := by
  rw [List.lookup_eq_none_iff]
  exact fun e he => bne_iff_ne.mpr fun heq => h (List.mem_map.mpr ⟨e, he, heq.symm⟩)

/-- What is put behind the others is found there. -/
theorem lookup_concat (n : Node) : (entries ++ [(name, n)]).lookup name = some n := by
  rw [List.lookup_append, lookup_new h, List.lookup_cons, beq_self_eq_true]
  rfl

/-- Something else is put in its place. -/
theorem set_concat (old n : Node) :
    Entries.set (entries ++ [(name, old)]) name n = entries ++ [(name, n)] := by
  have hkeep : ∀ e ∈ entries, (if e.1 = name then (e.1, n) else (e.1, e.2)) = e := fun e he =>
    if_neg fun heq => h (List.mem_map.mpr ⟨e, he, heq⟩)
  rw [Entries.set, List.map_append, List.map_congr_left hkeep, List.map_id'' fun _ => rfl]
  exact congrArg (entries ++ [·]) (if_pos rfl)

/-- A new pair is put behind the others. -/
theorem addEntry_new (v : Document) :
    addEntry false name v false entries = some (entries ++ [(name, .value v)]) := by
  rw [addEntry, lookup_new h]
  rfl

/-- So is a new table with a header. -/
theorem openTable_new :
    openTable name entries = some (entries ++ [(name, .table false false [])]) := by
  rw [openTable, lookup_new h]

end Building

/-- A pair before all headers goes into the outermost table. -/
theorem Progress.pair?_outermost {entries : Entries} {name : String}
    (h : name ∉ entries.map Prod.fst) (v : Document) :
    Progress.pair? { entries, path := [] } [] name v =
      some { entries := entries ++ [(name, .value v)], path := [] } := by
  simp only [Progress.pair?, alterAt, addPair, List.isEmpty_nil, Bool.not_true, addEntry_new h,
    Option.bind_eq_bind, Option.bind_some]

/-- A pair behind a header goes into the table of that header. -/
theorem Progress.pair?_headed {entries inner : Entries} {table name : String}
    (htable : table ∉ entries.map Prod.fst) (h : name ∉ inner.map Prod.fst) (v : Document) :
    Progress.pair?
        { entries := entries ++ [(table, .table false false inner)], path := [table] } [] name v =
      some
        { entries := entries ++ [(table, .table false false (inner ++ [(name, .value v)]))]
          path := [table] } := by
  simp only [Progress.pair?, alterAt, lookup_concat htable, addPair, List.isEmpty_nil,
    Bool.not_true, Bool.false_and, addEntry_new h, set_concat htable, Option.bind_eq_bind,
    Option.bind_some, if_false, reduceCtorEq]

/-- A header begins a table that has nothing in it. -/
theorem Progress.header?_new {p : Progress} {name : String} (h : name ∉ p.entries.map Prod.fst) :
    p.header? false [] name =
      some { entries := p.entries ++ [(name, .table false false [])], path := [name] } := by
  simp only [Progress.header?, alterAt, openTable_new h, Option.bind_eq_bind, Option.bind_some,
    if_false, reduceCtorEq, List.nil_append]

/-! ### Many lines -/

/-- **Reading lines leads** from a state and a text to another state and what is left of the text.
How many lines may be read is bounded by the length of the text, and of these there always remain
enough for the rest. -/
def Leads (width : Nat) (p : Progress) (cs : List Char) (q : Progress) (rest : List Char) : Prop :=
  ∀ fuel, cs.length < fuel →
    ∃ left, rest.length < left ∧ readLines? width fuel p cs = readLines? width left q rest

section Leads

variable {width : Nat} {p q r : Progress} {cs mid rest : List Char}

theorem Leads.refl : Leads width p cs p cs :=
  fun fuel h => ⟨fuel, h, rfl⟩

theorem Leads.trans (h : Leads width p cs q mid) (h' : Leads width q mid r rest) :
    Leads width p cs r rest := by
  intro fuel hfuel
  obtain ⟨left, hleft, hread⟩ := h fuel hfuel
  obtain ⟨left', hleft', hread'⟩ := h' left hleft
  exact ⟨left', hleft', hread.trans hread'⟩

/-- One line leads on. -/
theorem Leads.of_readLine? (hsome : cs ≠ []) (hspaces : skipSpaces cs = cs)
    (h : readLine? width p cs = some (q, rest)) (hlt : rest.length < cs.length) :
    Leads width p cs q rest := by
  intro fuel hfuel
  cases fuel with
  | zero => exact absurd hfuel (Nat.not_lt_zero _)
  | succ fuel =>
    refine ⟨fuel, by omega, ?_⟩
    cases cs with
    | nil => exact absurd rfl hsome
    | cons c cs =>
      rw [readLines?, hspaces]
      simp only [h, Option.bind_eq_bind, Option.bind_some]

/-- At the end of the text it is the answer. -/
theorem Leads.readLines? (h : Leads width p cs q []) :
    readLines? width (cs.length + 1) p cs = some q := by
  obtain ⟨left, hleft, hread⟩ := h _ (Nat.lt_succ_self _)
  cases left with
  | zero => exact absurd hleft (Nat.not_lt_zero _)
  | succ left => exact hread

end Leads

/-! ### Tables -/

/-- **Entries that can be told apart** by names that need no quotes. -/
structure Named (names : List String) : Prop where
  /-- No name needs quotes. -/
  bare : ∀ name ∈ names, IsBare name
  /-- No two are the same. -/
  nodup : names.Nodup

/-- Pairs, as they are kept while a table is read. -/
def valued (pairs : List (String × Document)) : Entries :=
  pairs.map fun (name, v) => (name, .value v)

/-- Tables with a header of their own, as they are kept while what is around them is read. -/
def headed (sections : List (String × List (String × Document))) : Entries :=
  sections.map fun (name, pairs) => (name, .table false false (valued pairs))

section Names

theorem map_fst_valued (pairs : List (String × Document)) :
    (valued pairs).map Prod.fst = pairs.map Prod.fst := by
  rw [valued, List.map_map]
  rfl

/-- **Pairs, line by line**: wherever they go, each goes behind those before it, if its name is new
there. -/
theorem leads_pairs (width : Nat) (rest : List Char) (into : Entries → Progress)
    (hinto : ∀ (entries : Entries) (name : String) (v : Document), name ∉ entries.map Prod.fst →
      (into entries).pair? [] name v = some (into (entries ++ [(name, .value v)])))
    {pairs : List (String × Document)} {written : List Char}
    (hwritten : writePairs? pairs = some written) (hbare : ∀ e ∈ pairs, IsBare e.1)
    (entries : Entries) (hnew : (entries.map Prod.fst ++ pairs.map Prod.fst).Nodup) :
    Leads width (into entries) (written ++ rest) (into (entries ++ valued pairs)) rest := by
  induction pairs generalizing written entries with
  | nil =>
    cases Option.some.inj hwritten
    rw [valued, List.map_nil, List.append_nil]
    exact .refl
  | cons e pairs ih =>
    obtain ⟨name, v⟩ := e
    have hname : IsBare name := hbare _ List.mem_cons_self
    simp only [writePairs?, Option.bind_eq_bind, Option.bind_eq_some_iff] at hwritten
    obtain ⟨value, hvalue, more, hmore, heq⟩ := hwritten
    cases Option.some.inj heq
    have hfresh : name ∉ entries.map Prod.fst := fun hmem =>
      (List.nodup_append.mp hnew).2.2 name hmem name List.mem_cons_self rfl
    have hline : Leads width (into entries)
        (name.toList ++ [' ', '=', ' '] ++ value ++ ['\n'] ++ more ++ rest)
        (into (entries ++ [(name, .value v)])) (more ++ rest) := by
      refine .of_readLine? (by simp) ?_ ?_ ?_
      · simp only [List.append_assoc]
        exact hname.skipSpaces_append
      · rw [List.append_assoc _ more rest]
        exact readLine?_pair hname hvalue _ (hinto _ _ _ hfresh)
      · simp only [List.length_append, List.length_cons]
        omega
    have hrest := ih hmore (fun e he => hbare e (List.mem_cons_of_mem _ he))
      (entries ++ [(name, .value v)]) (by
        rw [List.map_append, List.append_assoc]
        exact hnew)
    rw [List.append_assoc] at hrest
    exact hline.trans hrest

/-- **Tables, each behind its header.** -/
theorem leads_sections (width : Nat) {sections : List (String × List (String × Document))}
    {written : List Char} (hwritten : writeSections? sections = some written)
    (hbare : ∀ e ∈ sections, IsBare e.1)
    (hinner : ∀ e ∈ sections, (∀ i ∈ e.2, IsBare i.1) ∧ (e.2.map Prod.fst).Nodup)
    {p : Progress} (hnew : (p.entries.map Prod.fst ++ sections.map Prod.fst).Nodup) :
    ∃ path, Leads width p written { entries := p.entries ++ headed sections, path } [] := by
  induction sections generalizing written p with
  | nil =>
    cases Option.some.inj hwritten
    rw [headed, List.map_nil, List.append_nil]
    exact ⟨p.path, .refl⟩
  | cons e sections ih =>
    obtain ⟨name, pairs⟩ := e
    have hname : IsBare name := hbare _ List.mem_cons_self
    obtain ⟨hbarePairs, hnodup⟩ := hinner _ List.mem_cons_self
    simp only [writeSections?, Option.bind_eq_bind, Option.bind_eq_some_iff] at hwritten
    obtain ⟨body, hbody, more, hmore, heq⟩ := hwritten
    cases Option.some.inj heq
    have hfresh : name ∉ p.entries.map Prod.fst := fun hmem =>
      (List.nodup_append.mp hnew).2.2 name hmem name List.mem_cons_self rfl
    have hblank : Leads width p ('\n' :: '[' :: (name.toList ++ [']', '\n'] ++ (body ++ more))) p
        ('[' :: (name.toList ++ [']', '\n'] ++ (body ++ more))) :=
      .of_readLine? (by simp) rfl rfl (by simp)
    have hheader : Leads width p ('[' :: (name.toList ++ [']', '\n'] ++ (body ++ more)))
        { entries := p.entries ++ [(name, .table false false [])], path := [name] }
        (body ++ more) := by
      refine .of_readLine? (by simp) rfl
        (readLine?_header hname _ (Progress.header?_new hfresh)) ?_
      simp only [List.length_append, List.length_cons]
      omega
    have hpairs := leads_pairs width more
      (fun inner => { entries := p.entries ++ [(name, .table false false inner)], path := [name] })
      (fun inner key v h => Progress.pair?_headed hfresh h v) hbody hbarePairs [] hnodup
    obtain ⟨path, hrest⟩ := ih hmore (fun e he => hbare e (List.mem_cons_of_mem _ he))
      (fun e he => hinner e (List.mem_cons_of_mem _ he))
      (p := { entries := p.entries ++ [(name, .table false false (valued pairs))], path := [name] })
      (by
        rw [List.map_append, List.append_assoc]
        exact hnew)
    refine ⟨path, ?_⟩
    simp only [List.append_assoc, List.cons_append, List.nil_append] at hblank hheader hrest ⊢
    exact hblank.trans (hheader.trans (hpairs.trans hrest))

end Names

/-! ### What has been built is what was written -/

theorem entriesDocument_eq_map (entries : Entries) :
    entriesDocument entries = entries.map fun e => (e.1, e.2.document) := by
  induction entries with
  | nil => rfl
  | cons e entries ih => rw [entriesDocument, ih, List.map_cons]

theorem entriesDocument_valued (pairs : List (String × Document)) :
    entriesDocument (valued pairs) = pairs := by
  rw [entriesDocument_eq_map, valued, List.map_map]
  exact List.map_id'' (fun _ => rfl) pairs

theorem entriesDocument_headed (sections : List (String × List (String × Document))) :
    entriesDocument (headed sections) = sections.map fun (name, pairs) => (name, .table pairs) := by
  rw [entriesDocument_eq_map, headed, List.map_map]
  refine List.map_congr_left fun e _ => ?_
  simp only [Function.comp, Node.document, entriesDocument_valued]

/-! ### Whole documents -/

/-- A text that does not begin with the mark is all there is to read. -/
theorem skipMark_of_head? {cs : List Char} (h : cs.head? ≠ some '\uFEFF') : skipMark cs = cs := by
  unfold skipMark
  split
  · exact absurd rfl h
  · rfl

/-- What is written begins with a name or with the end of a line. -/
theorem head?_written_ne {pairs : List (String × Document)}
    {sections : List (String × List (String × Document))} {written more : List Char}
    (hwritten : writePairs? pairs = some written) (hmore : writeSections? sections = some more)
    (hbare : ∀ e ∈ pairs, IsBare e.1) : (written ++ more).head? ≠ some '\uFEFF' := by
  cases pairs with
  | cons e pairs =>
    simp only [writePairs?, Option.bind_eq_bind, Option.bind_eq_some_iff] at hwritten
    obtain ⟨value, hvalue, rest, hrest, heq⟩ := hwritten
    cases Option.some.inj heq
    simp only [List.append_assoc]
    exact (hbare e List.mem_cons_self).head?_append_ne (by decide)
  | nil =>
    cases Option.some.inj hwritten
    cases sections with
    | nil =>
      cases Option.some.inj hmore
      simp
    | cons e sections =>
      simp only [writeSections?, Option.bind_eq_bind, Option.bind_eq_some_iff] at hmore
      obtain ⟨body, hbody, rest, hrest, heq⟩ := hmore
      cases Option.some.inj heq
      simp

/-- The tables among entries are taken apart and put together again. -/
theorem map_sections (entries : List (String × Document)) :
    (entries.filterMap fun e => (entriesOf? e.2).map (e.1, ·)).map
        (fun (name, pairs) => (name, Document.table pairs)) =
      entries.filter fun e => (entriesOf? e.2).isSome := by
  induction entries with
  | nil => rfl
  | cons e entries ih =>
    obtain ⟨name, d⟩ := e
    cases d with
    | table pairs => exact congrArg ((name, Document.table pairs) :: ·) ih
    | _ => exact ih

/-- **A table that is written is read again**, with the values in it before the tables. -/
theorem read?_of_write? {entries : List (String × Document)} {text : String}
    (h : write? entries = some text) (hnamed : Named (entries.map Prod.fst))
    (hinner : ∀ name pairs, (name, .table pairs) ∈ entries → Named (pairs.map Prod.fst)) :
    read? text = some (.table (entries.filter (fun e => (entriesOf? e.2).isNone) ++
      entries.filter (fun e => (entriesOf? e.2).isSome))) := by
  simp only [write?, Option.bind_eq_bind, Option.bind_eq_some_iff] at h
  obtain ⟨written, hwritten, more, hmore, heq⟩ := h
  cases Option.some.inj heq
  set values := entries.filter fun e => (entriesOf? e.2).isNone
  set sections := entries.filterMap fun e => (entriesOf? e.2).map (e.1, ·)
  have hbare (e : String × Document) (he : e ∈ entries) : IsBare e.1 :=
    hnamed.bare _ (List.mem_map_of_mem he)
  have hsection (e : String × List (String × Document)) (he : e ∈ sections) :
      (e.1, Document.table e.2) ∈ entries := by
    obtain ⟨⟨name, d⟩, hmem, hpairs⟩ := List.mem_filterMap.mp he
    obtain ⟨pairs, hd, rfl⟩ := Option.map_eq_some_iff.mp hpairs
    cases d with
    | table _ =>
      cases Option.some.inj hd
      exact hmem
    | _ => exact absurd hd (by simp [entriesOf?])
  have htables : sections.map (fun (name, pairs) => (name, Document.table pairs)) =
      entries.filter fun e => (entriesOf? e.2).isSome := map_sections entries
  have hnodup : (values.map Prod.fst ++ sections.map Prod.fst).Nodup := by
    have hfst : sections.map Prod.fst =
        (sections.map fun (name, pairs) => (name, Document.table pairs)).map Prod.fst := by
      rw [List.map_map]
      rfl
    have hperm := List.filter_append_perm (fun e => (entriesOf? e.2).isNone) entries
    simp only [Option.not_isNone] at hperm
    rw [hfst, htables, ← List.map_append, (hperm.map Prod.fst).nodup_iff]
    exact hnamed.nodup
  have hvalues := leads_pairs (written ++ more).length more
    (fun entries => { entries, path := [] })
    (fun entries name v h => Progress.pair?_outermost h v) hwritten
    (fun e he => hbare e (List.mem_filter.mp he).1) [] (List.nodup_append.mp hnodup).1
  obtain ⟨path, hsections⟩ := leads_sections (written ++ more).length hmore
    (fun e he => hbare _ (hsection e he))
    (fun e he => ⟨fun i hi => (hinner _ _ (hsection e he)).bare _ (List.mem_map_of_mem hi),
      (hinner _ _ (hsection e he)).nodup⟩)
    (p := { entries := valued values, path := [] })
    (by rw [map_fst_valued]; exact hnodup)
  have hread := (hvalues.trans hsections).readLines?
  rw [read?, String.toList_ofList, skipMark_of_head? (head?_written_ne hwritten hmore
    fun e he => hbare e (List.mem_filter.mp he).1)]
  simp only [hread, Option.bind_eq_bind, Option.bind_some, entriesDocument_eq_map, List.map_append]
  rw [← entriesDocument_eq_map, ← entriesDocument_eq_map, entriesDocument_valued,
    entriesDocument_headed, htables]

end LogCourier.Toml

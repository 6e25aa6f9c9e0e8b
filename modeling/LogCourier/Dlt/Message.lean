import LogCourier.Dlt.Argument

/-!
# Reading messages

What a receiver makes of a datagram: the fields of the header and the list of the
arguments. The reader is strict – it wants the header type that this library
writes, a length that is the datagram's own, valid identifiers, a level that
there is, as many arguments as announced, and not one byte more.

* `LogCourier.Dlt.Header.read?` reads the header and gives the rest;
* `LogCourier.Dlt.Argument.readAll?` reads arguments until nothing is left, each
  by its type and the length that the type implies;
* `LogCourier.Dlt.Message.read?` reads a whole datagram.
-/

namespace LogCourier.Dlt

/-- The header at the start of a datagram, and what follows it. -/
def Header.read? (data : Bytes) : Option (Header × Bytes) :=
  match data with
  | type :: counter :: l₀ :: l₁ :: e₀ :: e₁ :: e₂ :: e₃ :: t₀ :: t₁ :: t₂ :: t₃ :: info :: count
      :: a₀ :: a₁ :: a₂ :: a₃ :: c₀ :: c₁ :: c₂ :: c₃ :: rest => do
    if type ≠ Header.headerType then none
    if info % 16 ≠ 1 then none
    let level ← Level.ofCode? (info / 16)
    let ecu ← (Id.ofBytes [e₀, e₁, e₂, e₃]).toOption
    let appid ← (Id.ofBytes [a₀, a₁, a₂, a₃]).toOption
    let ctxid ← (Id.ofBytes [c₀, c₁, c₂, c₃]).toOption
    return ({ counter, length := Bytes.word16 l₀ l₁, ecu, timestamp := Bytes.word32 t₀ t₁ t₂ t₃,
              level, argumentCount := count, appid, ctxid }, rest)
  | _ => none

namespace Argument

/-- The bytes behind a length of two bytes, and what follows them. -/
def sized? (data : Bytes) : Option (Bytes × Bytes) :=
  match data with
  | l₀ :: l₁ :: rest =>
    let length := (Bytes.word16 l₁ l₀).toNat
    if rest.length < length then none else some (rest.take length, rest.drop length)
  | _ => none

/-- The argument of that type, and what follows it. -/
def readTyped? (type : UInt32) (data : Bytes) : Option (Argument × Bytes) :=
  if type = numberType then
    match data with
    | v₀ :: v₁ :: v₂ :: v₃ :: rest => some (.number (Bytes.word32 v₃ v₂ v₁ v₀), rest)
    | _ => none
  else if type = rawType then
    (sized? data).map fun (body, rest) => (.raw body, rest)
  else if type = textType then
    (sized? data).bind fun (body, rest) =>
      if body.getLast? = some 0 then some (.text body.dropLast, rest) else none
  else none

/-- The argument at the start of a list, and what follows it. -/
def read? (data : Bytes) : Option (Argument × Bytes) :=
  match data with
  | t₀ :: t₁ :: t₂ :: t₃ :: rest => readTyped? (Bytes.word32 t₃ t₂ t₁ t₀) rest
  | _ => none

theorem length_lt_of_sized? {data body rest : Bytes} (h : sized? data = some (body, rest)) :
    rest.length < data.length := by
  unfold sized? at h
  split at h
  · dsimp only at h
    split at h
    · exact absurd h (by simp)
    · simp only [Option.some.injEq, Prod.mk.injEq] at h
      simp only [← h.2, List.length_cons, List.length_drop]
      omega
  · exact absurd h (by simp)

theorem length_lt_of_readTyped? {type : UInt32} {data rest : Bytes} {a : Argument}
    (h : readTyped? type data = some (a, rest)) : rest.length < data.length := by
  unfold readTyped? at h
  split at h
  · split at h
    · simp only [Option.some.injEq, Prod.mk.injEq] at h
      simp only [← h.2, List.length_cons]
      omega
    · exact absurd h (by simp)
  · split at h
    · obtain ⟨⟨body, rest'⟩, hs, he⟩ := Option.map_eq_some_iff.mp h
      simp only [Prod.mk.injEq] at he
      exact he.2 ▸ length_lt_of_sized? hs
    · split at h
      · obtain ⟨⟨body, rest'⟩, hs, he⟩ := Option.bind_eq_some_iff.mp h
        dsimp only at he
        split at he
        · simp only [Option.some.injEq, Prod.mk.injEq] at he
          exact he.2 ▸ length_lt_of_sized? hs
        · exact absurd he (by simp)
      · exact absurd h (by simp)

/-- What follows an argument is shorter. -/
theorem length_lt_of_read? {data rest : Bytes} {a : Argument} (h : read? data = some (a, rest)) :
    rest.length < data.length := by
  unfold read? at h
  split at h
  · have := length_lt_of_readTyped? h
    simp only [List.length_cons]
    omega
  · exact absurd h (by simp)

/-- **All arguments of a list**, if it is made of nothing else. -/
def readAll? (data : Bytes) : Option (List Argument) :=
  if data = [] then some []
  else match _h : read? data with
    | some (a, rest) => (readAll? rest).map (a :: ·)
    | none => none
termination_by data.length
decreasing_by exact length_lt_of_read? _h

end Argument

/-- A message as a receiver sees it. -/
structure Message where
  /-- Its header. -/
  header : Header
  /-- Its arguments. -/
  arguments : List Argument
  deriving DecidableEq

/-- **The message in a datagram**, if the whole datagram is one message. -/
def Message.read? (data : Bytes) : Option Message := do
  let (header, rest) ← Header.read? data
  if header.length.toNat ≠ data.length then none
  let arguments ← Argument.readAll? rest
  if header.argumentCount.toNat ≠ arguments.length then none
  return { header, arguments }

end LogCourier.Dlt

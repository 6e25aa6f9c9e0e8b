import LogCourier.Id

/-!
# Transfer entries

An application asks for a file to be carried by sending an **entry**: under which
application and context the messages go out, which file, and whether the file is
to be removed afterwards. Its written form has twelve bytes and then the name:

| bytes | what |
| --- | --- |
| 1 | version, `01` |
| 4 | application |
| 4 | context |
| 1 | `01` to remove the file, `00` to keep it |
| 2 | length of the name, most significant byte first, from 1 to 4096 |
| … | the name, UTF-8 without NUL, exactly as long as said |

`LogCourier.Entry.encode` writes it and `LogCourier.Entry.decode` reads it. The
reader looks at the bytes from left to right and tells the first thing that is
wrong; that the name is text is looked at last, after its length.
-/

namespace LogCourier

/-- A request to carry a file. -/
structure Entry where
  /-- The application that the messages name. -/
  appid : Id
  /-- The context that the messages name. -/
  ctxid : Id
  /-- The path of the file. -/
  fileName : String
  /-- Whether the file is removed once it has been carried. -/
  deleteFile : Bool
  deriving DecidableEq

namespace Entry

/-- The version of the written form. -/
def version : UInt8 := 0x01

/-- The bytes before the name. -/
def headerLength : Nat := 12

/-- The longest name, in bytes. -/
def maxNameLength : Nat := 4096

/-- The two identifiers of an entry. -/
inductive Field
  /-- The application. -/
  | appid
  /-- The context. -/
  | ctxid
  deriving DecidableEq, Repr

/-- The name of a field. -/
def Field.name : Field → String
  | appid => "appid"
  | ctxid => "ctxid"

/-! ### Writing -/

/-- Why an entry has no written form. -/
inductive EncodeError
  /-- The name is empty or too long. -/
  | nameLength (n : Nat)
  /-- The name contains NUL. -/
  | nameNul
  deriving DecidableEq, Repr

/-- What is said of a name that is empty or too long. -/
def nameLengthMessage (n : Nat) : String :=
  s!"file name length {n} out of range (1..={maxNameLength})"

/-- What is said of a name that contains NUL. -/
def nameNulMessage : String :=
  "file name contains a NUL byte"

/-- The text of an error. -/
def EncodeError.message : EncodeError → String
  | nameLength n => nameLengthMessage n
  | nameNul => nameNulMessage

/-- The byte that tells whether the file is removed. -/
def flagByte (delete : Bool) : UInt8 :=
  if delete then 0x01 else 0x00

/-- **The written form of an entry**, if its name fits. -/
def encode (e : Entry) : Except EncodeError Bytes :=
  let name := Bytes.ofText e.fileName
  if name.length = 0 ∨ maxNameLength < name.length then .error (.nameLength name.length)
  else if 0 ∈ name then .error .nameNul
  else .ok (version :: (e.appid.bytes ++ e.ctxid.bytes ++ [flagByte e.deleteFile]
    ++ Bytes.be16 (UInt16.ofNat name.length) ++ name))

/-! ### Reading -/

/-- Why bytes are no entry. -/
inductive DecodeError
  /-- There are fewer bytes than there should be. -/
  | truncated (expected got : Nat)
  /-- They are of a version that is not known. -/
  | unsupportedVersion (byte : UInt8)
  /-- An identifier is none. -/
  | invalidId (field : Field) (source : Id.Error)
  /-- The byte that tells whether to remove the file is neither `00` nor `01`. -/
  | invalidFlag (byte : UInt8)
  /-- The name is said to be empty or too long. -/
  | nameLength (n : Nat)
  /-- The name is not UTF-8. -/
  | nameEncoding
  /-- The name contains NUL. -/
  | nameNul
  /-- There are bytes after the name. -/
  | trailing (n : Nat)
  deriving DecidableEq, Repr

/-- The text of an error. -/
def DecodeError.message : DecodeError → String
  | truncated expected got => s!"record truncated: expected {expected} bytes, got {got}"
  | unsupportedVersion b => s!"unsupported record version 0x{Bytes.hex b}"
  | invalidId field source => s!"invalid {field.name}: {source.message}"
  | invalidFlag b => s!"invalid delete flag 0x{Bytes.hex b}"
  | nameLength n => nameLengthMessage n
  | nameEncoding => "file name is not valid UTF-8"
  | nameNul => nameNulMessage
  | trailing n => s!"{n} trailing bytes after record"

/-- The identifier of a field. -/
def readId (field : Field) (raw : Bytes) : Except DecodeError Id :=
  match Id.ofBytes raw with
  | .ok id => .ok id
  | .error e => .error (.invalidId field e)

/-- Whether the file is removed. -/
def readFlag (b : UInt8) : Except DecodeError Bool :=
  if b = 0x00 then .ok false
  else if b = 0x01 then .ok true
  else .error (.invalidFlag b)

/-- The name, from the bytes that are left when `said` of them should be. -/
def readName (said : Nat) (rest : Bytes) : Except DecodeError String :=
  if said = 0 ∨ maxNameLength < said then .error (.nameLength said)
  else if rest.length < said then
    .error (.truncated (headerLength + said) (headerLength + rest.length))
  else if said < rest.length then .error (.trailing (rest.length - said))
  else if 0 ∈ rest then .error .nameNul
  else match Bytes.text? rest with
    | some name => .ok name
    | none => .error .nameEncoding

/-- **The entry that bytes stand for.** Of several faults the leftmost is told. -/
def decode (data : Bytes) : Except DecodeError Entry :=
  match data with
  | v :: a₀ :: a₁ :: a₂ :: a₃ :: c₀ :: c₁ :: c₂ :: c₃ :: flag :: hi :: lo :: rest => do
    if v ≠ version then throw (.unsupportedVersion v)
    let appid ← readId .appid [a₀, a₁, a₂, a₃]
    let ctxid ← readId .ctxid [c₀, c₁, c₂, c₃]
    let deleteFile ← readFlag flag
    let fileName ← readName (Bytes.word16 hi lo).toNat rest
    return { appid, ctxid, fileName, deleteFile }
  | short => .error (.truncated headerLength short.length)

end Entry

end LogCourier

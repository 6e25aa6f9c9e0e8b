/-!
# Documents

Settings arrive as a tree of named values, written down in one notation or
another. This file has the tree: what the notations have in common, and enough of
what they do not that a reader of settings can tell a value of the wrong kind.

Two kinds of value mean nothing to the courier, numbers with a fraction and dates.
They are kept as they were written.

How a document is written down is left to whoever writes it down and reads it
(`LogCourier.Document.Codec`): settings are saved and loaded with any codec.
-/

namespace LogCourier

/-- A value in a document. -/
inductive Document
  /-- Nothing. -/
  | null
  /-- A yes or a no. -/
  | flag (b : Bool)
  /-- A whole number. -/
  | integer (n : Int)
  /-- A number with a fraction or an exponent, as written. -/
  | float (written : String)
  /-- A date, a time, or both, as written. -/
  | dateTime (written : String)
  /-- Text. -/
  | text (s : String)
  /-- Values in a row. -/
  | list (items : List Document)
  /-- Values by name. -/
  | table (entries : List (String × Document))
  deriving Inhabited

/-- **A way to write documents down.** -/
structure Document.Codec where
  /-- The document that a text is read as, if it is read at all. -/
  read? : String → Option Document
  /-- The text of a table, or what to complain about if there is none. -/
  write : List (String × Document) → Except String String

end LogCourier

import LogCourier.Toml.Printer
import LogCourier.Toml.Reader

/-!
# TOML

The codec that settings are written down with. Of what it can read it writes only a
part: tables of texts, flags and whole numbers, and such tables within them. A whole
number has at most sixty-four bits with its sign, and settings have larger ones.
-/

namespace LogCourier.Toml

/-- What is said of a number that is too large. -/
def outOfRange : String :=
  "out-of-range value for u64 type"

/-- **Documents as TOML.** -/
def codec : Document.Codec where
  read? := read?
  write entries := (write? entries).elim (.error outOfRange) .ok

end LogCourier.Toml

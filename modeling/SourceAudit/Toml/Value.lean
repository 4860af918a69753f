import SourceAudit.Number.Binary64
import SourceAudit.Text.Basic

/-!
# TOML documents as data

A document is a table: keys with values, each key once. Tables and arrays hold values in turn.
Dates and times are kept as they were written, and of a float that is too large for a double only
that it was one.
-/

namespace SourceAudit.Toml

inductive Value
  | text (t : Text)
  | integer (n : Int)
  | float (x : Binary64)
  | overflow
  | boolean (b : Bool)
  | moment (t : Text)
  | array (items : List Value)
  | table (entries : List (Text × Value))

abbrev Table := List (Text × Value)

end SourceAudit.Toml

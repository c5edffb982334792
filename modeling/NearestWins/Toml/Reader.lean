import NearestWins.Data.Reader

/-!
# Readers of TOML

Which texts are TOML, and what is said about those that are not or do not fit a record, is up to a
`TomlReader`. The rest of the library takes the reader as a parameter and keeps what it says as it
is.
-/

namespace NearestWins

/-- A reader of TOML. -/
structure TomlReader where
  /-- The entries of the document that a text is, or what is wrong with a text that is none. -/
  read : String → Except String (List (String × Value))
  /-- What is wrong with a text whose document does not fit the record of a name. -/
  misfit : (record text : String) → Mismatch → String

/-- Reads a text as a record. -/
def TomlReader.decode {ρ : Type} (reader : TomlReader) (schema : Schema ρ) (blank : ρ)
    (text : String) : Except String ρ := do
  let entries ← reader.read text
  (schema.fit .toml blank (.table entries)).mapError (reader.misfit schema.name text)

end NearestWins

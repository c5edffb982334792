import NearestWins.Text.Quoted

/-!
# Mismatches

A document is first read as plain data and then fitted to a record. A `Mismatch` is the reason why
the data does not fit; `Mismatch.message` words it.
-/

namespace NearestWins

/-- What was found where something else was wanted. -/
inductive Found
  /-- The null value. -/
  | null
  /-- A truth value. -/
  | boolean (b : Bool)
  /-- An integer of at most 64 bits, signed or unsigned. -/
  | integer (n : Int)
  /-- An integer that needs 128 bits, named with the width it was read in. -/
  | wideInteger (n : Int) (width : String)
  /-- A floating-point number, by its decimal text. -/
  | float (text : String)
  /-- A text. -/
  | string (text : String)
  /-- A list of values. -/
  | sequence
  /-- Named values. -/
  | map
deriving DecidableEq

/-- The wording of what was found. -/
def Found.describe : Found → String
  | .null => "null"
  | .boolean b => s!"boolean `{b}`"
  | .integer n => s!"integer `{n}`"
  | .wideInteger n width => s!"integer `{n}` as {width}"
  | .float text => s!"floating point `{text}`"
  | .string text => "string " ++ quoted text
  | .sequence => "sequence"
  | .map => "map"

/-- Why data does not fit a record. -/
inductive Mismatch
  /-- A required field is not there. -/
  | missingField (field : String)
  /-- A field that the record does not have. -/
  | unknownField (field : String) (known : List String)
  /-- A choice that is none of the known ones. -/
  | unknownVariant (variant : String) (known : List String)
  /-- A value of another type. -/
  | wrongType (found : Found) (wanted : String)
  /-- A value of the right type that is out of bounds. -/
  | wrongValue (found : Found) (wanted : String)
  /-- A list of the wrong length. -/
  | wrongLength (length : Nat) (wanted : String)
  /-- A value of a shape that a choice cannot have. -/
  | wantedShape (shape : String)
  /-- A number that no machine number holds, or another value that cannot be kept. -/
  | unrepresentable
deriving DecidableEq

/-- The known names of a choice as they are listed in a message. -/
def Mismatch.listKnown (known : List String) : String :=
  match known.map fun name => s!"`{name}`" with
  | [one] => one
  | [one, two] => s!"{one} or {two}"
  | names => "one of " ++ ", ".intercalate names

/-- The wording of a mismatch. -/
def Mismatch.message : Mismatch → String
  | .missingField field => s!"missing field `{field}`"
  | .unknownField field known => s!"unknown field `{field}`, expected " ++ listKnown known
  | .unknownVariant variant known => s!"unknown variant `{variant}`, expected " ++ listKnown known
  | .wrongType found wanted => "invalid type: " ++ found.describe ++ ", expected " ++ wanted
  | .wrongValue found wanted => "invalid value: " ++ found.describe ++ ", expected " ++ wanted
  | .wrongLength length wanted => s!"invalid length {length}, expected {wanted}"
  | .wantedShape shape => "wanted " ++ shape
  | .unrepresentable => "value out of bounds"

end NearestWins

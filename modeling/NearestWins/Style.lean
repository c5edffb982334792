/-!
# Styled text

Colours of a terminal. A styled text is wrapped in the escape sequences of its colour when colours
are wanted, and left alone when they are not. A text that ends colours itself does not end the
colour around it.
-/

namespace NearestWins

/-- The colours that the program writes in. -/
inductive Colour
  /-- Bold red, for errors. -/
  | boldRed
  /-- Yellow, for details and annotations. -/
  | yellow
  /-- Green, for suggestions and success. -/
  | green
  /-- Cyan, for markers. -/
  | cyan
deriving DecidableEq

/-- The parameters of the escape sequence that turns a colour on. -/
def Colour.code : Colour → String
  | .boldRed => "1;31"
  | .yellow => "33"
  | .green => "32"
  | .cyan => "36"

/-- Turns a colour on again behind every escape sequence inside a text that ends all colours. -/
def resume (opening : List Char) : List Char → List Char
  | '\x1b' :: '[' :: '0' :: 'm' :: rest =>
    '\x1b' :: '[' :: '0' :: 'm' :: (opening ++ resume opening rest)
  | c :: rest => c :: resume opening rest
  | [] => []

/-- Writes a text in a colour, if colours are wanted. -/
def Colour.paint (c : Colour) (coloured : Bool) (text : String) : String :=
  if coloured then
    let opening := "\x1b[" ++ c.code ++ "m"
    opening ++ String.ofList (resume opening.toList text.toList) ++ "\x1b[0m"
  else text

end NearestWins

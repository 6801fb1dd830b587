/-!
# Styles

A style gives text a colour and a weight on a terminal. Where colours are off, the text stands
alone.
-/

namespace RepairSearch.Console

inductive Color where
  | red
  | green
  | yellow
  | cyan
deriving DecidableEq, Repr

def Color.code : Color → String
  | red => "31"
  | green => "32"
  | yellow => "33"
  | cyan => "36"

structure Style where
  color : Option Color
  bold : Bool
  dim : Bool
deriving DecidableEq, Repr

namespace Style

def colored (c : Color) : Style := ⟨some c, false, false⟩

def strong (c : Color) : Style := ⟨some c, true, false⟩

def faint : Style := ⟨none, false, true⟩

/-- The codes of a style: the colour before the weight. -/
def codes (s : Style) : List String :=
  (s.color.map Color.code).toList ++ (if s.bold then ["1"] else []) ++ if s.dim then ["2"] else []

private def escape (code : String) : String := "\x1b[" ++ code ++ "m"

/-- The text in a style, which ends with the text. -/
def apply (colors : Bool) (s : Style) (text : String) : String :=
  if colors && !s.codes.isEmpty then String.join (s.codes.map escape) ++ text ++ escape "0"
  else text

end Style

end RepairSearch.Console

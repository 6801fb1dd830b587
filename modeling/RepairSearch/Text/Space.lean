/-!
# White space

The characters with the Unicode property White_Space.
-/

namespace RepairSearch

/-- Whether a character has the Unicode property White_Space. -/
def isSpace (c : Char) : Bool :=
  let n := c.toNat
  (9 ≤ n && n ≤ 13) || n == 32 || n == 0x85 || n == 0xA0 || n == 0x1680
    || (0x2000 ≤ n && n ≤ 0x200A) || n == 0x2028 || n == 0x2029 || n == 0x202F || n == 0x205F
    || n == 0x3000

/-- White space only, or nothing. -/
def isBlankString (s : String) : Bool := s.toList.all isSpace

/-- The parts of a text between runs of white space, none of them empty. -/
def words : List Char → List (List Char)
  | [] => []
  | c :: cs =>
    if isSpace c then words cs
    else
      match cs with
      | [] => [[c]]
      | d :: ds =>
        if isSpace d then [c] :: words ds
        else
          match words (d :: ds) with
          | [] => [[c]]
          | w :: ws => (c :: w) :: ws

/-- A text without the white space at its ends. -/
def trimmed (s : String) : String :=
  String.ofList ((s.toList.dropWhile isSpace).reverse.dropWhile isSpace).reverse

end RepairSearch

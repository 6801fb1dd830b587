/-!
# Patterns of characters

Basic regular expressions: characters, a point for any character, sets in brackets, a star for
repetition, and anchors at both ends.
-/

namespace RepairSearch.Pattern

inductive Atom where
  | char (c : Char)
  | any
  /-- One of several ranges, or none of them. -/
  | set (negated : Bool) (ranges : List (Char × Char))
deriving Repr

def Atom.accepts : Atom → Char → Bool
  | char d, c => c == d
  | any, _ => true
  | set negated ranges, c => (ranges.any fun (lo, hi) => lo ≤ c && c ≤ hi) != negated

structure Item where
  atom : Atom
  repeated : Bool
deriving Repr

end Pattern

structure Pattern where
  atStart : Bool
  items : List Pattern.Item
  atEnd : Bool
deriving Repr

namespace Pattern

/-- The ranges of a set up to its closing bracket. -/
private def ranges : List Char → Option (List (Char × Char) × List Char)
  | [] => none
  | ']' :: cs => some ([], cs)
  | c :: '-' :: ']' :: cs => some ([(c, c), ('-', '-')], cs)
  | lo :: '-' :: hi :: cs => (ranges cs).map fun (rs, rest) => ((lo, hi) :: rs, rest)
  | c :: cs => (ranges cs).map fun (rs, rest) => ((c, c) :: rs, rest)

/-- A set after its opening bracket. A closing bracket that comes first belongs to the set. -/
private def set? (cs : List Char) : Option (Atom × List Char) :=
  let negated := cs.head? == some '^'
  let body := if negated then cs.drop 1 else cs
  match body with
  | ']' :: rest => (ranges rest).map fun (rs, rest) => (.set negated ((']', ']') :: rs), rest)
  | _ => (ranges body).map fun (rs, rest) => (.set negated rs, rest)

/-- The items of a pattern, and whether its end is that of the text. -/
private def itemsOf : Nat → List Char → List Item × Bool
  | 0, _ | _, [] => ([], false)
  | _, ['$'] => ([], true)
  | fuel + 1, c :: cs =>
    let (atom, rest) : Atom × List Char :=
      match c, cs with
      | '\\', d :: ds => (.char d, ds)
      | '.', _ => (.any, cs)
      | '[', _ => (set? cs).getD (.char '[', cs)
      | _, _ => (.char c, cs)
    let repeated := rest.head? == some '*'
    let (more, atEnd) := itemsOf fuel (if repeated then rest.drop 1 else rest)
    (⟨atom, repeated⟩ :: more, atEnd)

def ofString (s : String) : Pattern :=
  let cs := s.toList
  let atStart := cs.head? == some '^'
  let (is, atEnd) := itemsOf cs.length (if atStart then cs.drop 1 else cs)
  ⟨atStart, is, atEnd⟩

/-- The pattern of one text. -/
def literal (s : String) : Pattern := ⟨false, s.toList.map fun c => ⟨.char c, false⟩, false⟩

/-- What is left of a text behind a match at its start; every repetition takes as much as it
can. -/
def restAfter? (atEnd : Bool) : List Item → List Char → Option (List Char)
  | [], cs => if atEnd && !cs.isEmpty then none else some cs
  | ⟨atom, true⟩ :: is, cs =>
    let most := (cs.takeWhile atom.accepts).length
    (List.range (most + 1)).reverse.findSome? fun n => restAfter? atEnd is (cs.drop n)
  | ⟨atom, false⟩ :: is, cs =>
    match cs with
    | c :: cs => if atom.accepts c then restAfter? atEnd is cs else none
    | [] => none

/-- The first match in a text: what stands before it, the match, and what follows. -/
def find? (p : Pattern) : List Char → Option (List Char × List Char × List Char)
  | [] => (restAfter? p.atEnd p.items []).map fun rest => ([], [], rest)
  | c :: cs =>
    match restAfter? p.atEnd p.items (c :: cs) with
    | some rest => some ([], (c :: cs).take (cs.length + 1 - rest.length), rest)
    | none =>
      if p.atStart then none
      else (find? p cs).map fun (before, found, rest) => (c :: before, found, rest)

def occursIn (p : Pattern) (s : String) : Bool := (p.find? s.toList).isSome

/-- The text with the first match, or every match, replaced. -/
def replace (p : Pattern) (everywhere : Bool) (replacement : List Char → List Char)
    (s : String) : String :=
  String.ofList (go (s.length + 1) s.toList)
where
  go : Nat → List Char → List Char
    | 0, cs => cs
    | fuel + 1, cs =>
      match p.find? cs with
      | none => cs
      | some (before, found, rest) =>
        let here := before ++ replacement found
        if !everywhere || p.atStart then here ++ rest
        else if found.isEmpty then
          match rest with
          | [] => here
          | c :: rest => here ++ c :: go fuel rest
        else here ++ go fuel rest

end Pattern

end RepairSearch

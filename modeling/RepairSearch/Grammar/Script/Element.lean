import RepairSearch.Grammar.Script.Symbol

/-!
# Markup elements

Elements that stand where an operand may stand. Their names and attributes follow the rules of
markup, their braces hold expressions.
-/

namespace RepairSearch.Grammar.Script

open Rule

variable (d : Dialect)

private def markupName (kind : String) : R := token kind true elementWord

/-- A name and the members after it. -/
def elementNameOperators : Operators Symbol :=
  { operand := markupName "identifier"
    tails := [{ power := 0, kind := "member_expression", left := some "object"
                rest := seq (exact ".") (field "property" (anyWord "property_identifier")) }] }

private def prefixedName : R :=
  .node "jsx_namespace_name" (seqs [markupName "identifier", exact ":", markupName "identifier"])

/-- A plain name, a dotted name, or a name with a prefix before a colon. -/
private def elementName : R := alt prefixedName (climb .elementName 0)

private def embedded : R :=
  .node "jsx_expression" (brackets "\x7b" (opt (alt
    (.node "spread_element" (seq (exact "...") value))
    (sym .expressions))) "\x7d")

private def attributeString : R :=
  let one := fun (quote : String) (q : Char) => seqs [exact quote,
    many (alt
      (.adjacent "html_character_reference" true characterReference)
      (.adjacent "string_fragment" true (Scan.andThen (Scan.char (· != q))
        (Scan.many fun c => c != q && c != '&')))),
    .adjacent quote false (Scan.text quote)]
  .node "string" (alt (one "\"" '"') (one "'" '\''))

/-- An attribute with an optional value, or an embedded expression. -/
def attributeRule : R :=
  let name := alt prefixedName (markupName "property_identifier")
  alt embedded
    (.node "jsx_attribute" (seq name
      (opt (seq (exact "=") (alts [attributeString, embedded, sym .element])))))

private def opening : R :=
  let types := if d.types then opt (field "type_arguments" (sym .typeArguments)) else .empty
  seqs [field "name" elementName, types, many (field "attribute" (sym .attribute))]

/-- An element with its children, or one that closes itself. -/
def elementRule : R :=
  alt
    (.node "jsx_self_closing_element" (seqs [exact "<", opening d, exact "/>"]))
    (.node "jsx_element" (seqs [
      field "open_tag"
        (.node "jsx_opening_element" (seqs [exact "<", opt (opening d), exact ">"])),
      many child,
      field "close_tag" (.node "jsx_closing_element"
        (seqs [exact "</", opt (field "name" elementName), exact ">"]))]))
where
  child := alts [.adjacent "jsx_text" true elementText,
    .adjacent "html_character_reference" true characterReference,
    embedded, seq (absent (exact "</")) (sym .element)]

end RepairSearch.Grammar.Script

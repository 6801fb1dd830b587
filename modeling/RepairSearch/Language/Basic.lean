import RepairSearch.Files.Path

/-!
# Languages

The languages whose sources can be repaired, and how a file name tells which one it holds.
-/

namespace RepairSearch

inductive Language where
  | python | rust | javascript | typescript | tsx
deriving DecidableEq, Repr, Inhabited

namespace Language

def name : Language → String
  | python => "python"
  | rust => "rust"
  | javascript => "javascript"
  | typescript => "typescript"
  | tsx => "tsx"

def ofName? : String → Option Language
  | "python" => some python
  | "rust" => some rust
  | "javascript" => some javascript
  | "typescript" => some typescript
  | "tsx" => some tsx
  | _ => none

def ofExtension? : String → Option Language
  | "py" => some python
  | "rs" => some rust
  | "js" | "mjs" | "cjs" => some javascript
  | "ts" | "mts" | "cts" => some typescript
  | "tsx" | "jsx" => some tsx
  | _ => none

/-- The language of a file, told by its extension. -/
def ofPath? (path : String) : Option Language :=
  (Path.extension? path).bind ofExtension?

end Language

end RepairSearch

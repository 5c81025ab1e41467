/-
JSON text for people: every item and every entry on a line of its own, two blanks deeper than
what it stands in. An empty array or object stays on one line.
-/
import NamedStores.Json.Writer

namespace NamedStores.Json

/-- A new line, so many levels deep. -/
def newLine (depth : Nat) : List Char := '\n' :: List.replicate (2 * depth) ' '

mutual

def pretty (depth : Nat) : Json → List Char
  | .array [] => ['[', ']']
  | .array items => '[' :: prettyItems (depth + 1) items ++ newLine depth ++ [']']
  | .object [] => ['\x7b', '\x7d']
  | .object entries => '\x7b' :: prettyEntries (depth + 1) entries ++ newLine depth ++ ['\x7d']
  | v => write v

/-- The items, each on its line, with commas behind all but the last. -/
def prettyItems (depth : Nat) : List Json → List Char
  | [] => []
  | [v] => newLine depth ++ pretty depth v
  | v :: items => newLine depth ++ pretty depth v ++ ',' :: prettyItems depth items

def prettyEntries (depth : Nat) : List (String × Json) → List Char
  | [] => []
  | [(k, v)] => newLine depth ++ writeString k ++ ':' :: ' ' :: pretty depth v
  | (k, v) :: entries =>
    newLine depth ++ writeString k ++ ':' :: ' ' :: pretty depth v ++
      ',' :: prettyEntries depth entries

end

def prettyText (v : Json) : String :=
  String.ofList (pretty 0 v)

end NamedStores.Json

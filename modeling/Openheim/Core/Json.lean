import Mathlib.Data.List.Sort

namespace Openheim

/-- A parsed JSON value. An object keeps its entries in the order of its map. -/
inductive Json where
  | null
  | bool (value : Bool)
  | number (digits : String)
  | string (text : String)
  | array (items : List Json)
  | object (entries : List (String × Json))

/-- The JSON library reads a text and writes a value. -/
structure SerdeJson where
  parse : String → Option Json
  print : Json → String

def Json.isObject : Json → Bool
  | .object _ => true
  | _ => false

/-- The entry of a key, if the value is an object that has it. -/
def Json.get (key : String) : Json → Option Json
  | .object entries => entries.lookup key
  | _ => none

mutual

/-- Every object of the value gets its keys in sorted order. -/
def Json.sortedKeys : Json → Json
  | .object entries => .object ((sortedEntries entries).insertionSort fun a b => a.1 ≤ b.1)
  | .array items => .array (sortedItems items)
  | other => other

def Json.sortedItems : List Json → List Json
  | [] => []
  | item :: rest => item.sortedKeys :: sortedItems rest

def Json.sortedEntries : List (String × Json) → List (String × Json)
  | [] => []
  | (key, value) :: rest => (key, value.sortedKeys) :: sortedEntries rest

end

end Openheim

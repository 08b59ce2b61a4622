import TokenAtlas.Json.Decode
import TokenAtlas.Symbol.Imports

/-! Kinds of symbols and imports as JSON values. -/

namespace TokenAtlas

open Json (Value)

namespace SymbolKind

def all : List SymbolKind := [.classLike, .function, .constant]

def ofName? (s : String) : Option SymbolKind := all.find? (·.name = s)

def ofJson? : Value → Option SymbolKind := Value.innerChoice? (all.map fun k => (k.name, k))

end SymbolKind

namespace ImportTable

def toJson (t : ImportTable) : Value :=
  .object (t.toList.map fun entry => (entry.1, .string entry.2))

def ofJson? : Value → Option ImportTable
  | .object fields =>
    (Value.mapAll? (fun field => field.2.string?.map fun s => (field.1, s)) fields).map
      fun entries => entries.foldl (fun t entry => t.insert entry.1 entry.2) ∅
  | _ => none

end ImportTable

namespace Imports

def toJson (i : Imports) : Value :=
  .object [("namespace", .ofString? i.active), ("classes", ImportTable.toJson i.classes),
    ("functions", ImportTable.toJson i.functions), ("constants", ImportTable.toJson i.constants)]

def ofJson? (v : Value) : Option Imports := do
  match ← v.parts? ["namespace", "classes", "functions", "constants"] with
  | [active, classes, functions, constants] =>
    return ⟨← Value.optional Value.string? active,
      ← Value.required ImportTable.ofJson? classes,
      ← Value.required ImportTable.ofJson? functions,
      ← Value.required ImportTable.ofJson? constants⟩
  | _ => none

def Outcome.toJson : Outcome → Value
  | .added => .string "added"
  | .replaced previous => .object [("replaced", .string previous)]
  | .limitReached => .string "limit_reached"

end Imports

end TokenAtlas

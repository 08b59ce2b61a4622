import TokenAtlas.Feature.Json
import TokenAtlas.Output.Document
import TokenAtlas.Preferences.Json
import TokenAtlas.Scan.Json

/-! Documents as JSON values. -/

namespace TokenAtlas

open Json (Value)

namespace Fragment

def toJson (f : Fragment) : Value :=
  .object [("text", .string f.text), ("classes", .ofStrings f.classes)]

def ofJson? (v : Value) : Option Fragment := do
  match ← v.parts? ["text", "classes"] with
  | [text, classes] =>
    return ⟨← Value.required Value.string? text,
      ← Value.required (Value.list? Value.string?) classes⟩
  | _ => none

end Fragment

namespace OutputToken

def toJson : OutputToken → Value
  | .enhanced t => t.toJson
  | .raw t => t.toJson
  | .fragment f => f.toJson

/-- The first of the shapes that a value has. Its tags may be numbered. -/
def ofJson? (v : Value) : Option OutputToken := do
  let v ← v.readable?
  (ScannedToken.ofJsonWith? Tag.ofNumberedJson? v).map enhanced <|> (Token.ofJson? v).map raw <|>
    (Fragment.ofJson? v).map fragment

end OutputToken

namespace Listing

/-- Lines are written as names of fields, in the order of their numbers. -/
def toJson : Listing → Value
  | .byIndex ts => .array (ts.map OutputToken.toJson)
  | .byLine lines =>
    .object (lines.toList.map fun line => (toString line.1, .array (line.2.map OutputToken.toJson)))

/-- A listing by index, or an empty one by line. Numbers of lines are not read back from
names. -/
def ofJson? : Value → Option Listing
  | .object [] => some (.byLine ∅)
  | v => (v.list? OutputToken.ofJson?).map .byIndex

end Listing

namespace Document

def toJson (d : Document) : Value :=
  .object ([("generated_at", .string d.generated.toText), ("source", .ofString? d.source),
    ("mode", .string d.mode.name), ("namespace", .ofString? d.active),
    ("tokens", d.listing.toJson), ("features", .array (d.features.map Product.toJson)),
    ("imports", d.imports.toJson)] ++
    (d.metrics.map fun m => ("metrics", m.toJson)).toList)

def ofJson? (v : Value) : Option Document := do
  match ← v.parts? ["generated_at", "source", "mode", "namespace", "tokens", "features",
      "imports", "metrics"] with
  | [generated, source, mode, active, listing, features, imports, metrics] =>
    return {
      generated := ← Value.required (fun v => v.string? >>= Moment.ofText?) generated
      source := ← Value.optional Value.string? source
      mode := ← Value.required OutputMode.ofJson? mode
      active := ← Value.optional Value.string? active
      listing := ← Value.required Listing.ofJson? listing
      features := ← Value.required (Value.list? Product.ofJson?) features
      imports := ← Value.required Imports.ofJson? imports
      metrics := ← Value.optional ScanMetrics.ofJson? metrics }
  | _ => none

end Document

end TokenAtlas

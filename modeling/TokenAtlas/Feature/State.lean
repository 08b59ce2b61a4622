import TokenAtlas.Feature.Json
import TokenAtlas.Feature.Stack
import TokenAtlas.Scan.Json

/-! The states of builders and the answers of a stack as JSON values. -/

namespace TokenAtlas

open Json (Value)

namespace Feature

def toJson (f : Feature) : Value := .string f.name

def ofName? (s : String) : Option Feature :=
  [namespaceDeclaration, namespaceImport, functionSignature].find? (·.name = s)

end Feature

namespace Hint

def toJson (h : Hint) : Value :=
  .object [("category", .string h.category.name),
    ("role", .ofOption (fun k : SymbolKind => .string k.name) h.role),
    ("absolute", .bool h.absolute)]

/-- A hint resolves against the imports unless it says otherwise. -/
def ofJson? (v : Value) : Option Hint := do
  match ← v.objectParts? ["category", "role", "absolute"] with
  | [category, role, absolute] =>
    return ⟨← Value.required Category.ofJson? category, ← Value.optional SymbolKind.ofJson? role,
      (← Value.optional Value.bool? absolute).getD false⟩
  | _ => none

end Hint

def BuildEvent.toJson : BuildEvent → Value
  | .namespaceNameKnown name => .object [("namespace_name_known", .string name)]

def Feed.toJson (f : Feed) : Value :=
  .object [("done", .bool f.done), ("hint", .ofOption Hint.toJson f.hint),
    ("events", .array (f.events.map BuildEvent.toJson))]

def Builder.toJson (b : Builder) : Value :=
  .object [("variant", b.feature.toJson), ("state", .string b.progress.name),
    ("phase", .ofString? b.phaseName?), ("types", .bool b.readsTypes),
    ("body_depth", .ofOption .int b.bodyDepth), ("product", .ofOption Product.toJson b.product?)]

/-- A builder with its product as far as it is known. -/
def Builder.withSnapshot (b : Builder) : Value :=
  .object [("builder", b.toJson), ("snapshot", b.snapshot.toJson)]

/-- The fields of a step. -/
def StackStep.fields (s : StackStep) : List (String × Value) :=
  [("opened", .ofOption Feature.toJson s.opened),
   ("discarded", .ofOption (fun d : Discard => .string d.name) s.discarded),
   ("hint", .ofOption Hint.toJson s.hint),
   ("events", .array (s.events.map BuildEvent.toJson)),
   ("products", .array (s.products.map Product.toJson))]

end TokenAtlas

import TokenAtlas.Scan
import TokenAtlas.Symbol.Json
import TokenAtlas.Token.Json

/-! Scanned tokens and the counts of a scan as JSON values. -/

namespace TokenAtlas

open Json (Value)

def Category.ofJson? : Value → Option Category :=
  Value.choice? (Category.all.map fun c => (c.name, c))

def Family.ofJson? : Value → Option Family :=
  Value.innerChoice? ([.paren, .curly, .square].map fun f : Family => (f.name, f))

namespace Tag

def toJson : Tag → Value
  | .keyword name => .object [("tag", .string "keyword"), ("name", .string name)]
  | .bracket side family depth =>
    let side := match side with
      | .opening => "opens"
      | .closing => "closes"
    .object [("tag", .string side), ("family", .string family.name), ("depth", .int depth)]
  | .role kind => .object [("tag", .string "role"), ("role", .string kind.name)]
  | .resolved name => .object [("tag", .string "resolved"), ("name", .string name)]

def nameOfJson? (v : Value) : Option String := do
  match ← v.parts? ["name"] with
  | [name] => Value.required Value.string? name
  | _ => none

def bracketOfJson? (side : Side) (v : Value) : Option Tag := do
  match ← v.parts? ["family", "depth"] with
  | [family, depth] =>
    return .bracket side (← Value.required Family.ofJson? family)
      (← Value.required Value.int32? depth)
  | _ => none

def roleOfJson? (v : Value) : Option Tag := do
  match ← v.parts? ["role"] with
  | [kind] => return .role (← Value.required SymbolKind.ofJson? kind)
  | _ => none

def ofJson? (v : Value) : Option Tag := do
  match ← v.tagged? "tag" with
  | (.string "keyword", v) => return .keyword (← nameOfJson? v)
  | (.string "opens", v) => bracketOfJson? .opening v
  | (.string "closes", v) => bracketOfJson? .closing v
  | (.string "role", v) => roleOfJson? v
  | (.string "resolved", v) => return .resolved (← nameOfJson? v)
  | _ => none

/-- As `ofJson?`, but the sorts of tags may be numbered too. -/
def ofNumberedJson? (v : Value) : Option Tag := do
  match ← v.tagged? "tag" with
  | (.int 0, v) => return .keyword (← nameOfJson? v)
  | (.int 1, v) => bracketOfJson? .opening v
  | (.int 2, v) => bracketOfJson? .closing v
  | (.int 3, v) => roleOfJson? v
  | (.int 4, v) => return .resolved (← nameOfJson? v)
  | _ => ofJson? v

end Tag

def Classification.toJson (c : Classification) : Value :=
  .object [("category", .string c.category.name), ("tags", .array (c.tags.map Tag.toJson))]

namespace ScannedToken

/-- The fields of the token stand between the index and the category. -/
def toJson (t : ScannedToken) : Value :=
  .object ([("index", .ofNat t.index)] ++ t.token.fields ++
    [("category", .string t.category.name), ("tags", .array (t.tags.map Tag.toJson))])

/-- A scanned token is always given by an object, and all of it must be readable. The
tags are read by `tag`. -/
def ofJsonWith? (tag : Value → Option Tag) (v : Value) : Option ScannedToken := do
  let v ← v.readable?
  let token ← v.objectParts? Token.fieldNames >>= Token.ofParts?
  match ← v.objectParts? ["index", "category", "tags"] with
  | [index, category, tags] =>
    return ⟨← Value.required Value.count? index, token,
      ← Value.required Category.ofJson? category,
      ← Value.required (Value.list? tag) tags⟩
  | _ => none

def ofJson? : Value → Option ScannedToken := ofJsonWith? Tag.ofJson?

end ScannedToken

namespace ScanMetrics

def toJson (m : ScanMetrics) : Value :=
  .object [("tokens_yielded", .ofNat m.tokensYielded), ("raw_tokens", .ofNat m.rawTokens),
    ("atoms_produced", .ofNat m.atomsProduced), ("builders_opened", .ofNat m.buildersOpened),
    ("builders_finished", .ofNat m.buildersFinished),
    ("candidates_discarded", .ofNat m.candidatesDiscarded),
    ("namespaces_entered", .ofNat m.namespacesEntered),
    ("imports_registered", .ofNat m.importsRegistered),
    ("classifier_cache_hits", .ofNat m.cacheHits)]

def ofJson? (v : Value) : Option ScanMetrics := do
  let parts ← v.parts? ["tokens_yielded", "raw_tokens", "atoms_produced", "builders_opened",
    "builders_finished", "candidates_discarded", "namespaces_entered", "imports_registered",
    "classifier_cache_hits"]
  match ← Value.mapAll? (Value.required Value.count?) parts with
  | [yielded, raw, atoms, opened, finished, discarded, entered, registered, hits] =>
    return ⟨yielded, raw, atoms, opened, finished, discarded, entered, registered, hits⟩
  | _ => none

end ScanMetrics

end TokenAtlas

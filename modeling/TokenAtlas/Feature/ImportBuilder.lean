import TokenAtlas.Feature.Hint
import TokenAtlas.Symbol.Name
import TokenAtlas.Text.Blank

/-! Building an import declaration: names separated by commas, each with an optional
short name, or a prefix and a group of names in curly brackets. The words `function`
and `const` before the first name set the kind of every entry, inside a group that of
one entry. A semicolon completes the declaration; trivia counts for nothing. -/

namespace TokenAtlas

/-- An entry that is not complete. -/
structure ImportDraft where
  kind : Option SymbolKind
  name : String
  knownAs : Option String
  expectsShort : Bool
deriving Repr, DecidableEq

def ImportDraft.empty : ImportDraft := ⟨none, "", none, false⟩

structure ImportBuilder where
  progress : Progress
  declaration : ImportDeclaration
  commonKind : SymbolKind
  draft : ImportDraft
  inGroup : Bool
  sawName : Bool
deriving Repr, DecidableEq

namespace ImportBuilder

def fresh : ImportBuilder := ⟨.pending, ⟨[], none⟩, .classLike, .empty, false, false⟩

/-- The kind of the entry that is being read. -/
def entryKind (b : ImportBuilder) : SymbolKind := b.draft.kind.getD b.commonKind

/-- A name as it is written in the declaration, in full. -/
def fullName (b : ImportBuilder) (name : String) : String :=
  match b.declaration.groupPrefix, b.inGroup with
  | some front, true => Name.join front name
  | _, _ => name

/-- Close the entry that is being read. An entry without a name is dropped. -/
def closeEntry (b : ImportBuilder) : ImportBuilder :=
  let name := Text.trimString b.draft.name
  let b' := { b with draft := .empty }
  if name = "" then b'
  else
    let entry : ImportEntry := ⟨b.entryKind, b.fullName name, b.draft.knownAs⟩
    { b' with declaration := { b.declaration with entries := b.declaration.entries ++ [entry] } }

/-- A word that says what kind of symbol is imported. It counts at the front only. -/
def setKind (b : ImportBuilder) (k : SymbolKind) : ImportBuilder :=
  if b.inGroup && b.draft.name = "" then { b with draft := { b.draft with kind := some k } }
  else if !b.inGroup && !b.sawName && b.declaration.entries.isEmpty then
    { b with commonKind := k }
  else b

def addName (b : ImportBuilder) (text : String) : ImportBuilder :=
  { b with draft := { b.draft with name := b.draft.name ++ text } }

/-- What was read so far becomes the prefix of a group. -/
def openGroup (b : ImportBuilder) : ImportBuilder :=
  { b with
    declaration := { b.declaration with groupPrefix := some (Name.withoutTail b.draft.name) }
    draft := .empty
    inGroup := true }

def feedWord (b : ImportBuilder) (t : Token) : Feed × ImportBuilder :=
  match t.kind with
  | .functionWord => (.quiet, b.setKind .function)
  | .constWord => (.quiet, b.setKind .constant)
  | .asWord => (.quiet, { b with draft := { b.draft with expectsShort := true } })
  | .separator => (.quiet, b.addName t.text)
  | .openCurly => (.quiet, if b.inGroup then b else b.openGroup)
  | .comma => (.quiet, b.closeEntry)
  | .closeCurly => (.quiet, if b.inGroup then { b.closeEntry with inGroup := false } else b)
  | .semicolon => (.finished, { b.closeEntry with progress := .finished })
  | k =>
    if k = .identifier && b.draft.expectsShort then
      (.hinted (.ofCategory (.ofSymbol b.entryKind)),
        { b with draft := { b.draft with knownAs := some t.text, expectsShort := false } })
    else if k.isName then
      (.hinted (.name (some b.entryKind)), { b.addName t.text with sawName := true })
    else (.quiet, b)

def feed (b : ImportBuilder) (t : Token) : Feed × ImportBuilder :=
  if b.progress = .finished || t.isTrivia then (.quiet, b)
  else { b with progress := .building }.feedWord t

end ImportBuilder

end TokenAtlas

import Std.Data.TreeMap
import TokenAtlas.Limits
import TokenAtlas.Notice
import TokenAtlas.Symbol.Name
import TokenAtlas.Text.Lowercase

/-! The names in force: the active namespace and what was imported into it. Of
two imports of one short name the newer one wins; entering a namespace drops them all.
Class and function names are looked up without regard to case, constants are not. -/

namespace TokenAtlas

/-- The key under which a short name is stored. -/
def SymbolKind.key (k : SymbolKind) (short : String) : String :=
  match k with
  | .constant => short
  | .classLike | .function => Text.lowerString short

/-- Short names and the names they stand for. -/
abbrev ImportTable := Std.TreeMap String String

/-- The active namespace, `none` for the global one, and the imports by kind. -/
structure Imports where
  active : Option String
  classes : ImportTable
  functions : ImportTable
  constants : ImportTable

namespace Imports

def empty : Imports := ⟨none, ∅, ∅, ∅⟩

/-- Enter a namespace. -/
def enter (name : String) : Imports :=
  let name := Name.relative name
  { empty with active := if name = "" then none else some name }

def size (i : Imports) : Nat := i.classes.size + i.functions.size + i.constants.size

def isEmpty (i : Imports) : Bool := i.size = 0

def table (i : Imports) : SymbolKind → ImportTable
  | .classLike => i.classes
  | .function => i.functions
  | .constant => i.constants

def setTable (i : Imports) (t : ImportTable) : SymbolKind → Imports
  | .classLike => { i with classes := t }
  | .function => { i with functions := t }
  | .constant => { i with constants := t }

@[simp] theorem table_setTable (i : Imports) (t : ImportTable) (k q : SymbolKind) :
    (i.setTable t k).table q = if q = k then t else i.table q := by
  cases k <;> cases q <;> rfl

/-- What became of an import. -/
inductive Outcome
  | added
  | replaced (previous : String)
  | limitReached
deriving Repr, DecidableEq

/-- Import `name` under `knownAs`, or else under its last segment. A full table takes
no further short name. -/
def add (i : Imports) (k : SymbolKind) (name : String) (knownAs : Option String) :
    Imports × Outcome :=
  let key := k.key (knownAs.getD (Name.lastSegment name))
  let t := i.table k
  match t[key]? with
  | some previous => (i.setTable (t.insert key name) k, .replaced previous)
  | none =>
    if Limits.imports ≤ i.size then (i, .limitReached)
    else (i.setTable (t.insert key name) k, .added)

/-- The imports after a declaration, the number of entries taken, and what is to be
told about the others and about replacements. -/
structure Applied where
  imports : Imports
  accepted : Nat
  notices : List Notice

/-- Take one more entry. -/
def Applied.entry (a : Applied) (e : ImportEntry) : Applied :=
  match a.imports.add e.kind e.name e.knownAs with
  | (i, .added) => { a with imports := i, accepted := a.accepted + 1 }
  | (i, .replaced previous) =>
    ⟨i, a.accepted + 1, .importReplaced e.name previous :: a.notices⟩
  | (i, .limitReached) => { a with imports := i, notices := .importIgnored e.name e.kind :: a.notices }

/-- Take the entries of a declaration in order. -/
def apply (i : Imports) (d : ImportDeclaration) : Applied :=
  let a := d.entries.foldl Applied.entry ⟨i, 0, []⟩
  { a with notices := a.notices.reverse }

/-- The name that a short name was imported for, without separators in front. -/
def lookup (i : Imports) (k : SymbolKind) (short : String) : Option String :=
  (i.table k)[k.key short]?.map Name.relative

/-- A name as a member of the active namespace. -/
def inActive (i : Imports) (name : String) : String :=
  match i.active with
  | some space => Name.join space name
  | none => name

/-- The full form of a name. The first segment of a qualified name is looked up among
the classes whatever the kind. Names that were not imported belong to the active
namespace; functions and constants do not fall back to the global one. -/
def resolve (i : Imports) (k : SymbolKind) (name : String) : String :=
  match Name.shape name with
  | .absolute rest => rest
  | .single =>
    if Name.isNamespaceWord name then i.active.getD ""
    else (i.lookup k name).getD (i.inActive name)
  | .qualified first rest =>
    if Name.isNamespaceWord first then i.inActive rest
    else
      match i.lookup .classLike first with
      | some target => Name.join target rest
      | none => i.inActive name

end Imports

end TokenAtlas

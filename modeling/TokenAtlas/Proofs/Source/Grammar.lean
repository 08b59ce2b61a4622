import TokenAtlas.Proofs.Feature.Signature
import TokenAtlas.Proofs.Symbol.Replay
import TokenAtlas.Proofs.Token.Consecutive

/-! The source files whose names are followed: namespace statements and blocks, import
statements outside every block or directly in that of a namespace, and any other code with
matched brackets. Every token is marked with the statement that it completes. The grammar
says nothing of levels, builders or candidates. -/

namespace TokenAtlas

/-- A token with the statement that it completes, if there is one. -/
abbrev Marked := Token × Option Statement

/-- Tokens that complete no statement. -/
def unmarked (ts : List Token) : List Marked := ts.map (·, none)

/-- The tokens that are no trivia. -/
def significant (ts : List Token) : List Token := ts.filter (!·.isTrivia)

/-- Tokens of kinds that `part` admits, with matched brackets. -/
inductive Nested (part : Kind → Bool) : List Token → Prop
  | nil : Nested part []
  | token {t : Token} {rest : List Token} (hpart : part t.kind = true)
      (hplain : t.kind.bracket = none) (hrest : Nested part rest) : Nested part (t :: rest)
  | group {family : Family} {o c : Token} {inner rest : List Token} (hopart : part o.kind = true)
      (hcpart : part c.kind = true) (ho : o.kind.bracket = some (family, .opening))
      (hc : c.kind.bracket = some (family, .closing)) (hinner : Nested part inner)
      (hrest : Nested part rest) : Nested part (o :: (inner ++ c :: rest))

/-- A signature up to the token that ends it or opens its body. Among the words that open a
feature only the one that begins a closure's use clause stands in it. -/
inductive Signature.Head : List Token → Prop
  | mk {word o c : Token} {header list behind : List Token}
      (hword : Feature.ofOpener word.kind = some .functionSignature)
      (hheader : ∀ t ∈ header, t.kind.isHeaderPart = true) (ho : o.kind = .openParen)
      (hlist : Nested Kind.isListPart list) (hc : c.kind = .closeParen)
      (hbehind : Nested Kind.isBehindPart behind) :
      Head (word :: (header ++ o :: (list ++ c :: behind)))

/-- Code without namespace and import statements, in which up to `room` features are open
inside each other. In a block of its own, `inBlock`, it may use traits. -/
inductive Code : Nat → Bool → List Token → Prop
  | nil {room : Nat} {inBlock : Bool} : Code room inBlock []
  | token {room : Nat} {inBlock : Bool} {t : Token} {rest : List Token}
      (hplain : t.kind.bracket = none) (hopener : Feature.ofOpener t.kind = none)
      (hrest : Code room inBlock rest) : Code room inBlock (t :: rest)
  | group {room : Nat} {inBlock : Bool} {family : Family} {o c : Token}
      {inner rest : List Token} (ho : o.kind.bracket = some (family, .opening))
      (hc : c.kind.bracket = some (family, .closing))
      (hinner : Code room (inBlock || family = .curly) inner) (hrest : Code room inBlock rest) :
      Code room inBlock (o :: (inner ++ c :: rest))
  | traitUse {room : Nat} {word : Token} {rest : List Token} (hword : word.kind = .useWord)
      (hrest : Code room true rest) : Code room true (word :: rest)
  | relativeName {room : Nat} {inBlock : Bool} {word separator : Token}
      {blanks rest : List Token} (hword : word.kind = .namespaceWord)
      (hblanks : ∀ t ∈ blanks, t.isTrivia = true) (hseparator : separator.kind = .separator)
      (hrest : Code room inBlock rest) :
      Code room inBlock (word :: (blanks ++ separator :: rest))
  | signature {room : Nat} {inBlock : Bool} {head : List Token} {stop : Token}
      {rest : List Token} (hhead : Signature.Head head)
      (hstop : stop.kind = .semicolon ∨ stop.kind = .doubleArrow)
      (hrest : Code (room + 1) inBlock rest) : Code (room + 1) inBlock (head ++ stop :: rest)
  | function {room : Nat} {inBlock : Bool} {head : List Token} {o c : Token}
      {body rest : List Token} (hhead : Signature.Head head) (ho : o.kind = .openCurly)
      (hbody : Code room true body) (hc : c.kind = .closeCurly)
      (hrest : Code (room + 1) inBlock rest) :
      Code (room + 1) inBlock (head ++ o :: (body ++ c :: rest))

/-! ### Statements -/

/-- The tokens that spell a name, trivia apart. No blank stands in a name. -/
structure Spells (name : String) (ts : List Token) : Prop where
  parts : ∀ t ∈ ts, t.kind.isName = true ∨ t.kind = .separator
  text : Token.joined ts = name
  nonempty : name ≠ ""
  solid : ∀ c ∈ name.toList, Text.isBlank c = false

/-- A word that says what kind of symbol is imported. -/
inductive KindWord : Option SymbolKind → List Token → Prop
  | none : KindWord none []
  | function {w : Token} (hw : w.kind = .functionWord) : KindWord (some .function) [w]
  | constant {w : Token} (hw : w.kind = .constWord) : KindWord (some .constant) [w]

/-- A short name of its own. -/
inductive ShortName : Option String → List Token → Prop
  | none : ShortName none []
  | known {w t : Token} (hw : w.kind = .asWord) (ht : t.kind = .identifier) :
      ShortName (some t.text) [w, t]

/-- An entry of an import statement. In a group the prefix stands before its name, and a
word before the name counts more than that of the statement. -/
inductive Entry (common : SymbolKind) : Option String → ImportEntry → List Token → Prop
  | single {name : String} {short : Option String} {spelled known : List Token}
      (hname : Spells name spelled) (hknown : ShortName short known) :
      Entry common none ⟨common, name, short⟩ (spelled ++ known)
  | grouped {front name : String} {own : Option SymbolKind} {short : Option String}
      {word spelled known : List Token} (hword : KindWord own word) (hname : Spells name spelled)
      (hknown : ShortName short known) :
      Entry common (some front) ⟨own.getD common, Name.join front name, short⟩
        (word ++ (spelled ++ known))

/-- Entries with commas between them, and perhaps behind them. -/
inductive Entries (common : SymbolKind) (front : Option String) :
    List ImportEntry → List Token → Prop
  | nil : Entries common front [] []
  | last {e : ImportEntry} {ts : List Token} (he : Entry common front e ts) :
      Entries common front [e] ts
  | more {e : ImportEntry} {es : List ImportEntry} {comma : Token} {ts rest : List Token}
      (he : Entry common front e ts) (hcomma : comma.kind = .comma)
      (hrest : Entries common front es rest) :
      Entries common front (e :: es) (ts ++ comma :: rest)

/-- What stands between the word and the semicolon of an import statement, trivia apart: a
list of names, or a prefix and a group of names. -/
inductive Imported : List ImportEntry → List Token → Prop
  | names {own : Option SymbolKind} {es : List ImportEntry} {word ts : List Token}
      (hword : KindWord own word) (hentries : Entries (own.getD .classLike) none es ts) :
      Imported es (word ++ ts)
  | group {own : Option SymbolKind} {front : String} {es : List ImportEntry}
      {separator o c : Token} {word spelled ts : List Token} (hword : KindWord own word)
      (hfront : Spells front spelled) (hcut : front.toList.getLast? ≠ some '\\')
      (hseparator : separator.kind = .separator) (hslash : separator.text = "\\")
      (ho : o.kind = .openCurly) (hentries : Entries (own.getD .classLike) (some front) es ts)
      (hc : c.kind = .closeCurly) :
      Imported es (word ++ (spelled ++ separator :: o :: (ts ++ [c])))

/-- An import statement, complete at its semicolon. -/
inductive ImportStatement : List Marked → Prop
  | mk {word stop : Token} {ts : List Token} {es : List ImportEntry}
      (hword : word.kind = .useWord) (himported : Imported es (significant ts))
      (hstop : stop.kind = .semicolon) :
      ImportStatement (unmarked (word :: ts) ++ [(stop, some (.imports es))])

/-- The beginning of a namespace statement, up to the end of the name. -/
inductive NamespaceHead (name : String) : List Token → Prop
  | mk {word first : Token} {ts more : List Token} (hword : word.kind = .namespaceWord)
      (hts : significant ts = first :: more) (hfirst : first.kind.isName = true)
      (hname : Spells name (first :: more)) : NamespaceHead name (word :: ts)

/-- What stands directly in the block of a namespace. -/
inductive NamespaceBody : List Marked → Prop
  | nil : NamespaceBody []
  | code {ts : List Token} {rest : List Marked} (hcode : Code (Limits.nesting - 1) false ts)
      (hrest : NamespaceBody rest) : NamespaceBody (unmarked ts ++ rest)
  | imports {ms rest : List Marked} (hstatement : ImportStatement ms) (hrest : NamespaceBody rest) :
      NamespaceBody (ms ++ rest)

/-- A source file with the statements that its tokens complete. -/
inductive SourceFile : List Marked → Prop
  | nil : SourceFile []
  | code {ts : List Token} {rest : List Marked} (hcode : Code Limits.nesting false ts)
      (hrest : SourceFile rest) : SourceFile (unmarked ts ++ rest)
  | imports {ms rest : List Marked} (hstatement : ImportStatement ms)
      (hrest : SourceFile rest) : SourceFile (ms ++ rest)
  | namespaceStatement {name : String} {head : List Token} {stop : Token} {rest : List Marked}
      (hhead : NamespaceHead name head) (hstop : stop.kind = .semicolon)
      (hrest : SourceFile rest) :
      SourceFile (unmarked head ++ (stop, some (.entersNamespace name)) :: rest)
  | namespaceBlock {name : String} {head : List Token} {o c : Token} {body rest : List Marked}
      (hhead : NamespaceHead name head) (ho : o.kind = .openCurly) (hbody : NamespaceBody body)
      (hc : c.kind = .closeCurly) (hrest : SourceFile rest) :
      SourceFile
        (unmarked head ++ (o, some (.entersNamespace name)) :: (body ++ (c, none) :: rest))

@[simp] theorem unmarked_nil : unmarked [] = [] := rfl

@[simp] theorem unmarked_cons (t : Token) (ts : List Token) :
    unmarked (t :: ts) = (t, none) :: unmarked ts := rfl

@[simp] theorem unmarked_append (a b : List Token) :
    unmarked (a ++ b) = unmarked a ++ unmarked b := List.map_append

@[simp] theorem significant_nil : significant [] = [] := rfl

@[simp] theorem significant_cons_of_isTrivia {t : Token} (h : t.isTrivia = true)
    (ts : List Token) : significant (t :: ts) = significant ts := by
  simp [significant, h]

@[simp] theorem significant_cons_of_not_isTrivia {t : Token} (h : t.isTrivia = false)
    (ts : List Token) : significant (t :: ts) = t :: significant ts := by
  simp [significant, h]

end TokenAtlas

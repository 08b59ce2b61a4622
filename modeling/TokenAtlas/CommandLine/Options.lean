import TokenAtlas.Preferences

/-! Options on the command line. They are taken from left to right and change the
preferences from the environment. -/

namespace TokenAtlas.CommandLine

/-- What the options can change. -/
structure Options where
  stream : StreamPreferences
  pretty : Bool
deriving Repr, DecidableEq

/-- An option without a value. -/
inductive Flag
  | byLine | trim | rawGranularity | keepCommentWhitespace | compact
deriving Repr, DecidableEq

namespace Flag

def text : Flag → String
  | .byLine => "--by-line"
  | .trim => "--trim"
  | .rawGranularity => "--raw-granularity"
  | .keepCommentWhitespace => "--keep-comment-whitespace"
  | .compact => "--compact"

def all : List Flag := [.byLine, .trim, .rawGranularity, .keepCommentWhitespace, .compact]

def ofText? (s : String) : Option Flag := all.find? (·.text = s)

theorem ofText?_text (f : Flag) : ofText? f.text = some f := by cases f <;> decide

/-- Each flag moves one setting, always to the same value. -/
def apply (o : Options) : Flag → Options
  | .byLine => { o with stream := { o.stream with byLine := true } }
  | .trim => { o with stream := { o.stream with trims := true } }
  | .rawGranularity => { o with stream := { o.stream with refine := false } }
  | .keepCommentWhitespace => { o with stream := { o.stream with apart := false } }
  | .compact => { o with pretty := false }

end Flag

inductive OptionError
  | missingMode
  | unknownMode (text : String)
  | unknownOption (text : String)
deriving Repr, DecidableEq

def OptionError.message : OptionError → String
  | .missingMode => "--mode requires a value"
  | .unknownMode text => s!"unknown output mode '{text}'"
  | .unknownOption text => s!"unknown option '{text}'"

/-- The option that takes a value, the output mode. -/
def modeOption : String := "--mode"

namespace Options

/-- What holds without any option. -/
def ofPreferences (p : Preferences) : Options := ⟨p.stream, true⟩

/-- The preferences `p` with what the options say. -/
def preferences (o : Options) (p : Preferences) : Preferences := { p with stream := o.stream }

def setMode (o : Options) (m : OutputMode) : Options :=
  { o with stream := { o.stream with mode := m } }

/-- Apply options from left to right. -/
def parse (o : Options) : List String → Except OptionError Options
  | [] => .ok o
  | arg :: rest =>
    if arg = modeOption then
      match rest with
      | [] => .error .missingMode
      | value :: rest =>
        match OutputMode.ofText? value with
        | some m => parse (o.setMode m) rest
        | none => .error (.unknownMode value)
    else
      match Flag.ofText? arg with
      | some f => parse (f.apply o) rest
      | none => .error (.unknownOption arg)

end Options

end TokenAtlas.CommandLine

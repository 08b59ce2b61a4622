import TokenAtlas.Log.Event
import TokenAtlas.Text.Blank
import TokenAtlas.Text.Lowercase

/-! Preferences and the environment variables that set them. A variable that is not set
or cannot be read leaves the default. Blanks around a value do not count. -/

namespace TokenAtlas

/-- The shapes in which tokens are handed on: with category and tags, bare, or as texts
with the classes of a style sheet. -/
inductive OutputMode
  | enhanced | raw | fragments
deriving Repr, DecidableEq

namespace OutputMode

def name : OutputMode → String
  | .enhanced => "enhanced"
  | .raw => "raw"
  | .fragments => "fragments"

def all : List OutputMode := [.enhanced, .raw, .fragments]

/-- The mode that a text names, in whatever case. -/
def ofText? (s : String) : Option OutputMode :=
  match Text.lowerString s with
  | "enhanced" => some .enhanced
  | "raw" => some .raw
  | "fragments" | "fragment" => some .fragments
  | _ => none

end OutputMode

/-- The level that a text names, by word or by rank, in whatever case. -/
def Log.Level.ofText? (s : String) : Option Level :=
  match Text.lowerString s with
  | "error" | "0" => some .error
  | "warning" | "warn" | "1" => some .warning
  | "info" | "2" => some .info
  | "debug" | "3" => some .debug
  | _ => none

/-- How token dumps are read: whether only files with the extension `json` are, and
whether the time it takes is logged. -/
structure FilePreferences where
  requireJson : Bool
  timed : Bool
deriving Repr, DecidableEq

/-- How a stream is scanned and handed on. `refine` and `apart` are options of the
scan, `trims` drops blanks at the ends of lines, and `byLine` gathers the tokens of
each line. -/
structure StreamPreferences where
  refine : Bool
  apart : Bool
  trims : Bool
  byLine : Bool
  mode : OutputMode
  metrics : Bool
deriving Repr, DecidableEq

structure LogPreferences where
  structured : Bool
  console : Bool
  least : Log.Level
  addsFile : Bool
deriving Repr, DecidableEq

/-- The level of the filter. Events up to the information level always pass it. -/
def LogPreferences.effectiveLevel (p : LogPreferences) : Log.Level := p.least.wider .info

structure Preferences where
  files : FilePreferences
  stream : StreamPreferences
  log : LogPreferences
deriving Repr, DecidableEq

/-- The variables that are read. -/
inductive Variable
  | requireJson | timed
  | refine | apart | trims | byLine | mode | metrics
  | structured | console | least | addsFile
deriving Repr, DecidableEq

namespace Variable

/-- The name of a variable in the environment. -/
def name : Variable → String
  | .requireJson => "SRCVIEW_REQUIRE_JSON_EXTENSION"
  | .timed => "SRCVIEW_ENABLE_PERFORMANCE_LOGGING"
  | .refine => "SRCVIEW_TOKENIZER_ATOMIZE"
  | .apart => "SRCVIEW_TOKENIZER_PRESERVE_COMMENT_WHITESPACE"
  | .trims => "SRCVIEW_TOKENIZER_TRIM_TRAILING_WHITESPACE"
  | .byLine => "SRCVIEW_TOKENIZER_KEY_BY_LINE"
  | .mode => "SRCVIEW_TOKENIZER_OUTPUT_MODE"
  | .metrics => "SRCVIEW_TOKENIZER_COLLECT_METRICS"
  | .structured => "SRCVIEW_LOGGING_USE_STRUCTURED"
  | .console => "SRCVIEW_LOGGING_ENABLE_CONSOLE"
  | .least => "SRCVIEW_LOGGING_MIN_LEVEL"
  | .addsFile => "SRCVIEW_LOGGING_INCLUDE_FILE_CONTEXT"

def all : List Variable :=
  [.requireJson, .timed, .refine, .apart, .trims, .byLine, .mode, .metrics, .structured, .console,
   .least, .addsFile]

end Variable

/-- Names and values of variables. -/
abbrev Environment := List (String × String)

namespace Environment

/-- The value of a variable as far as `read` can read it, or else the default. -/
def get {α : Type} (env : Environment) (read : String → Option α) (v : Variable)
    (default : α) : α :=
  ((env.lookup v.name).bind fun value => read (Text.trimString value)).getD default

def truth? : String → Option Bool
  | "true" => some true
  | "false" => some false
  | _ => none

def flag (env : Environment) (v : Variable) (default : Bool) : Bool := env.get truth? v default

end Environment

namespace Preferences

def ofEnvironment (env : Environment) : Preferences where
  files :=
    { requireJson := env.flag .requireJson false
      timed := env.flag .timed true }
  stream :=
    { refine := env.flag .refine true
      apart := env.flag .apart true
      trims := env.flag .trims false
      byLine := env.flag .byLine false
      mode := env.get OutputMode.ofText? .mode .enhanced
      metrics := env.flag .metrics true }
  log :=
    { structured := env.flag .structured false
      console := env.flag .console false
      least := env.get Log.Level.ofText? .least .info
      addsFile := env.flag .addsFile true }

def standard : Preferences := ofEnvironment []

end Preferences

end TokenAtlas

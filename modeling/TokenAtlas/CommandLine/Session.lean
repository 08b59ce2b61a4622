import TokenAtlas.CommandLine.Options
import TokenAtlas.Json.Writer
import TokenAtlas.Log.Dispatch
import TokenAtlas.Log.Json
import TokenAtlas.Log.Wording
import TokenAtlas.Output.Json
import TokenAtlas.Pipeline

/-! What the program does with its arguments, as a list of steps. Documents go to the
standard output, and everything else to the error output. -/

namespace TokenAtlas.CommandLine

/-- What the arguments ask for. -/
inductive Request
  | usage
  | help
  | refused (e : OptionError)
  | process (path : String) (o : Options)
deriving Repr, DecidableEq

/-- The first argument asks for help or names a file, the others are options. -/
def Request.ofArguments (p : Preferences) : List String → Request
  | [] => .usage
  | "--help" :: _ => .help
  | path :: rest =>
    match (Options.ofPreferences p).parse rest with
    | .ok o => .process path o
    | .error e => .refused e

inductive Step
  | print (text : String)
  | report (text : String)
  | tell (n : Notice)
  | enterFile (path : String)
  | leaveFile
deriving Repr, DecidableEq

/-- The steps of a run and its exit code. -/
structure Session where
  steps : List Step
  exit : Nat
deriving Repr, DecidableEq

def startUp : List Step := [.tell .loggingReady, .tell .tokenLimitsReady, .tell .fileLimitsReady]

def usageLines (program : String) : List String :=
  [s!"Usage: {program} <tokens.json> [options]", s!"       {program} --help"]

def helpLines (program : String) : List String :=
  ["srcview v0.1.0",
   "Re-tokenizes a raw token dump and classifies every token",
   "",
   "USAGE:",
   s!"    {program} <tokens.json> [options]",
   "",
   "ARGUMENTS:",
   "    <tokens.json>    JSON array of raw tokens (\x7bkind, text, line, offset?\x7d)",
   "",
   "OPTIONS:",
   "    --help                      Show this help message",
   "    --by-line                   Key output by line number instead of index",
   "    --mode M                    Output shape: enhanced, raw, fragments",
   "    --trim                      Drop whitespace at the end of each line",
   "    --raw-granularity           Do not split composite tokens into atoms",
   "    --keep-comment-whitespace   Keep comment line indentation inside the text atom",
   "    --compact                   Print JSON on a single line",
   "",
   "ENVIRONMENT:",
   "    SRCVIEW_TOKENIZER_*         Defaults for the options above",
   "    SRCVIEW_LOGGING_*           Log format, console output and level"]

/-- What is reported about a failure besides its message. -/
def failureDetails (e : PipelineError) : List String :=
  let details := match e with
    | .file inner => [s!"Reading the token dump failed [{e.code}]:", s!"  {inner.message}"]
    | .scan inner => [s!"Scan halted [{e.code}]:", s!"  {inner.message}"]
    | .internal _ => [e.message]
  details ++ [s!"  Action: {e.code.entry.action}"]

/-- The steps of a scan that failed. -/
def failure (e : PipelineError) : List Step :=
  (s!"\nFAILED: {e.message}" :: failureDetails e).map .report

/-- The steps that present a scan. -/
def success (path : String) (o : Options) (r : ScanResult) (generated : Moment) : List Step :=
  let rendered := Pipeline.render r o.stream (some path) generated
  let json := rendered.value.toJson
  rendered.notices.map .tell ++
    [.print (if o.pretty then json.pretty else json.compact),
     .report s!"SUCCESS: {r.tokens.length} tokens, {r.products.length} features"]

/-- Read, scan and present one file. -/
def process (p : Preferences) (path : String) (o : Options) (found : Dump.Lookup)
    (contents : Unit → Except Dump.Failure ByteArray) (generated : Moment) : Session :=
  let chosen := o.preferences p
  let scanned := Pipeline.scanFile chosen.stream chosen.files path found contents
  let (ending, exit) := match scanned.value with
    | .ok f => (success path o f.result generated, 0)
    | .error e => (failure e, 1)
  ⟨startUp ++ .report s!"Processing file: {path}" :: .enterFile path ::
    scanned.notices.map .tell ++ .leaveFile :: ending, exit⟩

namespace Session

/-- The session of a request that needs no file. -/
def immediate (program : String) : Request → Session
  | .usage => ⟨startUp ++ (usageLines program).map .report, 1⟩
  | .help => ⟨startUp ++ (helpLines program).map .print, 0⟩
  | .refused e => ⟨startUp ++ [.report s!"Error: {e.message}"], 2⟩
  | .process .. => ⟨startUp, 0⟩

end Session

/-- What a step shows. -/
inductive Effect
  | print (text : String)
  | report (text : String)
  | log (e : Log.Event)

namespace Step

/-- Perform a step `nanos` nanoseconds after the start. Events show only if the log goes
to the console and they pass the filter. -/
def perform (p : LogPreferences) (nanos : Nat) (d : Log.Dispatcher) :
    Step → Option Effect × Log.Dispatcher
  | .print text => (some (.print text), d)
  | .report text => (some (.report text), d)
  | .enterFile path => (none, d.enter path 0)
  | .leaveFile => (none, d.leave)
  | .tell n =>
    let (passed, d) := d.dispatch (n.event nanos)
    (if p.console then passed.map .log else none, d)

end Step

/-- An event as a line of a structured log. -/
def structuredLine (now : Moment) (e : Log.Event) : String :=
  (Json.Value.object (e.fields ++ [("timestamp", .string now.toMillisText)])).compact

namespace Effect

/-- What goes to the standard output. -/
def outputLine? : Effect → Option String
  | .print text => some text
  | _ => none

/-- What goes to the error output. -/
def errorLine? (p : LogPreferences) (now : Moment) : Effect → Option String
  | .print _ => none
  | .report text => some text
  | .log e => some (if p.structured then structuredLine now e else e.toText)

end Effect

/-- The log as it is at the start. -/
def dispatcher (p : LogPreferences) : Log.Dispatcher :=
  .ofLevel p.effectiveLevel p.addsFile

/-- A text of lines, each with its line break. -/
def ofLines (lines : List String) : String :=
  lines.foldl (fun text line => text ++ line ++ "\n") ""

namespace Session

/-- All that a session shows, when no time passes. -/
def effects (p : LogPreferences) (s : Session) : List Effect :=
  let (shown, _) := s.steps.foldl (fun acc step =>
    let (effect, d) := step.perform p 0 acc.2
    (effect.toList ++ acc.1, d)) ([], dispatcher p)
  shown.reverse

def output (p : LogPreferences) (s : Session) : String :=
  ofLines ((s.effects p).filterMap Effect.outputLine?)

def errors (p : LogPreferences) (now : Moment) (s : Session) : String :=
  ofLines ((s.effects p).filterMap (Effect.errorLine? p now))

end Session

end TokenAtlas.CommandLine

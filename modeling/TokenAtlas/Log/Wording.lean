import TokenAtlas.Log.Event
import TokenAtlas.Measure.Figures
import TokenAtlas.Notice

/-! The events that notices are logged as. -/

namespace TokenAtlas

/-- The name of the active namespace for readers. -/
def namespaceText (active : Option String) : String := active.getD "(global)"

namespace Log

/-- Where the limits were set. -/
def configurationSource : String := "Generated from config/development.toml"

/-- An event about work that took some time. -/
def timedEvent (code : Code) (message : String) (nanos places : Nat) : Event :=
  (Event.success code message).put "duration_ms" ((Measure.milliseconds nanos).toFixed places)

/-- The counts of a scan that are logged. -/
def metricEntries (m : ScanMetrics) : List (String × String) :=
  [("raw_tokens", toString m.rawTokens), ("atoms_produced", toString m.atomsProduced),
   ("builders_opened", toString m.buildersOpened),
   ("builders_finished", toString m.buildersFinished),
   ("candidates_discarded", toString m.candidatesDiscarded),
   ("classifier_cache_hits", toString m.cacheHits)]

/-- What is logged about a dump that was read. -/
def readEvent (path : String) (size tokens : Nat) (timed : Bool) (nanos : Nat) : Event :=
  let entries := [("file", path), ("tokens", toString tokens)]
  if timed then
    (timedEvent .fileProcessed "Token dump read" nanos 3).putAll
      (entries ++ [("size", Measure.sizeText size), ("is_large_file", toString (isLargeSize size)),
        ("tokens_per_ms", (Measure.rate tokens nanos).toFixed 2)])
  else (Event.success .fileProcessed "Token dump read").putAll entries

end Log

open Log (Event metricEntries readEvent timedEvent)

/-- The event that a notice is logged as, when the work it tells of took `nanos`
nanoseconds. -/
def Notice.event (nanos : Nat) : Notice → Event
  | .loggingReady =>
    (Event.success .systemReady "Global logging system initialized").put "build_config"
      Log.configurationSource
  | .tokenLimitsReady =>
    (Event.debug "Lexical limits initialized").put "max_token_length" (toString Limits.tokenLength)
  | .fileLimitsReady =>
    (Event.debug "File processor compile-time configuration loaded").putAll
      [("max_file_size", toString Limits.fileSize),
       ("large_file_threshold", toString Limits.largeFileSize),
       ("max_token_count", toString Limits.tokenCount)]
  | .pipelineStarted path refine mode =>
    (Event.info "Starting token stream pipeline").putAll
      [("file", path), ("atomize", toString refine), ("output_mode", mode.name)]
  | .fileStarted path => (Event.debug "Starting file processing").put "file" path
  | .fileAccepted size =>
    (Event.debug "Token dump accepted").putAll
      [("size", Measure.sizeText size), ("is_large_file", toString (isLargeSize size))]
  | .fileRejected path error =>
    (Event.error error.code "Token dump rejected").putAll
      [("file", path), ("reason", error.message)]
  | .fileRead path size tokens timed => readEvent path size tokens timed nanos
  | .importReplaced name previous =>
    (Event.debug "Import replaced earlier import").putAll
      [("name", name), ("previous", previous)]
  | .importIgnored name kind =>
    (Event.warningWith .importLimit "Import ignored, import table is full").putAll
      [("name", name), ("kind", kind.name)]
  | .candidateDropped opener line buffered =>
    (Event.warningWith .candidateOverflow "Candidate buffer discarded before verification").putAll
      [("opener", opener), ("line", toString line), ("buffered", toString buffered)]
  | .builderRefused feature depth =>
    (Event.warningWith .nestingExceeded "Builder not opened, stack is full").putAll
      [("builder", feature.name), ("depth", toString depth)]
  | .builderOpened feature line depth =>
    (Event.debug "Builder opened").putAll
      [("builder", feature.name), ("line", toString line), ("depth", toString depth)]
  | .builderFinished feature depth =>
    (Event.debug "Builder finished").putAll
      [("builder", feature.name), ("depth", toString depth)]
  | .namespaceEntered name =>
    (Event.success .namespaceEntered "Namespace entered").put "namespace" (namespaceText name)
  | .featureRecognized feature =>
    (Event.debug "Feature recognized").put "feature" feature.name
  | .scanHalted error yielded =>
    (Event.error error.code "Scan halted").putAll
      [("error", error.message), ("tokens_yielded", toString yielded)]
  | .scanUnbalanced levels =>
    (Event.info "Scan ended with unbalanced brackets").putAll
      [("parens", toString levels.parens), ("curly", toString levels.curly),
       ("square", toString levels.square)]
  | .scanUnfinished innermost depth =>
    (Event.debug "Scan ended with unfinished builders").putAll
      [("innermost", innermost.name), ("depth", toString depth)]
  | .scanComplete tokens features =>
    (Event.success .scanComplete "Scan complete").putAll
      [("tokens", toString tokens), ("features", toString features)]
  | .scanMeasured metrics =>
    (timedEvent .scanComplete "Scan metrics" nanos 3).putAll (metricEntries metrics)
  | .streamClassified path tokens features active =>
    (timedEvent .fileProcessed "Token stream classified" nanos 2).putAll
      [("file", path), ("tokens", toString tokens), ("features", toString features),
       ("namespace", namespaceText active)]
  | .outputGenerated mode entries =>
    (Event.success .outputGenerated "Output generated").putAll
      [("mode", mode.name), ("entries", toString entries)]

end TokenAtlas

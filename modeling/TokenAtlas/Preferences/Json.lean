import TokenAtlas.Json.Decode
import TokenAtlas.Preferences

/-! Preferences as JSON values. -/

namespace TokenAtlas

open Json (Value)

def OutputMode.ofJson? : Value → Option OutputMode :=
  Value.choice? (OutputMode.all.map fun m => (m.name, m))

def Log.Level.ofJson? : Value → Option Log.Level :=
  Value.choice? (Log.Level.all.map fun l => (l.word, l))

namespace FilePreferences

def toJson (p : FilePreferences) : Value :=
  .object [("require_json_extension", .bool p.requireJson),
    ("enable_performance_logging", .bool p.timed)]

def ofJson? (v : Value) : Option FilePreferences := do
  match ← v.parts? ["require_json_extension", "enable_performance_logging"] with
  | [requireJson, timed] =>
    return ⟨← Value.required Value.bool? requireJson, ← Value.required Value.bool? timed⟩
  | _ => none

end FilePreferences

namespace StreamPreferences

def toJson (p : StreamPreferences) : Value :=
  .object [("atomize", .bool p.refine), ("preserve_comment_whitespace", .bool p.apart),
    ("trim_trailing_whitespace", .bool p.trims), ("key_by_line", .bool p.byLine),
    ("output_mode", .string p.mode.name), ("collect_metrics", .bool p.metrics)]

def ofJson? (v : Value) : Option StreamPreferences := do
  match ← v.parts? ["atomize", "preserve_comment_whitespace", "trim_trailing_whitespace",
      "key_by_line", "output_mode", "collect_metrics"] with
  | [refine, apart, trims, byLine, mode, metrics] =>
    return ⟨← Value.required Value.bool? refine, ← Value.required Value.bool? apart,
      ← Value.required Value.bool? trims, ← Value.required Value.bool? byLine,
      ← Value.required OutputMode.ofJson? mode, ← Value.required Value.bool? metrics⟩
  | _ => none

end StreamPreferences

namespace LogPreferences

def toJson (p : LogPreferences) : Value :=
  .object [("use_structured_logging", .bool p.structured),
    ("enable_console_logging", .bool p.console), ("min_log_level", .string p.least.word),
    ("include_file_context", .bool p.addsFile)]

def ofJson? (v : Value) : Option LogPreferences := do
  match ← v.parts? ["use_structured_logging", "enable_console_logging", "min_log_level",
      "include_file_context"] with
  | [structured, console, least, addsFile] =>
    return ⟨← Value.required Value.bool? structured, ← Value.required Value.bool? console,
      ← Value.required Log.Level.ofJson? least, ← Value.required Value.bool? addsFile⟩
  | _ => none

end LogPreferences

namespace Preferences

def toJson (p : Preferences) : Value :=
  .object [("file_processor", p.files.toJson), ("tokenizer", p.stream.toJson),
    ("logging", p.log.toJson)]

def ofJson? (v : Value) : Option Preferences := do
  match ← v.parts? ["file_processor", "tokenizer", "logging"] with
  | [files, stream, log] =>
    return ⟨← Value.required FilePreferences.ofJson? files,
      ← Value.required StreamPreferences.ofJson? stream,
      ← Value.required LogPreferences.ofJson? log⟩
  | _ => none

end Preferences

end TokenAtlas

import TokenAtlas.Dump.File
import TokenAtlas.Output.Document

/-! The whole way from a dump to a document: a file is read, its tokens are scanned, and
the result is shaped for presentation. -/

namespace TokenAtlas

inductive PipelineError
  | file (e : Dump.FileError)
  | scan (e : ScanError)
  | internal (message : String)
deriving Repr, DecidableEq

namespace PipelineError

def message : PipelineError → String
  | .file e => s!"File processing failed: {e.message}"
  | .scan e => s!"Scan failed: {e.message}"
  | .internal text => s!"Pipeline error: {text}"

def code : PipelineError → Log.Code
  | .file e => e.code
  | .scan e => e.code
  | .internal _ => .internalError

end PipelineError

namespace Pipeline

/-- Scan tokens that are at hand. -/
def scan (p : StreamPreferences) (ts : List Token) : Told (Except ScanError ScanResult) :=
  let a := (Scanner.ofTokens ⟨p.refine, p.apart⟩ ts).scanAll
  match a.value with
  | (_, some e) => ⟨.error e, a.notices⟩
  | (tokens, none) =>
    let metrics := a.scanner.metrics
    ⟨.ok ⟨tokens, a.scanner.products, a.scanner.imports, metrics⟩,
      a.notices ++ if p.metrics then [.scanMeasured metrics] else []⟩

/-- A scan of a dump that was read from a file. -/
structure FileScan where
  result : ScanResult
  metadata : Dump.Metadata

/-- Scan a dump that was read. -/
def scanDump (p : StreamPreferences) (requested : String) (d : Dump.DumpFile) :
    Told (Except PipelineError FileScan) :=
  match scan p d.tokens with
  | ⟨.error e, notices⟩ => ⟨.error (.scan e), notices⟩
  | ⟨.ok r, notices⟩ =>
    ⟨.ok ⟨r, d.metadata⟩,
      notices ++ [.streamClassified requested r.tokens.length r.products.length r.active]⟩

/-- Read and scan the dump at a requested path. -/
def scanFile (p : StreamPreferences) (files : FilePreferences) (requested : String)
    (found : Dump.Lookup) (contents : Unit → Except Dump.Failure ByteArray) :
    Told (Except PipelineError FileScan) :=
  let opening := Notice.pipelineStarted requested p.refine p.mode
  match Dump.ofFile files requested found contents with
  | ⟨.error e, notices⟩ => ⟨.error (.file e), opening :: notices⟩
  | ⟨.ok d, notices⟩ =>
    let scanned := scanDump p requested d
    { scanned with notices := opening :: (notices ++ scanned.notices) }

/-- Shape a result for presentation. -/
def render (r : ScanResult) (p : StreamPreferences) (source : Option String)
    (generated : Moment) : Told Document :=
  let d := Document.ofResult r p source generated
  ⟨d, [.outputGenerated d.mode d.listing.size]⟩

end Pipeline

end TokenAtlas

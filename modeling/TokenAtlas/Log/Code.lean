/-! Codes of errors and of successes. The registry says of each code how severe it is,
whether work can go on after it, and what a user is advised to do. -/

namespace TokenAtlas.Log

abbrev Code := String

namespace Code

def internalError : Code := "ERR001"
def initializationFailure : Code := "ERR002"

def fileNotFound : Code := "E005"
def invalidExtension : Code := "E006"
def fileTooLarge : Code := "E007"
def emptyFile : Code := "E008"
def permissionDenied : Code := "E009"
def invalidEncoding : Code := "E010"
def readFailure : Code := "E011"
def invalidPath : Code := "E012"
def malformedDump : Code := "E013"
def tooManyTokens : Code := "E014"

def badSplit : Code := "E020"
def tokenTooLong : Code := "E021"

def scanHalted : Code := "E030"
def nestingExceeded : Code := "E031"
def candidateOverflow : Code := "E032"
def importLimit : Code := "E033"

def operationCompleted : Code := "I001"
def systemReady : Code := "I004"
def fileProcessed : Code := "I006"
def scanComplete : Code := "I020"
def featureRecognized : Code := "I021"
def namespaceEntered : Code := "I022"
def outputGenerated : Code := "I040"

/-- The codes of events that carry none of their own. -/
def genericWarning : Code := "W000"
def genericInfo : Code := "I000"
def genericDebug : Code := "D000"

end Code

inductive Severity
  | critical | high | medium | low
deriving Repr, DecidableEq

def Severity.name : Severity → String
  | .critical => "Critical"
  | .high => "High"
  | .medium => "Medium"
  | .low => "Low"

/-- What is known about a code. -/
structure CodeEntry where
  code : Code
  category : String
  severity : Severity
  recoverable : Bool
  requiresHalt : Bool
  description : String
  action : String
deriving Repr, DecidableEq

namespace CodeEntry

/-- An entry for an error that stops the work. -/
def halting (code : Code) (category : String) (severity : Severity)
    (description action : String) : CodeEntry :=
  ⟨code, category, severity, false, true, description, action⟩

/-- An entry for an error after which the work goes on. -/
def lenient (code : Code) (category description action : String) : CodeEntry :=
  ⟨code, category, .low, true, false, description, action⟩

/-- An entry for a success. -/
def success (code : Code) (description action : String) : CodeEntry :=
  lenient code "Success" description action

/-- An entry for a file that is refused. -/
def refusedFile (code : Code) (description action : String) : CodeEntry :=
  halting code "FileProcessing" .medium description action

def registry : List CodeEntry :=
  [halting .internalError "System" .critical "Critical internal system error"
    "File a bug report with the failing input",
   halting .initializationFailure "System" .critical "System initialization failure"
    "Check configuration and environment variables",
   refusedFile .fileNotFound "File not found at specified path"
    "Check file path and ensure file exists",
   lenient .invalidExtension "FileProcessing" "File does not have .json extension"
    "Rename the token dump or disable the extension requirement",
   refusedFile .fileTooLarge "File exceeds maximum size limit"
    "Split the source unit or raise max_file_size",
   refusedFile .emptyFile "File is empty when content expected" "Provide a non-empty token dump",
   refusedFile .permissionDenied "Permission denied accessing file"
    "Check file permissions and user access rights",
   refusedFile .invalidEncoding "File content is not valid UTF-8"
    "Re-export the token dump as UTF-8",
   refusedFile .readFailure "I/O error while reading file" "Retry or check the underlying storage",
   refusedFile .invalidPath "Path does not point to a regular file"
    "Pass a file path, not a directory",
   refusedFile .malformedDump "Token dump is not a valid token array"
    "Regenerate the dump with the primitive lexer",
   refusedFile .tooManyTokens "Token dump exceeds maximum token count"
    "Split the source unit or raise max_token_count",
   halting .badSplit "Lexical" .critical "Split function invoked on a token it does not accept"
    "Fix the caller; this is a programming error",
   halting .tokenTooLong "Lexical" .medium "Token text exceeds maximum token length"
    "Raise max_token_length or inspect the input",
   halting .scanHalted "Scanner" .high "Scan halted after an unrecoverable error"
    "Inspect the preceding error event",
   lenient .nestingExceeded "Scanner" "Feature builder stack depth limit reached"
    "Raise max_builder_depth if the input is legitimate",
   lenient .candidateOverflow "Scanner" "Candidate buffer discarded without a verdict"
    "Raise max_candidate_tokens if the input is legitimate",
   lenient .importLimit "Scanner" "Import declaration entry limit reached"
    "Raise max_import_entries if the input is legitimate",
   halting "E040" "Output" .medium "Failed to serialize scan output"
    "Check output mode and input content",
   success .operationCompleted "Operation completed successfully" "No action required",
   success .systemReady "System initialization completed" "No action required",
   success .fileProcessed "Token dump loaded successfully" "Continue with scanning",
   success .scanComplete "Scan of source unit completed" "No action required",
   success .featureRecognized "Language feature recognized" "No action required",
   success .namespaceEntered "Namespace became active" "No action required",
   success .outputGenerated "Scan output generated" "No action required"]

def find? (code : Code) : Option CodeEntry := registry.find? (·.code = code)

end CodeEntry

namespace Code

/-- What is known about a code, with the defaults for one that is not registered. -/
def entry (c : Code) : CodeEntry :=
  (CodeEntry.find? c).getD
    ⟨c, "Unknown", .medium, true, false, "Unknown error", "No specific action available"⟩

end Code

end TokenAtlas.Log

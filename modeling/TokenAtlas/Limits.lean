/-! The limits under which token streams are read, scanned and logged. -/

namespace TokenAtlas.Limits

/-- Largest token dump in bytes. -/
def fileSize : Nat := 20000000

/-- A dump of more bytes than this counts as large. -/
def largeFileSize : Nat := 1000000

/-- Most tokens in a dump, and most tokens out of a scan. -/
def tokenCount : Nat := 2000000

/-- Longest token text in bytes. -/
def tokenLength : Nat := 1000000

/-- How many tokens a look ahead or a look behind may pass. -/
def lookahead : Nat := 64

/-- Most features open inside each other. -/
def nesting : Nat := 64

/-- Most tokens of a feature that is not yet recognized. -/
def candidateTokens : Nat := 32

/-- Most imports in force at a time. -/
def imports : Nat := 1024

/-- Most events kept in memory. -/
def keptEvents : Nat := 10000

/-- Longest message of an event in bytes. -/
def messageLength : Nat := 2048

/-- Most events about one file, errors apart. -/
def eventsPerFile : Nat := 5000

end TokenAtlas.Limits

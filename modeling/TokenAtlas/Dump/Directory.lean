import TokenAtlas.Dump.File

/-! A directory in memory that holds at most one entry. Paths are looked up in it as a
file system would: a part of a path is taken after the other, and nothing lies behind a
file. -/

namespace TokenAtlas.Dump

/-- A directory or a file. A file of zero bytes only is given by its size. -/
inductive Entry
  | directory
  | file (bytes : ByteArray)
  | zeros (size : Nat)

/-- The name and the contents of the entry, if there is one. -/
abbrev Directory := Option (String × Entry)

namespace Directory

/-- Where a path has led so far: to the file, to the directory, into the entry of the
directory, or out of it. -/
inductive Place
  | file | here | inside | outside
deriving Repr, DecidableEq

def notDirectory : Failure := .other "Not a directory (os error 20)"

def nameTooLong : Failure := .other "File name too long (os error 36)"

/-- What comes of a name that is not there. Names have at most 255 bytes. -/
def absent (name : String) : Failure :=
  if 255 < name.utf8ByteSize then nameTooLong else .missing

/-- Take one part of a path. -/
def follow (d : Directory) : Place → String → Except Failure Place
  | .file, _ => .error notDirectory
  | p, "" | p, "." => .ok p
  | .here, ".." | .outside, ".." => .ok .outside
  | .inside, ".." => .ok .here
  | .here, part =>
    match d with
    | some (name, e) =>
      if name ≠ part then .error (absent part)
      else
        match e with
        | .directory => .ok .inside
        | .file _ | .zeros _ => .ok .file
    | none => .error (absent part)
  | _, part => .error (absent part)

def size : Directory → Nat
  | some (_, .file b) => b.size
  | some (_, .zeros n) => n
  | _ => 0

def bytes : Directory → ByteArray
  | some (_, .file b) => b
  | some (_, .zeros n) => ⟨Array.replicate n 0⟩
  | _ => .empty

/-- What stands at a path. The absolute path of the file is given by its name. -/
def lookup (d : Directory) (path : String) : Lookup :=
  if path.toList.contains '\x00' then
    .failed (.other "file name contained an unexpected NUL byte")
  else
    match (path.splitOn "/").foldlM d.follow (if path.startsWith "/" then .outside else .here) with
    | .error why => .failed why
    | .ok .file => .file ((d.map (·.1)).getD "") d.size
    | .ok _ => .notFile

/-- The contents of the file. -/
def contents (d : Directory) (_ : Unit) : Except Failure ByteArray := .ok d.bytes

end Directory

end TokenAtlas.Dump

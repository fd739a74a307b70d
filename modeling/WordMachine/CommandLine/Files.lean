namespace WordMachine.CommandLine

-- An error of the system with a file.
inductive FileError where
  | notFound
  | notDirectory
  | isDirectory
  | nameTooLong
  | other (text : String)
  deriving DecidableEq, Repr

def FileError.message : FileError → String
  | notFound => "No such file or directory (os error 2)"
  | notDirectory => "Not a directory (os error 20)"
  | isDirectory => "Is a directory (os error 21)"
  | nameTooLong => "File name too long (os error 36)"
  | other text => text

-- Why a file has no contents: it could not be opened, or it was opened and could not be read.
inductive ReadError where
  | notOpened (error : FileError)
  | notRead (error : FileError)
  deriving DecidableEq, Repr

def ReadError.cause : ReadError → FileError
  | notOpened error | notRead error => error

-- What a path leads to.
abbrev Reader := String → Except ReadError (List UInt8)

-- The files of a working directory, by their paths.
structure Directory where
  files : List (String × List UInt8)

namespace Directory

private def parts (path : List Char) : List (List Char) :=
  (path.splitBy fun c d => c ≠ '/' && d ≠ '/').filter (· ≠ ['/'])

-- A place in the directory: a file, a directory, or nothing.
private def contents? (directory : Directory) (place : List (List Char)) :
    Except FileError (List UInt8) :=
  match directory.files.find? fun file => parts file.1.toList = place with
  | some file => .ok file.2
  | none =>
    if place.isEmpty || directory.files.any fun file => place.isPrefixOf (parts file.1.toList) then
      .error .isDirectory
    else .error .notFound

private def isDots (part : List Char) : Bool :=
  part = ['.'] || part = ['.', '.']

-- A part of a path has 255 bytes at most.
private def isTooLong (part : List Char) : Bool :=
  255 < (String.ofList part).utf8ByteSize

-- Follows a path from a directory of which nothing is known but that there are others above it.
private def followElsewhere (path : List (List Char)) : FileError :=
  match path.dropWhile isDots with
  | [] => .isDirectory
  | part :: _ => if isTooLong part then .nameTooLong else .notFound

-- Follows the parts of a path, each of them from within a directory. The root is above itself,
-- and of what is above another directory nothing is known.
private def follow (directory : Directory) (isRoot : Bool) (place : List (List Char)) :
    List (List Char) → Except FileError (List UInt8)
  | [] => directory.contents? place
  | part :: path =>
    match directory.contents? place with
    | .ok _ => .error .notDirectory
    | .error .isDirectory =>
      if part = ['.'] then directory.follow isRoot place path
      else if part = ['.', '.'] then
        if place.isEmpty && !isRoot then .error (followElsewhere path)
        else directory.follow isRoot place.dropLast path
      else if isTooLong part then .error .nameTooLong
      else directory.follow isRoot (place ++ [part]) path
    | .error error => .error error

-- What is known of the root directory: the one file that is always empty.
private def root : Directory := ⟨[("dev/null", [])]⟩

-- A path has fewer than 4096 bytes. A slash at its end asks for a directory.
private def lookUp (directory : Directory) (path : String) : Except FileError (List UInt8) :=
  if 4096 ≤ path.utf8ByteSize then .error .nameTooLong
  else
    let path := path.toList
    let path := if path.getLast? = some '/' then path ++ ['.'] else path
    match path with
    | [] => .error .notFound
    | '/' :: _ => root.follow true [] (parts path)
    | path => directory.follow false [] (parts path)

-- A directory can be opened, but not read.
def read (directory : Directory) : Reader := fun path =>
  match directory.lookUp path with
  | .ok bytes => .ok bytes
  | .error .isDirectory => .error (.notRead .isDirectory)
  | .error error => .error (.notOpened error)

end Directory

end WordMachine.CommandLine

/-
  Stylebook.Disk

  What the program asks of the file system: the text of a file, and whether a
  path leads to a directory. A file that does not exist is an outcome of its own,
  not a fault.
-/

namespace Stylebook

/-- Why the text of a file cannot be had. -/
inductive ReadFault where
  | notADirectory
  | isADirectory
  | invalidText
  | nameTooLong
  | nulInName
  /-- Any other fault, in the words of the system. -/
  | system (message : String)
deriving DecidableEq, Repr

/-- The wording of a fault. -/
def ReadFault.message : ReadFault → String
  | .notADirectory => "Not a directory (os error 20)"
  | .isADirectory => "Is a directory (os error 21)"
  | .invalidText => "stream did not contain valid UTF-8"
  | .nameTooLong => "File name too long (os error 36)"
  | .nulInName => "file name contained an unexpected NUL byte"
  | .system message => message

/-- What reading a file comes to. -/
inductive ReadOutcome where
  | missing
  | failed (fault : ReadFault)
  | text (content : String)
deriving DecidableEq, Repr

/-- What the bytes of a file come to as text. -/
def ReadOutcome.ofBytes (bytes : ByteArray) : ReadOutcome :=
  match String.fromUTF8? bytes with
  | some content => .text content
  | none => .failed .invalidText

/-- A file system, as far as the program looks at it. -/
structure Disk where
  read : String → ReadOutcome
  isDirectory : String → Bool

/-- The path of a file in a directory. The empty directory is the current one, and
    a slash at the end of a directory is not doubled. -/
def joinPath (directory file : String) : String :=
  if directory.toList = [] then file
  else if directory.toList.getLast? = some '/' then directory ++ file
  else directory ++ "/" ++ file

end Stylebook

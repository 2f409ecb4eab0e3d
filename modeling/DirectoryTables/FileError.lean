/-!
# File errors

Why a file cannot be read or written, in the words of the operating system.
-/

namespace DirectoryTables

/-- Why a file cannot be read or written. -/
inductive FileError where
  | notFound
  | notDirectory
  | isDirectory
  /-- The path, or a name in it, is longer than the system allows. -/
  | nameTooLong
  /-- The path holds the character that ends texts in the system. -/
  | nulInPath
  /-- Nothing more can be written. -/
  | noSpace
  /-- What is there is not kept, so it cannot be made sure of either. -/
  | notKept
  /-- The bytes of the file are no UTF-8 text. -/
  | notText
  /-- A failure of the device, in its own words. -/
  | device (reason : String)
  deriving DecidableEq

/-- What is said of a file error. -/
def FileError.message : FileError → String
  | notFound => "No such file or directory (os error 2)"
  | notDirectory => "Not a directory (os error 20)"
  | isDirectory => "Is a directory (os error 21)"
  | nameTooLong => "File name too long (os error 36)"
  | nulInPath => "file name contained an unexpected NUL byte"
  | noSpace => "No space left on device (os error 28)"
  | notKept => "Invalid argument (os error 22)"
  | notText => "stream did not contain valid UTF-8"
  | device reason => reason

end DirectoryTables

/-! The reasons for which the kernel refuses a call. -/

namespace KernelConformance

/-- Why a call failed. -/
inductive Errno where
  | noSuchFile
  | argumentListTooLong
  | badDescriptor
  | noChild
  | unavailable
  | tooManyOpenFiles
  | badFileName
  deriving DecidableEq

namespace Errno

/-- All reasons, by number. -/
def all : List Errno :=
  [noSuchFile, argumentListTooLong, badDescriptor, noChild, unavailable, tooManyOpenFiles,
    badFileName]

/-- The number of a reason. -/
def number : Errno → Nat
  | noSuchFile => 2
  | argumentListTooLong => 7
  | badDescriptor => 9
  | noChild => 10
  | unavailable => 11
  | tooManyOpenFiles => 24
  | badFileName => 36

/-- The wording of a reason. -/
def message : Errno → String
  | noSuchFile => "no such file or directory"
  | argumentListTooLong => "argument list too long"
  | badDescriptor => "bad file descriptor"
  | noChild => "no child process"
  | unavailable => "resource temporarily unavailable"
  | tooManyOpenFiles => "too many open files"
  | badFileName => "file name too long"

/-- The name of a reason in the description of a value. -/
def description : Errno → String
  | noSuchFile => "FsEntryNotFound"
  | argumentListTooLong => "ArgumentListTooLong"
  | badDescriptor => "BadFileDescriptor"
  | noChild => "NoChildProcess"
  | unavailable => "ResourceTemporarilyUnavailable"
  | tooManyOpenFiles => "TooManyOpenFiles"
  | badFileName => "InvalidFilename"

/-- The reason with a number. -/
def ofNumber? (number : Int) : Option Errno :=
  all.find? fun error => (error.number : Int) = number

/-- The reason with a description. -/
def ofDescription? (text : String) : Option Errno :=
  all.find? fun error => error.description = text

end Errno

end KernelConformance

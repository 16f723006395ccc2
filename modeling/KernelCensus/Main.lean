import KernelCensus.Command.Exit
import Std.Time.DateTime.PlainDateTime
import Std.Time.DateTime.Timestamp
import Std.Time.Zoned.TimeZone

/-!
# The program

Runs commands on the disk of the machine. Results are printed on the standard output, notices and
errors on the standard error output.
-/

namespace KernelCensus.Program

/-! ## Errors of the machine -/

/-- The cause with a number of the operating system, or else with a message. -/
def errorOfNumber (message : String) : Nat → FileError
  | 2 => .notFound
  | 17 => .alreadyExists
  | 20 => .notDirectory
  | 21 => .isDirectory
  | 36 => .nameTooLong
  | 40 => .linkLoop
  | number => .other (Text.concat [message, " (os error ", Text.ofNat number, ")"])

/-- The cause with a code, which may be the negated number. -/
def errorOfCode (code : UInt32) (message : String) : FileError :=
  errorOfNumber message (min code.toNat (UInt32.size - code.toNat))

def fileError : IO.Error → FileError
  | .noFileOrDirectory _ code message => errorOfCode code message
  | .alreadyExists _ code message => errorOfCode code message
  | .inappropriateType _ code message => errorOfCode code message
  | .invalidArgument _ code message => errorOfCode code message
  | .permissionDenied _ code message => errorOfCode code message
  | .resourceExhausted _ code message => errorOfCode code message
  | error => .other (toString error).toList

/-- Does something on the machine and answers what came of it. -/
def attempt {α : Type} (action : IO α) : IO (Except FileError α) := do
  match ← action.toBaseIO with
  | .ok value => return .ok value
  | .error error => return .error (fileError error)

/-! ## The disk of the machine -/

/-- The text of a path for the machine. -/
def pathText (path : Path) : String := String.ofList path.text

/-- A path of the machine. -/
def ofPathText (text : String) : Path := ⟨text.toList⟩

/-- What kind of thing is at a path, behind symbolic links. -/
def fileType? (path : Path) : IO (Option IO.FS.FileType) := do
  match ← attempt (do return (← (← IO.FS.realPath (pathText path)).metadata).type) with
  | .ok type => return some type
  | .error _ => return none

def filesIn (path : Path) : IO (List Text) := do
  let entries ← (← IO.FS.realPath (pathText path)).readDir
  let files ← entries.toList.filterM fun entry => do
    return (← entry.path.symlinkMetadata).type == .file
  return files.map fun entry => entry.fileName.toList

/-- A number in decimal with at least the given number of digits. -/
def padded (width n : Nat) : Text :=
  let digits := Text.ofNat n
  List.replicate (width - digits.length) '0' ++ digits

/-- The time at the prime meridian. -/
def now : IO Text := do
  let timestamp ← Std.Time.Timestamp.now
  let time := Std.Time.PlainDateTime.ofWallTime (timestamp.toWallTime .zero)
  return Text.concat
    [padded 4 time.date.year.toInt.toNat, "-", padded 2 time.date.month.toNat, "-",
      padded 2 time.date.day.toNat, "T", padded 2 time.time.hour.toNat, ":",
      padded 2 time.time.minute.toNat, ":", padded 2 time.time.second.toNat, ".",
      padded 9 time.time.nanosecond.toNat, "+00:00"]

def disk : Disk IO where
  currentPath := attempt (do return ofPathText (← IO.currentDir).toString)
  canonical path := attempt (do return ofPathText (← IO.FS.realPath (pathText path)).toString)
  read path := attempt (do return (← IO.FS.readBinFile (pathText path)).toList)
  isDirectory path := do return (← fileType? path) == some .dir
  isFile path := do return (← fileType? path) == some .file
  filesIn path := attempt (filesIn path)
  now := now

def perform : Change → IO (Except FileError Unit)
  | .directory _ path => attempt (IO.FS.createDirAll (pathText path))
  | .file _ path contents => attempt (IO.FS.writeBinFile (pathText path) ⟨contents.toArray⟩)

/-! ## Running -/

def noticeLine (notice : Notice) : Text :=
  Text.concat [notice.severity.name, " ", notice.message,
    notice.fields.flatMap fun field => Text.concat [" ", field.1, "=", field.2]]

def isShown (verbose : Bool) (notice : Notice) : Bool := verbose || notice.severity == .warning

def exit (arguments : List Text) : IO Exit := do
  match Arguments.read arguments with
  | .error stop => return stop.exit
  | .ok (command, verbose) =>
    let (result, notices) ← command.run disk perform
    let shown := notices.filter (isShown verbose)
    IO.eprint (String.ofList (Text.unlines (shown.map noticeLine)))
    return exitOf result

end KernelCensus.Program

def main (arguments : List String) : IO UInt32 := do
  let exit ← KernelCensus.Program.exit (arguments.map String.toList)
  IO.print (String.ofList exit.output)
  IO.eprint (String.ofList exit.errorOutput)
  return exit.code.toUInt32

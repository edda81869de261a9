import Authorization.Path

/-!
# Working directories

The files and directories that the program finds and makes, as far as it names them. A path leads
from the working directory, or from the root, step by step to a place, and every place that it
passes through must be a directory. `beginLog` makes all directories along a path and then a file.
-/

namespace Authorization.CommandLine

/-- A place among files: the names that lead to it from the root or from the working directory, the
last one first. Steps upwards stand only at the far end. -/
structure Place where
  absolute : Bool
  /-- The names, the last one first. -/
  steps : List String
  deriving DecidableEq

namespace Place

def start (path : String) : Place := { absolute := Path.isAbsolute path, steps := [] }

/-- The place that encloses a place. Nothing encloses the root. -/
def up (place : Place) : Place :=
  match place.steps with
  | [] => if place.absolute then place else { place with steps := [".."] }
  | name :: outer =>
    if name = ".." then { place with steps := ".." :: name :: outer }
    else { place with steps := outer }

/-- The place that one step leads to. -/
def enter (place : Place) (step : String) : Place :=
  if step = "." then place
  else if step = ".." then place.up
  else { place with steps := step :: place.steps }

/-- Whether a place is the start of a path or encloses it. -/
def isOuter (place : Place) : Bool := place.steps.all (· == "..")

/-- Whether a place lies directly inside another. -/
def isInside (place outer : Place) : Bool := !place.isOuter && place.up == outer

end Place

/-- Why a path cannot be made a directory. -/
inductive FileFault where
  | taken
  | notDirectory
  | missing
  | tooLong
  | zeroCharacter
  deriving DecidableEq

/-- What the system says about a file that cannot be used. -/
def FileFault.message : FileFault → String
  | taken => "File exists (os error 17)"
  | notDirectory => "Not a directory (os error 20)"
  | missing => "No such file or directory (os error 2)"
  | tooLong => "File name too long (os error 36)"
  | zeroCharacter => "file name contained an unexpected NUL byte"

/-- Why a log cannot be begun. -/
inductive LogFault where
  | directory (reason : String)
  | file (reason : String)
  deriving DecidableEq

/-- What stands at a place. -/
inductive FileEntry where
  | directory
  | file (text : String)
  deriving DecidableEq

/-- The files and directories that are known, apart from the working directory and those that
enclose it. -/
structure WorkingDirectory where
  entries : List (Place × FileEntry)
  deriving DecidableEq

namespace WorkingDirectory

def ofFiles (files : List (String × String)) : WorkingDirectory where
  entries := files.map fun (name, text) => (⟨false, [name]⟩, .file text)

/-- What is at a place. Places outside are taken for directories. -/
def find? (directory : WorkingDirectory) (place : Place) : Option FileEntry :=
  if place.isOuter then some .directory
  else (directory.entries.find? fun entry => entry.1 == place).map Prod.snd

/-- A directory with one more entry, which stands for what was at its place before. -/
def add (directory : WorkingDirectory) (place : Place) (entry : FileEntry) : WorkingDirectory where
  entries := (place, entry) :: directory.entries

/-- The place that steps lead to from another, if all places on the way are directories. -/
def follow (directory : WorkingDirectory) (place : Place) : List String → Option Place
  | [] => some place
  | step :: steps =>
    if directory.find? place = some .directory then directory.follow (place.enter step) steps
    else none

/-- The most bytes that a name may have. -/
def nameLimit : Nat := 255

/-- The most bytes that a path may have. -/
def pathLimit : Nat := 4095

/-- The text of the file to which a path leads. A path that ends with a slash leads to no file. -/
def text? (directory : WorkingDirectory) (path : String) : Option String :=
  let last := if path.toList.getLast? = some '/' then ["."] else []
  if pathLimit < path.utf8ByteSize then none
  else match (directory.follow (.start path) (Path.elements path ++ last)).bind directory.find? with
  | some (.file text) => some text
  | _ => none

/-- How many entries the directory holds to which a path leads. -/
def size (directory : WorkingDirectory) (path : String) : Nat :=
  match directory.follow (.start path) (Path.elements path) with
  | some place => (directory.entries.filter fun entry => entry.1.isInside place).length
  | none => 0

/-- Makes a directory at every place along some steps. What was made before a fault stays. A file
stands in the way of a directory if it is at the last step or if something before it had to be made;
else the path leads through it. Steps that stay where they are do not make the place they end at. -/
def makeAlong (directory : WorkingDirectory) (made : Bool) (place : Place) :
    List String → WorkingDirectory × Except FileFault Place
  | [] => (directory, .ok place)
  | step :: steps =>
    let place := place.enter step
    if nameLimit < step.utf8ByteSize then (directory, .error .tooLong)
    else match directory.find? place with
      | some .directory => directory.makeAlong made place steps
      | some (.file _) =>
        (directory, .error (if made || steps.isEmpty then .taken else .notDirectory))
      | none =>
        if !steps.isEmpty && steps.all (· == ".") then (directory, .error .missing)
        else (directory.add place .directory).makeAlong true place steps

/-- Makes a directory and those on the way to it. -/
def make (directory : WorkingDirectory) (path : String) :
    WorkingDirectory × Except FileFault Place :=
  if path.toList.contains '\x00' then (directory, .error .zeroCharacter)
  else if pathLimit < path.utf8ByteSize then (directory, .error .tooLong)
  else directory.makeAlong false (.start path) (Path.elements path)

def logName (day : String) : String := "access-decision.log." ++ day

/-- The path of a day's log file in a directory. -/
def logPath (path day : String) : String :=
  if path.isEmpty ∨ path.toList.getLast? = some '/' then path ++ logName day
  else path ++ "/" ++ logName day

/-- Makes the directory of the logs and opens the log file of a day in it. -/
def beginLog (directory : WorkingDirectory) (day path : String) :
    WorkingDirectory × Except LogFault Unit :=
  match directory.make path with
  | (directory, .ok place) =>
    if pathLimit < (logPath path day).utf8ByteSize then
      (directory, .error (.file FileFault.tooLong.message))
    else (directory.add (place.enter (logName day)) (.file ""), .ok ())
  | (directory, .error fault) => (directory, .error (.directory fault.message))

end WorkingDirectory

end Authorization.CommandLine

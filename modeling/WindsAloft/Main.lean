import WindsAloft.Session

/-!
# The program

The outer layer: it reads the environment, the files that a session needs and
the clock, runs the session, and prints what it leaves behind.
-/

namespace WindsAloft

def FileFault.ofError : IO.Error → FileFault
  | .noFileOrDirectory .. => .notFound
  | .inappropriateType _ 21 _ => .isDirectory
  | .inappropriateType .. => .notDirectory
  | .invalidArgument _ 22 _ => .nullInName
  | .invalidArgument .. => .nameTooLong
  | error => .other (toString error)

/-- What a path leads to on the disk. -/
def readEntry (path : String) : IO (Except FileFault Entry) := do
  try
    let bytes ← IO.FS.readBinFile path
    return .ok (.file bytes.toList)
  catch error =>
    match FileFault.ofError error with
    | .isDirectory => return .ok .directory
    | fault => return .error fault

def readEntries (paths : List String) : IO Files := do
  let entries ← paths.mapM fun path => do return (path, ← readEntry path)
  return fun path => (entries.lookup path).getD (.error .notFound)

def readVariables (names : List String) : IO Environment := do
  let pairs ← names.filterMapM fun name => do
    return (← IO.getEnv name).map (name, ·)
  return .ofList pairs

/-- The variables that the program itself looks up. -/
def ownVariables : List String :=
  Options.filterVariable
    :: [Parameter.verbose, .logFormat, .trace, .settings, .metricsPort].filterMap
      Parameter.environmentName?

/-- The words in a line of an environment file, among them the name that it defines. -/
def wordsOf (line : List Char) : List String :=
  (cutAt ' ' (line.map fun c => if EnvironmentFile.continuesName c then c else ' ')).map
    String.ofList

/-- The names behind dollar signs, among them those that a line refers to. -/
def referencesOf : List Char → List String
  | [] => []
  | '$' :: '{' :: text =>
      String.ofList (text.takeWhile fun c => c ≠ '}') :: referencesOf text
  | '$' :: text => String.ofList (text.takeWhile isAlphanumeric) :: referencesOf text
  | _ :: text => referencesOf text

/-- The names of variables in an environment file, perhaps with some more. -/
def namesIn (bytes : List UInt8) : List String :=
  (EnvironmentFile.lines bytes).flatMap fun line => wordsOf line ++ referencesOf line

/-- The status that a system reports of a program that was ended. -/
def abortedStatus : Nat := 134

def Command.paths : Command → List String
  | replay trace settings _ _ => trace :: settings.toList
  | validate settings _ => [settings]
  | info settings _ => settings.toList

end WindsAloft

open WindsAloft

def main (arguments : List String) : IO UInt32 := do
  let directory ← readEntries [Session.environmentPath]
  let names :=
    match directory.bytes Session.environmentPath with
    | .ok bytes => (namesIn bytes).eraseDups.filter fun name => name ≠ ""
    | .error _ => []
  let outside ← readVariables (ownVariables ++ names)
  let environment := (Session.environmentOf? outside directory).getD outside
  let paths :=
    match Invocation.ofArguments environment arguments with
    | .ok invocation => invocation.command.paths
    | .error _ => []
  let files ← readEntries (Session.environmentPath :: paths)
  let start ← IO.monoNanosNow
  let session := Session.run outside files arguments
  for entry in session.log do
    IO.eprintln (entry.line session.logFormat)
  for line in session.lines do
    IO.println line
  let stop ← IO.monoNanosNow
  for line in session.closing ⟨stop - start⟩ do
    IO.println line
  for line in session.complaint do
    IO.eprintln line
  return UInt32.ofNat (session.status.getD abortedStatus)

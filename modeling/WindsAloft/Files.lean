import WindsAloft.Text.Pieces
import WindsAloft.Text.Utf8

/-!
# Files

What the library needs to know of a disk: for a path, whether a file, a
directory or nothing is there.  `Files` is any such look-up; `Files.ofList` is
the one that a list of files gives rise to, seen from the directory that holds
them.
-/

namespace WindsAloft

inductive FileFault where
  | notFound
  | isDirectory
  | notDirectory
  | notText
  /-- A name in the path, or the path as a whole, is too long. -/
  | nameTooLong
  /-- The path holds a character that no name can hold. -/
  | nullInName
  | other (message : String)
  deriving DecidableEq, Repr

def FileFault.message : FileFault → String
  | .notFound => "No such file or directory (os error 2)"
  | .isDirectory => "Is a directory (os error 21)"
  | .notDirectory => "Not a directory (os error 20)"
  | .notText => "stream did not contain valid UTF-8"
  | .nameTooLong => "File name too long (os error 36)"
  | .nullInName => "file name contained an unexpected NUL byte"
  | .other message => message

inductive Entry where
  | file (bytes : List UInt8)
  | directory

abbrev Files : Type :=
  String → Except FileFault Entry

namespace Files

def exist (files : Files) (path : String) : Bool :=
  match files path with
  | .ok _ => true
  | .error _ => false

def bytes (files : Files) (path : String) : Except FileFault (List UInt8) :=
  match files path with
  | .error fault => .error fault
  | .ok .directory => .error .isDirectory
  | .ok (.file bytes) => .ok bytes

def text (files : Files) (path : String) : Except FileFault (List Char) :=
  match files.bytes path with
  | .error fault => .error fault
  | .ok bytes => (Utf8.decode bytes).mapError fun _ => .notText

def segments (path : String) : List String :=
  (cutAt '/' path.toList).map String.ofList

/-- The parts of a path that lead somewhere else. -/
def steps (path : String) : List String :=
  (segments path).filter fun segment => segment ≠ "" ∧ segment ≠ "."

def fileName? (path : String) : Option String :=
  match (steps path).getLast? with
  | some ".." => none
  | name => name

/-- The part of a name behind its last point.  A point in front does not count. -/
def extension? (path : String) : Option String :=
  (fileName? path).bind fun name =>
    let reversed := name.toList.reverse
    match reversed.dropWhile fun c => c ≠ '.' with
    | [] => none
    | [_] => none
    | _ => some (String.ofList (reversed.takeWhile fun c => c ≠ '.').reverse)

/-- What is at a place, given as the names that lead there. -/
def lookUp (list : List (List String × Entry)) (place : List String) : Option Entry :=
  match list.lookup place with
  | some entry => some entry
  | none =>
      if place = [] ∨ list.any (fun (path, _) => place.isPrefixOf path) then some .directory
      else none

inductive Whereabouts where
  /-- A directory below a known one, as the names that lead there, the last one first. -/
  | below (names : List String)
  /-- Somewhere above the known directory, where nothing is known by name. -/
  | above

def greatestName : Nat := 255

def greatestPath : Nat := 4095

/-- Follows segments; `top` is where a step up from the known directory leads. -/
def follow
    (list : List (List String × Entry))
    (top : Whereabouts) :
    Whereabouts → List String → Except FileFault Entry
  | _, [] => .ok .directory
  | place, segment :: segments =>
      if segment = "" ∨ segment = "." then follow list top place segments
      else if segment = ".." then
        match place with
        | .below (_ :: names) => follow list top (.below names) segments
        | _ => follow list top top segments
      else if greatestName < segment.utf8ByteSize then .error .nameTooLong
      else
        match place with
        | .above => .error .notFound
        | .below names =>
            match lookUp list (segment :: names).reverse with
            | none => .error .notFound
            | some .directory => follow list top (.below (segment :: names)) segments
            | some (.file bytes) =>
                if segments = [] then .ok (.file bytes) else .error .notDirectory

/-- What every system has at the root of its disk. -/
def commonPlaces : List (List String × Entry) :=
  (["dev", "null"], .file [])
    :: ["bin", "etc", "home", "lib", "proc", "root", "tmp", "usr", "var"].map
      fun name => ([name], .directory)

/--
The files of a list, by paths from the directory that holds them.  Of paths
from the root of the disk only what every system has is known.
-/
def ofList (list : List (String × Entry)) : Files :=
  let places := list.map fun (path, entry) => (steps path, entry)
  fun path =>
    if path = "" then .error .notFound
    else if path.toList.any (fun c => c.toNat = 0) then .error .nullInName
    else if greatestPath < path.utf8ByteSize then .error .nameTooLong
    else
      match segments path with
      | "" :: segments => follow commonPlaces (.below []) (.below []) segments
      | segments => follow places .above (.below []) segments

end Files
end WindsAloft

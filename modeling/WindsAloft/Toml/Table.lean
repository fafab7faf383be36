import WindsAloft.Document.Basic
import WindsAloft.Toml.Statement

/-!
# The tables of a TOML text

Statements build up a table row by row.  A header opens a table that may have
been mentioned on the way to another one but not opened before; points in a key
lead into tables that were made by such keys.  Values, also inline tables and
lists, cannot be added to once they are there.  What results is a document
whose members are sorted by name.
-/

namespace WindsAloft
namespace Toml

/-- How a table came about. -/
inductive Origin where
  /-- By a header of its own, or as the whole text. -/
  | opened
  /-- On the way to a table below it. -/
  | mentioned
  /-- By a point in a key. -/
  | pointed
  deriving DecidableEq, Repr

mutual

inductive Row where
  | value (doc : Doc)
  | table (origin : Origin) (span : Span) (rows : Rows)
  /-- Tables under one name, the last one first. -/
  | tables (span : Span) (last : Rows) (earlier : RowsList)

inductive Rows where
  | nil
  | cons (name : Name) (row : Row) (rest : Rows)

inductive RowsList where
  | nil
  | cons (rows : Rows) (rest : RowsList)

end

namespace Rows

def find? (name : String) : Rows → Option Row
  | nil => none
  | cons other row rest => if other.text = name then some row else find? name rest

/-- The rows with what a name stands for replaced; a new name comes last. -/
def put (name : Name) (row : Row) : Rows → Rows
  | nil => cons name row nil
  | cons other old rest =>
      if other.text = name.text then cons other row rest
      else cons other old (put name row rest)

end Rows

/-- The fault of a name that is there already. -/
def repeated {α : Type} (name : Name) : Except Flaw α :=
  .error ⟨name.span.start, "duplicate key"⟩

/-- The fault of a name whose value cannot be added to. -/
def closed {α : Type} (name : Name) : Except Flaw α :=
  .error ⟨name.span.start, "cannot extend a value with more keys"⟩

/--
Changes the table at the end of a path of names, tables on the way being made
where they are missing.  The change is told how the table came about.
-/
def changeAt
    (pointed : Bool) (origin : Origin) (change : Origin → Rows → Except Flaw Rows) :
    List Name → Rows → Except Flaw Rows
  | [], rows => change origin rows
  | name :: path, rows =>
      let fresh := if pointed then Origin.pointed else Origin.mentioned
      match rows.find? name.text with
      | none =>
          (changeAt pointed fresh change path .nil).map fun below =>
            rows.put name (.table fresh name.span below)
      | some (.value _) => closed name
      | some (.table origin span below) =>
          if pointed ∧ origin = .opened then repeated name
          else
            (changeAt pointed origin change path below).map fun below =>
              rows.put name (.table origin span below)
      | some (.tables span last earlier) =>
          (changeAt pointed .opened change path last).map fun last =>
            rows.put name (.tables span last earlier)

def addValue (pointed : Bool) (name : Name) (doc : Doc) (origin : Origin) (rows : Rows) :
    Except Flaw Rows :=
  if pointed ≠ (origin = .pointed : Bool) then repeated name
  else
    match rows.find? name.text with
    | none => .ok (rows.put name (.value doc))
    | some _ => repeated name

def addEntry (path : List Name) (doc : Doc) (origin : Origin) (rows : Rows) :
    Except Flaw Rows :=
  match path.getLast? with
  | none => .ok rows
  | some name =>
      let pointed := path.dropLast ≠ []
      changeAt pointed origin (addValue pointed name doc) path.dropLast rows

def openTable (name : Name) (span : Span) (_ : Origin) (rows : Rows) : Except Flaw Rows :=
  match rows.find? name.text with
  | none => .ok (rows.put name (.table .opened span .nil))
  | some (.table .mentioned _ below) => .ok (rows.put name (.table .opened span below))
  | some _ => repeated name

def addTable (name : Name) (span : Span) (_ : Origin) (rows : Rows) : Except Flaw Rows :=
  match rows.find? name.text with
  | none => .ok (rows.put name (.tables span .nil .nil))
  | some (.tables span last earlier) =>
      .ok (rows.put name (.tables span .nil (.cons last earlier)))
  | some _ => repeated name

def insertMember (key : Key) (name : String) (value : Doc) : Members → Members
  | .member other old follow rest =>
      match other.name with
      | .ok otherName =>
          if otherName < name then
            .member other old follow (insertMember key name value rest)
          else
            .member key value 0 (.member other old follow rest)
      | .error _ => .member key value 0 (.member other old follow rest)
  | rest => .member key value 0 rest

def Name.toKey (name : Name) : Key :=
  ⟨.ok name.text, name.span, name.span⟩

/-- A list in a document; what is left over of it does not matter. -/
def listDoc (span : Span) (items : List Doc) : Doc :=
  .list span (Items.ofList (fun _ => none) (.closed span) items)

mutual

def Row.toDoc : Row → Doc
  | .value doc => doc
  | .table _ span rows => .object span (Rows.toMembers span rows)
  | .tables span last earlier =>
      listDoc span (RowsList.toDocs span earlier [.object span (Rows.toMembers span last)])

/-- Rows as members, sorted by name. -/
def Rows.toMembers (span : Span) : Rows → Members
  | .nil => .closed span
  | .cons name row rest =>
      insertMember name.toKey name.text row.toDoc (Rows.toMembers span rest)

/-- Tables as values, given the last one first, in front of others. -/
def RowsList.toDocs (span : Span) : RowsList → List Doc → List Doc
  | .nil, docs => docs
  | .cons rows rest, docs =>
      RowsList.toDocs span rest (.object span (Rows.toMembers span rows) :: docs)

end

def Bare.toDoc (span : Span) : Bare → Doc
  | .bool b => .leaf (.bool b) span
  | .integer (some n) => .leaf (.integer n) span
  | .integer none => .overflow .integer span
  | .real (some x) => .leaf (.real x) span
  | .real none => .overflow .real span
  | .moment => .moment span

mutual

def Value.toDoc : Value → Except Flaw Doc
  | .bare scalar span => .ok (scalar.toDoc span)
  | .text s span => .ok (.leaf (.text s) span)
  | .list items span => (Value.toDocs items).map (listDoc span)
  | .table entries span =>
      (Value.toRows entries .nil).map fun rows => .object span (rows.toMembers span)

def Value.toDocs : List Value → Except Flaw (List Doc)
  | [] => .ok []
  | value :: values =>
      match value.toDoc with
      | .error flaw => .error flaw
      | .ok doc => (Value.toDocs values).map (doc :: ·)

def Value.toRows : List (List Name × Value) → Rows → Except Flaw Rows
  | [], rows => .ok rows
  | (path, value) :: entries, rows =>
      match value.toDoc with
      | .error flaw => .error flaw
      | .ok doc =>
          match addEntry path doc .opened rows with
          | .error flaw => .error flaw
          | .ok rows => Value.toRows entries rows

end

/-- A header changes the table before the last name of its path. -/
def atHeader
    (path : List Name) (change : Name → Origin → Rows → Except Flaw Rows) (rows : Rows) :
    Except Flaw Rows :=
  match path.getLast? with
  | none => .ok rows
  | some name => changeAt false .opened (change name) path.dropLast rows

/-- An entry below a header: the header's path leads to its table, the last one of several. -/
def addBelow (path : List Name) (key : List Name) (doc : Doc) (rows : Rows) : Except Flaw Rows :=
  changeAt false .opened (addEntry key doc) path rows

/-- All statements, one after the other, below the path of the last header. -/
def assemble (path : List Name) (rows : Rows) : List Statement → Except Flaw Rows
  | [] => .ok rows
  | .table path span :: statements =>
      match atHeader path (openTable · span) rows with
      | .error flaw => .error flaw
      | .ok rows => assemble path rows statements
  | .listed path span :: statements =>
      match atHeader path (addTable · span) rows with
      | .error flaw => .error flaw
      | .ok rows => assemble path rows statements
  | .entry key value :: statements =>
      match value.toDoc with
      | .error flaw => .error flaw
      | .ok doc =>
          match addBelow path key doc rows with
          | .error flaw => .error flaw
          | .ok rows => assemble path rows statements

def parse (text : List Char) : Except Flaw Source :=
  (statements text).bind fun statements =>
    (assemble [] .nil statements).map fun rows =>
      let span : Span := ⟨0, Utf8.size text⟩
      ⟨.object span (rows.toMembers span), none⟩

/-- A double in the words of messages: without an exponent and with a point if it is finite. -/
def wordedFloat (x : Float) : List Char :=
  match Binary64.ofFloat x with
  | .finite _ _ => tomlFloat x
  | _ => displayFloat x

def wording : Wording where
  real := wordedFloat

end Toml
end WindsAloft

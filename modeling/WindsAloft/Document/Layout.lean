import WindsAloft.Document.Basic

/-!
# Reading records from documents

A `Reader` turns a value of a document into something of the domain or says
why it cannot.  Records are read by a `Layout`: a list of named fields with
their readers and a way to build the record from a look-up of values by name.

An object is read in two steps.  First its members are gone through in the
order of the text; the fault that comes first wins, be it a value that does
not fit, a field that comes twice, or a flaw of the text.  Then the record is
built field by field, and the first field in the record's own order that is
missing is reported.  A list can stand for an object, its items being the
fields in order.  Members that the layout does not know are passed over.
-/

namespace WindsAloft

abbrev Reader (α : Type) : Type :=
  Doc → Except Fault α

namespace Reader

/-- Whether an integer fits into 64 bits, with or without a sign. -/
def fitsWord (n : Int) : Bool :=
  Int64.minValue.toInt ≤ n && n < UInt64.size

/-- A double.  Integers of 64 bits will do as well. -/
def real : Reader Float
  | .leaf (.real x) _ => .ok x
  | .leaf (.integer n) span =>
      if fitsWord n then .ok (Float.ofInt n)
      else .error ((Doc.leaf (.integer n) span).unexpected "f64")
  | doc => .error (doc.unexpected "f64")

/--
An integer within bounds of at most 64 bits.  Doubles will not do, even if they
are whole, and integers of more than 64 bits count as something else.
-/
def integer (least greatest : Int) (expected : String) : Reader Int
  | .leaf (.integer n) span =>
      if least ≤ n ∧ n ≤ greatest then .ok n
      else if fitsWord n then
        .error ⟨.mismatch (.value (.scalar (.integer n)) expected), some span⟩
      else
        .error ((Doc.leaf (.integer n) span).unexpected expected)
  | doc => .error (doc.unexpected expected)

def int32 : Reader Int32 :=
  fun doc => (integer Int32.minValue.toInt Int32.maxValue.toInt "i32" doc).map Int32.ofInt

def int64 : Reader Int64 :=
  fun doc => (integer Int64.minValue.toInt Int64.maxValue.toInt "i64" doc).map Int64.ofInt

def count (expected : String) : Reader Nat :=
  fun doc => (integer 0 (UInt64.size - 1) expected doc).map Int.toNat

def bool : Reader Bool
  | .leaf (.bool b) _ => .ok b
  | doc => .error (doc.unexpected "a boolean")

def nullable {α : Type} (read : Reader α) : Reader (Option α)
  | .leaf .null _ => .ok none
  | doc => (read doc).map some

/-- One of some names, given with what they stand for. -/
def name {α : Type} (known : List (String × α)) : Reader α
  | .leaf (.text s) span =>
      match known.lookup s with
      | some a => .ok a
      | none => .error ⟨.mismatch (.variant s (known.map Prod.fst)), some span⟩
  | doc => .error (doc.unexpected "variant identifier")

end Reader

/-- The name of a field and the test that its value has to pass. -/
structure Field where
  name : String
  check : Doc → Except Fault Unit

/-- Some fields, and what is built from their values once all have been checked. -/
structure Part (α : Type) where
  fields : List Field
  build : Span → (String → Option Doc) → Except Fault α

namespace Part

/-- The test that a reader amounts to. -/
def checkBy {α : Type} (read : Reader α) : Doc → Except Fault Unit :=
  fun doc => (read doc).map fun _ => ()

def required {α : Type} (name : String) (read : Reader α) : Part α where
  fields := [⟨name, checkBy read⟩]
  build span values :=
    match values name with
    | some doc => read doc
    | none => .error ⟨.mismatch (.missing name), some span⟩

def defaulted {α : Type} (name : String) (read : Reader α) (absent : α) : Part α where
  fields := [⟨name, checkBy read⟩]
  build _ values :=
    match values name with
    | some doc => read doc
    | none => .ok absent

/-- A field that may be null, and is null if it is not there. -/
def optional {α : Type} (name : String) (read : Reader α) : Part (Option α) :=
  defaulted name (Reader.nullable read) none

instance : Applicative Part where
  pure a := ⟨[], fun _ _ => .ok a⟩
  seq f a :=
    { fields := f.fields ++ (a ()).fields
      build := fun span values =>
        match f.build span values with
        | .error fault => .error fault
        | .ok g => ((a ()).build span values).map g }

end Part

/-- How a record is written: its name in messages, its fields, and whether a list may end early. -/
structure Layout (α : Type) where
  title : String
  part : Part α
  lenient : Bool := false

/-- Values found by name, the place where the record ends, and how many items were left over. -/
structure Members.Found where
  values : List (String × Doc)
  span : Span

namespace Layout

/-- Goes through members and keeps those that the fields know. -/
def checkMembers (fields : List Field) (seen : List String) :
    Members → Except Fault Members.Found
  | .closed span => .ok ⟨[], span⟩
  | .broken whenRead _ _ => .error whenRead
  | .member key value _ rest =>
      match key.name with
      | .error fault => .error fault
      | .ok name =>
          match fields.find? (fun field => field.name = name) with
          | none =>
              match value.skip with
              | .error fault => .error fault
              | .ok () => checkMembers fields seen rest
          | some field =>
              if name ∈ seen then
                .error ⟨.mismatch (.duplicate name), some key.duplicate⟩
              else
                match field.check value with
                | .error fault => .error fault
                | .ok () =>
                    (checkMembers fields (name :: seen) rest).map
                      fun found => { found with values := (name, value) :: found.values }

/-- Goes through items, one for each field; what is left of the items follows. -/
def checkItems (lenient : Bool) (expected : String) (position : Nat) :
    List Field → Items → Except Fault (Members.Found × Items)
  | [], items => .ok (⟨[], default⟩, items)
  | _ :: _, .closed span =>
      if lenient then
        .ok (⟨[], span⟩, .closed span)
      else
        .error ⟨.mismatch (.length position expected), some span⟩
  | _ :: _, .broken whenRead _ _ => .error whenRead
  | field :: fields, .item _ value rest =>
      match field.check value with
      | .error fault => .error fault
      | .ok () =>
          (checkItems lenient expected (position + 1) fields rest).map
            fun (found, left) =>
              ({ found with values := (field.name, value) :: found.values }, left)

/-- That a list is over, or may go on without anybody minding. -/
def checkSurplus : Items → Except Fault Unit
  | .closed _ => .ok ()
  | .item none _ _ => .ok ()
  | .item (some fault) _ _ => .error fault
  | .broken _ _ surplus => .error surplus

def elements (n : Nat) : String :=
  if n = 1 then "1 element" else toString n ++ " elements"

def expectedLength {α : Type} (layout : Layout α) : String :=
  layout.title ++ " with " ++ elements layout.part.fields.length

def buildFrom {α : Type} (layout : Layout α) (found : Members.Found) : Except Fault α :=
  layout.part.build found.span fun name => found.values.lookup name

def readMembers {α : Type} (layout : Layout α) (members : Members) : Except Fault α :=
  match checkMembers layout.part.fields [] members with
  | .error fault => .error fault
  | .ok found => layout.buildFrom found

/-- Reads a record from the items of a list; what follows them is left. -/
def readItems {α : Type} (layout : Layout α) (items : Items) : Except Fault (α × Items) :=
  match checkItems layout.lenient layout.expectedLength 0 layout.part.fields items with
  | .error fault => .error fault
  | .ok (found, left) => (layout.buildFrom found).map fun a => (a, left)

/-- Reads a record from an object, or from a list of its fields in order. -/
def read {α : Type} (layout : Layout α) : Reader α
  | .object _ members => layout.readMembers members
  | .list _ items =>
      match layout.readItems items with
      | .error fault => .error fault
      | .ok (a, left) => (checkSurplus left).map fun () => a
  | doc => .error (doc.unexpected layout.title)

end Layout

/-- Reads a whole text: its value has to fit, and nothing may follow it. -/
def Source.read {α : Type} (source : Source) (read : Reader α) : Except Fault α :=
  match read source.root with
  | .error fault => .error fault
  | .ok a =>
      match source.trailing with
      | some fault => .error fault
      | none => .ok a

end WindsAloft

import WindsAloft.Document.Fault

/-!
# Documents with the faults of their text

A `Doc` is the tree of values that a text spells out.  Where the text breaks
the grammar the tree ends in a fault, so that a document is read up to the
first place that matters to the reader: a value that is skipped may hide a
flaw that would stop a reader of that value.

Both JSON and TOML texts become such trees.  The functions of this module are
the ways to walk over values that nobody wants: `skip` passes over a value, and
`readThrough` reads one without knowing what it is for.
-/

namespace WindsAloft

structure Key where
  /-- The name, or why it cannot be read. -/
  name : Except Fault String
  span : Span
  /-- Where a reader notices that the name came before. -/
  duplicate : Span

mutual

/-- A value in a text. -/
inductive Doc where
  | leaf (value : Scalar) (span : Span)
  /--
  Text at an offset that is no value to a reader, and perhaps not even to one
  who skips it.  The flag tells whether a number or a word begins there.
  -/
  | flawed (start : Nat) (isWord : Bool) (whenRead : Fault) (whenSkipped : Option Fault)
  /-- Digits that turn out to be no number of their kind as soon as somebody looks. -/
  | overflow (kind : NumberKind) (span : Span)
  | list (span : Span) (items : Items)
  | object (span : Span) (members : Members)

inductive Items where
  | closed (span : Span)
  /-- One more item; `surplus` is the fault of those for whom the list should be over. -/
  | item (surplus : Option Fault) (value : Doc) (rest : Items)
  /-- The text goes wrong before the next item. -/
  | broken (whenRead whenSkipped surplus : Fault)

inductive Members where
  | closed (span : Span)
  /-- One more member; `follow` is where the text goes on behind its value. -/
  | member (key : Key) (value : Doc) (follow : Nat) (rest : Members)
  /-- The text goes wrong before the next member; `instead` is what stands there as a value. -/
  | broken (whenRead whenSkipped : Fault) (instead : Doc)

end

/-- A whole text: its value, and what is wrong behind it. -/
structure Source where
  root : Doc
  trailing : Option Fault

namespace Doc

def start : Doc → Nat
  | leaf _ span => span.start
  | flawed start _ _ _ => start
  | overflow _ span => span.start
  | list span _ => span.start
  | object span _ => span.start

/--
A point in time: an object with one member that nobody asks for.  Its key
stands where the whole value does.
-/
def moment (span : Span) : Doc :=
  object span
    (.member ⟨.ok "moment", span, span⟩ (leaf (.text "") span) span.stop (.closed span))

def overflowFault (kind : NumberKind) (span : Span) : Fault :=
  ⟨.mismatch (.overflow kind), some span⟩

/-- The fault of a value of the wrong kind, or the fault that keeps it from being one. -/
def unexpected (expected : String) : Doc → Fault
  | leaf value span => ⟨.mismatch (.kind (.scalar value) expected), some span⟩
  | flawed _ _ whenRead _ => whenRead
  | overflow kind span => overflowFault kind span
  | list span _ => ⟨.mismatch (.kind .list expected), some span⟩
  | object span _ => ⟨.mismatch (.kind .object expected), some span⟩

mutual

/-- Passes over a value. -/
def skip : Doc → Except Fault Unit
  | leaf _ _ => .ok ()
  | flawed _ _ _ none => .ok ()
  | flawed _ _ _ (some fault) => .error fault
  | overflow kind span => .error (overflowFault kind span)
  | list _ items => skipItems items
  | object _ members => skipMembers members

def skipItems : Items → Except Fault Unit
  | .closed _ => .ok ()
  | .item _ value rest =>
      match skip value with
      | .error fault => .error fault
      | .ok () => skipItems rest
  | .broken _ whenSkipped _ => .error whenSkipped

def skipMembers : Members → Except Fault Unit
  | .closed _ => .ok ()
  | .member _ value _ rest =>
      match skip value with
      | .error fault => .error fault
      | .ok () => skipMembers rest
  | .broken _ whenSkipped _ => .error whenSkipped

end

mutual

/-- Reads a value of any kind, down to a given depth of nesting. -/
def readThrough (depth : Nat) : Doc → Except Fault Unit
  | leaf _ _ => .ok ()
  | flawed _ _ whenRead _ => .error whenRead
  | overflow kind span => .error (overflowFault kind span)
  | list span items =>
      if depth = 0 then .error (Flaw.tooDeep.faultAt (span.start + 1))
      else readThroughItems (depth - 1) items
  | object span members =>
      if depth = 0 then .error (Flaw.tooDeep.faultAt (span.start + 1))
      else readThroughMembers (depth - 1) members

def readThroughItems (depth : Nat) : Items → Except Fault Unit
  | .closed _ => .ok ()
  | .item _ value rest =>
      match readThrough depth value with
      | .error fault => .error fault
      | .ok () => readThroughItems depth rest
  | .broken whenRead _ _ => .error whenRead

def readThroughMembers (depth : Nat) : Members → Except Fault Unit
  | .closed _ => .ok ()
  | .member key value _ rest =>
      match key.name with
      | .error fault => .error fault
      | .ok _ =>
          match readThrough depth value with
          | .error fault => .error fault
          | .ok () => readThroughMembers depth rest
  | .broken whenRead _ _ => .error whenRead

end

end Doc

def Items.ofList (surplus : Doc → Option Fault) (rest : Items) : List Doc → Items
  | [] => rest
  | value :: values => .item (surplus value) value (Items.ofList surplus rest values)

end WindsAloft

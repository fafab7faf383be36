import WindsAloft.Codec.Record
import WindsAloft.Json.Source
import WindsAloft.Text.Blank
import WindsAloft.Text.Utf8

/-!
# Traces

A trace is a file with one record a line.  Empty lines and lines that begin
with `#` say nothing.  Every other line gives a record or a fault, which names
the line; a bad line does not keep those behind it from being read.
-/

namespace WindsAloft
namespace Trace

/-- Why a line gives no record. -/
inductive Cause where
  | encoding (fault : Utf8.Fault)
  /-- The line, without blanks around it, is no record. -/
  | record (content : List Char) (fault : WindsAloft.Fault)

/-- A line that gives no record, counted from one. -/
structure Fault where
  line : Nat
  cause : Cause

/-- The account of a cause, with its place in the line. -/
def Cause.message : Cause → String
  | .encoding fault => fault.message
  | .record content fault => fault.describe Json.wording content

/-- The account of a cause, without its place in the line. -/
def Cause.bareMessage : Cause → String
  | .encoding fault => fault.message
  | .record _ fault => fault.message Json.wording

def describeLine (line : Nat) (message : String) : String :=
  "trace parse error at line " ++ toString line ++ ": " ++ message

def Fault.describe (fault : Fault) : String :=
  describeLine fault.line fault.cause.message

abbrev Item : Type :=
  Except Fault Record

def isSilent (content : List Char) : Bool :=
  match content with
  | [] => true
  | c :: _ => c = '#'

def readContent (reading : Numeral.Reading) (content : List Char) : Except Cause Record :=
  ((Json.parse reading content).read Record.read).mapError (.record content)

/-- What a line gives: nothing, a record or a reason why there is none. -/
def readLine (reading : Numeral.Reading) (bytes : List UInt8) : Option (Except Cause Record) :=
  match Utf8.decode bytes with
  | .error fault => some (.error (.encoding fault))
  | .ok text =>
      let content := trim text
      if isSilent content then none else some (readContent reading content)

/-- A trace on the way through it: the bytes that are left, and how many lines are behind. -/
structure Cursor where
  rest : List UInt8
  line : Nat

namespace Cursor

/-- The next item and the cursor behind its line; lines that say nothing are passed over. -/
def next? (reading : Numeral.Reading) (cursor : Cursor) : Option (Item × Cursor) :=
  match _taken : takeLine cursor.rest with
  | none => none
  | some (line, rest) =>
      let behind : Cursor := ⟨rest, cursor.line + 1⟩
      match readLine reading line with
      | none => behind.next? reading
      | some result => some (result.mapError (fun cause => ⟨behind.line, cause⟩), behind)
termination_by cursor.rest.length
decreasing_by exact takeLine_lt ‹_›

theorem next?_lt
    {reading : Numeral.Reading}
    {cursor behind : Cursor}
    {item : Item}
    (found : cursor.next? reading = some (item, behind)) :
    behind.rest.length < cursor.rest.length := by
  fun_induction next? reading cursor with
  | case1 => cases found
  | case2 cursor line rest taken passed silent ih =>
      exact Nat.lt_trans (ih found) (takeLine_lt taken)
  | case3 cursor line rest taken passed result said =>
      simp only [Option.some.injEq, Prod.mk.injEq] at found
      rw [← found.2]
      exact takeLine_lt taken

def items (reading : Numeral.Reading) (cursor : Cursor) : List Item :=
  match _found : cursor.next? reading with
  | none => []
  | some (item, behind) => item :: behind.items reading
termination_by cursor.rest.length
decreasing_by exact next?_lt ‹_›

end Cursor

/-- What a trace gives, its numbers being read in the given way. -/
def readWith (reading : Numeral.Reading) (bytes : List UInt8) : List Item :=
  Cursor.items reading ⟨bytes, 0⟩

def read (bytes : List UInt8) : List Item :=
  readWith Numeral.stepwise bytes

end Trace
end WindsAloft

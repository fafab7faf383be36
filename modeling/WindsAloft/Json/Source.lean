import WindsAloft.Document.Basic
import WindsAloft.Json.Token

/-!
# The document of a JSON text

`Json.parse` arranges the tokens of a text as a document.  Open lists and
objects wait on a stack; each token changes the innermost one.  Where a token
does not fit, that list or object ends in the fault, with the different words
that a reader, somebody who skips the value, and somebody for whom the list
should be over have for it; the text behind it no longer matters.
-/

namespace WindsAloft
namespace Json

/-- What an open list waits for. -/
inductive ListStage where
  | opened
  | afterItem
  | afterComma
  deriving DecidableEq, Repr

structure Entry where
  key : Key
  value : Doc
  follow : Nat

/-- What an open object waits for. -/
inductive ObjectStage where
  | opened
  /-- A colon.  The next token tells where a repeated key would be noticed. -/
  | afterKey (name : Except Fault String) (span : Span)
  | afterColon (key : Key)
  | afterValue (key : Key) (value : Doc)
  | afterComma

/-- A list or object that is still open, with its complete parts, the last one first. -/
inductive Frame where
  | list (start : Nat) (stage : ListStage) (done : List Doc)
  | object (start : Nat) (stage : ObjectStage) (done : List Entry)

inductive Parse where
  /-- Some lists and objects are open, the innermost one first. -/
  | building (frames : List Frame)
  /-- The value is complete and nothing may follow it. -/
  | complete (root : Doc)
  | over (source : Source)

/-- The fault of those for whom a list should have been over before an item. -/
def surplusFault (item : Doc) : Fault :=
  Flaw.trailingCharacters.faultAt (item.start + 1)

/-- The items of a list, given the last one first, ended by the given rest. -/
def itemsOf (done : List Doc) (rest : Items) : Items :=
  done.foldl (fun items item => .item (some (surplusFault item)) item items) rest

def membersOf (done : List Entry) (rest : Members) : Members :=
  done.foldl (fun members entry => .member entry.key entry.value entry.follow members) rest

def closeList (start : Nat) (done : List Doc) (rest : Items) : Doc :=
  .list (Span.point start) (itemsOf done rest)

def closeObject (start : Nat) (done : List Entry) (rest : Members) : Doc :=
  .object (Span.point start) (membersOf done rest)

/-- Ends everything around a value at which the text goes wrong. -/
def abandon (fault : Fault) (value : Doc) : List Frame → Doc
  | [] => value
  | .list start _ done :: frames =>
      abandon fault (closeList start (value :: done) (.broken fault fault fault)) frames
  | .object start (.afterColon key) done :: frames =>
      abandon fault
        (closeObject start (⟨key, value, 0⟩ :: done) (.broken fault fault value)) frames
  | .object start _ done :: frames =>
      abandon fault (closeObject start done (.broken fault fault value)) frames

def giveUp (fault : Fault) (value : Doc) (frames : List Frame) : Parse :=
  .over ⟨abandon fault value frames, none⟩

/-- Puts a complete value into the innermost list or object. -/
def place (value : Doc) : List Frame → Parse
  | [] => .complete value
  | .list start _ done :: frames => .building (.list start .afterItem (value :: done) :: frames)
  | .object start (.afterColon key) done :: frames =>
      .building (.object start (.afterValue key value) done :: frames)
  | .object start stage done :: frames => .building (.object start stage done :: frames)

def noValue (start : Nat) : Doc :=
  let fault := Flaw.expectedValue.faultAt (start + 1)
  .flawed start false fault (some fault)

def beginValue (frames : List Frame) (token : Token Lexeme) : Parse :=
  let start := token.span.start
  match token.lexeme with
  | .scalar value => place (.leaf value token.span) frames
  | .string (.ok s) => place (.leaf (.text s) token.span) frames
  | .string (.error fault) => place (.flawed start false fault none) frames
  | .outOfRange fault => place (.flawed start true fault none) frames
  | .mark '[' => .building (.list start .opened [] :: frames)
  | .mark '{' => .building (.object start .opened [] :: frames)
  | .broken whenRead whenSkipped =>
      giveUp whenRead (.flawed start true whenRead (some whenSkipped)) frames
  | .brokenString whenRead whenSkipped =>
      giveUp whenRead (.flawed start false whenRead (some whenSkipped)) frames
  | _ => giveUp (Flaw.expectedValue.faultAt (start + 1)) (noValue start) frames

/-- What a token would be as a value of its own. -/
def asValue (token : Token Lexeme) : Doc :=
  match token.lexeme with
  | .scalar value => .leaf value token.span
  | .string (.ok s) => .leaf (.text s) token.span
  | .string (.error fault) => .flawed token.span.start false fault none
  | .outOfRange fault => .flawed token.span.start true fault none
  | .mark '[' => .list (Span.point token.span.start) (.closed token.span)
  | .mark '{' => .object (Span.point token.span.start) (.closed token.span)
  | .broken whenRead whenSkipped => .flawed token.span.start true whenRead (some whenSkipped)
  | .brokenString whenRead whenSkipped => .flawed token.span.start false whenRead (some whenSkipped)
  | _ => noValue token.span.start

def stepList
    (start : Nat) (stage : ListStage) (done : List Doc) (frames : List Frame)
    (token : Token Lexeme) :
    Parse :=
  let next := token.span.start + 1
  let frame := Frame.list start stage done
  match stage, token.lexeme with
  | .opened, .mark ']' => place (closeList start done (.closed token.span)) frames
  | .opened, _ => beginValue (frame :: frames) token
  | .afterItem, .mark ']' => place (closeList start done (.closed token.span)) frames
  | .afterItem, .mark ',' => .building (.list start .afterComma done :: frames)
  | .afterItem, _ =>
      let fault := Flaw.expectedCommaOrEndOfList.faultAt next
      giveUp fault
        (closeList start done (.broken fault fault (Flaw.trailingCharacters.faultAt next)))
        frames
  | .afterComma, .mark ']' =>
      let fault := Flaw.trailingComma.faultAt next
      giveUp fault
        (closeList start done (.broken fault (Flaw.expectedValue.faultAt next) fault))
        frames
  | .afterComma, _ => beginValue (frame :: frames) token

/-- A token where a key is wanted; only the first key may be missing. -/
def beginKey
    (start : Nat) (first : Bool) (done : List Entry) (frames : List Frame) (token : Token Lexeme) :
    Parse :=
  let next := token.span.start + 1
  let noKey := Flaw.keyNotString.faultAt next
  let endIn (whenRead whenSkipped : Fault) : Parse :=
    giveUp whenRead
      (closeObject start done (.broken whenRead whenSkipped (asValue token))) frames
  match token.lexeme with
  | .string name => .building (.object start (.afterKey name token.span) done :: frames)
  | .brokenString whenRead whenSkipped => endIn whenRead whenSkipped
  | .mark '}' =>
      if first then place (closeObject start done (.closed token.span)) frames
      else endIn (Flaw.trailingComma.faultAt next) noKey
  | _ => endIn noKey noKey

def stepColon
    (start : Nat) (name : Except Fault String) (span : Span) (done : List Entry)
    (frames : List Frame) (token : Token Lexeme) :
    Parse :=
  let here := token.span.start
  match token.lexeme with
  | .mark ':' =>
      .building (.object start (.afterColon ⟨name, span, Span.point here⟩) done :: frames)
  | lexeme =>
      let duplicate :=
        match lexeme with
        | .mark '}' => here + 1
        | _ => here
      let fault := Flaw.expectedColon.faultAt (here + 1)
      giveUp fault (.flawed here false fault (some fault))
        (.object start (.afterColon ⟨name, span, Span.point duplicate⟩) done :: frames)

def stepMember
    (start : Nat) (key : Key) (value : Doc) (done : List Entry) (frames : List Frame)
    (token : Token Lexeme) :
    Parse :=
  let here := token.span.start
  let done := ⟨key, value, here⟩ :: done
  match token.lexeme with
  | .mark '}' => place (closeObject start done (.closed token.span)) frames
  | .mark ',' => .building (.object start .afterComma done :: frames)
  | _ =>
      let fault := Flaw.expectedCommaOrEndOfObject.faultAt (here + 1)
      giveUp fault (closeObject start done (.broken fault fault (asValue token))) frames

def stepToken (parse : Parse) (token : Token Lexeme) : Parse :=
  match parse with
  | .over source => .over source
  | .complete root =>
      .over ⟨root, some (Flaw.trailingCharacters.faultAt (token.span.start + 1))⟩
  | .building [] => beginValue [] token
  | .building (.list start stage done :: frames) => stepList start stage done frames token
  | .building (.object start .opened done :: frames) => beginKey start true done frames token
  | .building (.object start (.afterKey name span) done :: frames) =>
      stepColon start name span done frames token
  | .building (.object start (.afterColon key) done :: frames) =>
      beginValue (.object start (.afterColon key) done :: frames) token
  | .building (.object start (.afterValue key value) done :: frames) =>
      stepMember start key value done frames token
  | .building (.object start .afterComma done :: frames) =>
      beginKey start false done frames token

/-- Ends a document at the end of the text, where something may still be open. -/
def endParse (length : Nat) : Parse → Source
  | .over source => source
  | .complete root => ⟨root, none⟩
  | .building [] => ⟨.flawed length false endOfValue (some endOfValue), none⟩
  | .building (.list start .afterComma done :: frames) =>
      ⟨abandon endOfValue
        (closeList start done
          (.broken endOfValue endOfValue (Flaw.trailingCharacters.faultAt length)))
        frames, none⟩
  | .building (.list start _ done :: frames) =>
      ⟨abandon endOfList (closeList start done (.broken endOfList endOfList endOfList)) frames,
        none⟩
  | .building (.object start (.afterKey name span) done :: frames) =>
      ⟨abandon endOfObject (.flawed length false endOfObject (some endOfObject))
        (.object start (.afterColon ⟨name, span, Span.point length⟩) done :: frames), none⟩
  | .building (.object start (.afterColon key) done :: frames) =>
      ⟨abandon endOfValue nothing (.object start (.afterColon key) done :: frames), none⟩
  | .building (.object start (.afterValue key value) done :: frames) =>
      ⟨abandon endOfObject
        (closeObject start (⟨key, value, length⟩ :: done)
          (.broken endOfObject endOfObject nothing))
        frames, none⟩
  | .building (.object start .afterComma done :: frames) =>
      ⟨abandon endOfValue
        (closeObject start done (.broken endOfValue endOfObject nothing)) frames, none⟩
  | .building (.object start .opened done :: frames) =>
      ⟨abandon endOfObject
        (closeObject start done (.broken endOfObject endOfObject nothing)) frames, none⟩
where
  endOfValue : Fault := Flaw.endOfValue.faultAt length
  endOfList : Fault := Flaw.endOfList.faultAt length
  endOfObject : Fault := Flaw.endOfObject.faultAt length
  nothing : Doc := .flawed length false endOfValue (some endOfValue)

def ofTokens (length : Nat) (tokens : List (Token Lexeme)) : Source :=
  endParse length (tokens.foldl stepToken (.building []))

/-- The document of a text, its numbers being read in the given way. -/
def parse (reading : Numeral.Reading) (text : List Char) : Source :=
  ofTokens (Utf8.size text) (Token.scan reading text)

def wording : Wording where
  real := jsonFloat

end Json
end WindsAloft

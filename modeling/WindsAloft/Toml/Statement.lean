import WindsAloft.Text.Utf8
import WindsAloft.Toml.Scalar
import WindsAloft.Toml.Token

/-!
# The statements of a TOML text

A TOML text is a sequence of statements: headers that open a table, headers
that add a table to a list, and entries that give a key a value.
`Toml.statements` finds them by going over the tokens once, with the lists and
inline tables that are still open on a stack.  What the statements mean
together is left to the next step.
-/

namespace WindsAloft
namespace Toml

structure Name where
  text : String
  span : Span
  deriving DecidableEq, Repr

inductive Value where
  | bare (scalar : Bare) (span : Span)
  | text (s : String) (span : Span)
  | list (items : List Value) (span : Span)
  /-- An inline table: its entries, each with the parts of its key. -/
  | table (entries : List (List Name × Value)) (span : Span)

inductive Statement where
  | table (path : List Name) (span : Span)
  | listed (path : List Name) (span : Span)
  | entry (path : List Name) (value : Value)

/-- A piece of a key: a part of it, or a point. -/
inductive KeyPiece where
  | name (name : Name)
  | point
  deriving DecidableEq, Repr

def isKeyChar (c : Char) : Bool :=
  c.isAlphanum || c = '_' || c = '-'

/-- The pieces of an unquoted run, and the part of a key that it ends with. -/
def piecesOfRun (start : Nat) (written : List Char) : Nat → List Char → List KeyPiece
  | offset, [] => endName offset []
  | offset, c :: chars =>
      if c = '.' then
        endName offset (.point :: piecesOfRun (offset + 1) [] (offset + 1) chars)
      else
        piecesOfRun start (c :: written) (offset + c.utf8Size) chars
where
  endName (offset : Nat) (pieces : List KeyPiece) : List KeyPiece :=
    if written.isEmpty then pieces
    else .name ⟨String.ofList written.reverse, ⟨start, offset⟩⟩ :: pieces

/-- The pieces of a key, from its tokens; `none` if there is something else among them. -/
def keyPieces : List (Token Lexeme) → Option (List KeyPiece)
  | [] => some []
  | token :: tokens =>
      match token.lexeme with
      | .blank _ => keyPieces tokens
      | .text s false => (keyPieces tokens).map (.name ⟨s, token.span⟩ :: ·)
      | .run chars =>
          if chars.all fun c => isKeyChar c || c = '.' then
            (keyPieces tokens).map
              (piecesOfRun token.span.start [] token.span.start chars ++ ·)
          else
            none
      | _ => none

def namesOf : List KeyPiece → Option (List Name)
  | [.name name] => some [name]
  | .name name :: .point :: pieces => (namesOf pieces).map (name :: ·)
  | _ => none

/--
How deeply lists and inline tables may be nested, and how many parts a key may
have.
-/
def greatestDepth : Nat := 80

/-- The parts of a key, from its tokens, the last one first. -/
def keyOf (tokens : List (Token Lexeme)) : Option (List Name) :=
  ((keyPieces tokens.reverse).bind namesOf).filter fun names => names.length ≤ greatestDepth

/-- A list or inline table that is still open, or the entry that all this is the value of. -/
inductive Frame where
  | entry (path : List Name)
  | list (start : Nat) (done : List Value)
  | table (start : Nat) (done : List (List Name × Value)) (path : List Name)

/-- What the text goes on with. -/
inductive Stage where
  | lineStart
  | lineEnd
  /-- A header, its first bracket having just been read. -/
  | headerOpened (start : Nat)
  | header (start : Nat) (listed : Bool) (tokens : List (Token Lexeme))
  /-- The second bracket that ends a header. -/
  | headerClosing (start : Nat) (path : List Name)
  | key (tokens : List (Token Lexeme))
  | value (frames : List Frame)
  /-- Perhaps more of an unquoted value. -/
  | bare (frames : List Frame) (chars : List Char) (span : Span)
  /-- The same behind a single blank, behind which the time of a day may follow. -/
  | bareBlank (frames : List Frame) (chars : List Char) (span : Span)
  /-- The key of an inline table, the last token first, or its end. -/
  | inlineKey (start : Nat) (done : List (List Name × Value)) (tokens : List (Token Lexeme))
      (frames : List Frame)
  /-- The equals sign behind the key of an inline table and a line end. -/
  | inlineEquals (start : Nat) (done : List (List Name × Value)) (path : List Name)
      (frames : List Frame)
  /-- A comma, or the end of the innermost list or inline table. -/
  | afterValue (frames : List Frame)

/-- Some statements, the last one first, and what the text goes on with. -/
structure Reading where
  statements : List Statement
  stage : Stage

def depthOf : List Frame → Nat
  | [] => 0
  | .entry _ :: frames => depthOf frames
  | _ :: frames => depthOf frames + 1

def place (statements : List Statement) (value : Value) : List Frame → Reading
  | [] => ⟨statements, .lineEnd⟩
  | .entry path :: _ => ⟨.entry path value :: statements, .lineEnd⟩
  | .list start done :: frames =>
      ⟨statements, .afterValue (.list start (value :: done) :: frames)⟩
  | .table start done path :: frames =>
      ⟨statements, .afterValue (.table start ((path, value) :: done) path :: frames)⟩

def placeBare
    (statements : List Statement) (chars : List Char) (span : Span) (frames : List Frame) :
    Except Flaw Reading :=
  match bare? chars with
  | some bare => .ok (place statements (.bare bare span) frames)
  | none => .error ⟨span.start, "invalid value"⟩

/-- Whether line ends may stand before a value here: in lists and inline tables. -/
def isNested : List Frame → Bool
  | .list _ _ :: _ => true
  | .table _ _ _ :: _ => true
  | _ => false

def unexpected (token : Token Lexeme) (expected : String) : Except Flaw Reading :=
  .error ⟨token.span.start, "expected " ++ expected⟩

def stepValue (statements : List Statement) (frames : List Frame) (token : Token Lexeme) :
    Except Flaw Reading :=
  match token.lexeme, frames with
  | .blank _, _ => .ok ⟨statements, .value frames⟩
  | .lineEnd, frames =>
      if isNested frames then .ok ⟨statements, .value frames⟩ else unexpected token "a value"
  | .text s _, frames => .ok (place statements (.text s token.span) frames)
  | .run chars, frames => .ok ⟨statements, .bare frames chars token.span⟩
  | .mark '[', frames =>
      if depthOf frames < greatestDepth then
        .ok ⟨statements, .value (.list token.span.start [] :: frames)⟩
      else
        .error ⟨token.span.start, "values are nested too deeply"⟩
  | .mark '{', frames =>
      if depthOf frames < greatestDepth then
        .ok ⟨statements, .inlineKey token.span.start [] [] frames⟩
      else
        .error ⟨token.span.start, "values are nested too deeply"⟩
  | .mark ']', .list start done :: frames =>
      .ok (place statements (.list done.reverse ⟨start, token.span.stop⟩) frames)
  | _, _ => unexpected token "a value"

/-- A token behind a complete value in a list or inline table. -/
def stepAfterValue (statements : List Statement) (frames : List Frame) (token : Token Lexeme) :
    Except Flaw Reading :=
  match token.lexeme, frames with
  | .blank _, _ => .ok ⟨statements, .afterValue frames⟩
  | .lineEnd, _ => .ok ⟨statements, .afterValue frames⟩
  | .mark ',', .list start done :: frames =>
      .ok ⟨statements, .value (.list start done :: frames)⟩
  | .mark ']', .list start done :: frames =>
      .ok (place statements (.list done.reverse ⟨start, token.span.stop⟩) frames)
  | .mark ',', .table start done _ :: frames =>
      .ok ⟨statements, .inlineKey start done [] frames⟩
  | .mark '}', .table start done _ :: frames =>
      .ok (place statements (.table done.reverse ⟨start, token.span.stop⟩) frames)
  | _, _ => unexpected token "a comma or the end of the value"

def stepLineEnd (statements : List Statement) (token : Token Lexeme) : Except Flaw Reading :=
  match token.lexeme with
  | .blank _ => .ok ⟨statements, .lineEnd⟩
  | .lineEnd => .ok ⟨statements, .lineStart⟩
  | _ => unexpected token "the end of the line"

/-- A token behind a complete value. -/
def stepBehind (reading : Reading) (token : Token Lexeme) : Except Flaw Reading :=
  match reading.stage with
  | .afterValue frames => stepAfterValue reading.statements frames token
  | _ => stepLineEnd reading.statements token

def stepLineStart (statements : List Statement) (token : Token Lexeme) : Except Flaw Reading :=
  match token.lexeme with
  | .blank _ => .ok ⟨statements, .lineStart⟩
  | .lineEnd => .ok ⟨statements, .lineStart⟩
  | .mark '[' => .ok ⟨statements, .headerOpened token.span.start⟩
  | .text _ _ => .ok ⟨statements, .key [token]⟩
  | .run _ => .ok ⟨statements, .key [token]⟩
  | _ => unexpected token "a key"

def stepHeader
    (statements : List Statement) (start : Nat) (listed : Bool) (tokens : List (Token Lexeme))
    (token : Token Lexeme) :
    Except Flaw Reading :=
  match token.lexeme with
  | .mark ']' =>
      match keyOf tokens, listed with
      | none, _ => .error ⟨start, "invalid key"⟩
      | some path, false => .ok ⟨.table path ⟨start, token.span.stop⟩ :: statements, .lineEnd⟩
      | some path, true => .ok ⟨statements, .headerClosing start path⟩
  | .blank _ => .ok ⟨statements, .header start listed (token :: tokens)⟩
  | .text _ _ => .ok ⟨statements, .header start listed (token :: tokens)⟩
  | .run _ => .ok ⟨statements, .header start listed (token :: tokens)⟩
  | _ => unexpected token "a key"

def stepKey (statements : List Statement) (tokens : List (Token Lexeme)) (token : Token Lexeme) :
    Except Flaw Reading :=
  match token.lexeme with
  | .mark '=' =>
      match keyOf tokens with
      | none => .error ⟨token.span.start, "invalid key"⟩
      | some path => .ok ⟨statements, .value [.entry path]⟩
  | .blank _ => .ok ⟨statements, .key (token :: tokens)⟩
  | .text _ _ => .ok ⟨statements, .key (token :: tokens)⟩
  | .run _ => .ok ⟨statements, .key (token :: tokens)⟩
  | _ => unexpected token "an equals sign"

def stepInlineKey
    (statements : List Statement) (start : Nat) (done : List (List Name × Value))
    (tokens : List (Token Lexeme)) (frames : List Frame) (token : Token Lexeme) :
    Except Flaw Reading :=
  let more := .ok ⟨statements, .inlineKey start done (token :: tokens) frames⟩
  match token.lexeme, tokens with
  | .mark '=', tokens =>
      match keyOf tokens with
      | none => .error ⟨token.span.start, "invalid key"⟩
      | some path => .ok ⟨statements, .value (.table start done path :: frames)⟩
  | .mark '}', [] => .ok (place statements (.table done.reverse ⟨start, token.span.stop⟩) frames)
  | .lineEnd, [] => .ok ⟨statements, .inlineKey start done [] frames⟩
  | .blank _, [] => .ok ⟨statements, .inlineKey start done [] frames⟩
  | .lineEnd, tokens =>
      match keyOf tokens with
      | none => .error ⟨token.span.start, "invalid key"⟩
      | some path => .ok ⟨statements, .inlineEquals start done path frames⟩
  | .blank _, _ => more
  | .text _ _, _ => more
  | .run _, _ => more
  | _, _ => unexpected token "an equals sign"

def stepInlineEquals
    (statements : List Statement) (start : Nat) (done : List (List Name × Value))
    (path : List Name) (frames : List Frame) (token : Token Lexeme) :
    Except Flaw Reading :=
  match token.lexeme with
  | .blank _ => .ok ⟨statements, .inlineEquals start done path frames⟩
  | .lineEnd => .ok ⟨statements, .inlineEquals start done path frames⟩
  | .mark '=' => .ok ⟨statements, .value (.table start done path :: frames)⟩
  | _ => unexpected token "an equals sign"

def beginsWithDigit : List Char → Bool
  | c :: _ => c.isDigit
  | [] => false

def step (reading : Reading) (token : Token Lexeme) : Except Flaw Reading :=
  let statements := reading.statements
  match reading.stage with
  | .lineStart => stepLineStart statements token
  | .lineEnd => stepLineEnd statements token
  | .headerOpened start =>
      if token.lexeme = .mark '[' ∧ token.span.start = start + 1 then
        .ok ⟨statements, .header start true []⟩
      else
        stepHeader statements start false [] token
  | .header start listed tokens => stepHeader statements start listed tokens token
  | .headerClosing start path =>
      if token.lexeme = .mark ']' then
        .ok ⟨.listed path ⟨start, token.span.stop⟩ :: statements, .lineEnd⟩
      else
        unexpected token "a second closing bracket"
  | .key tokens => stepKey statements tokens token
  | .value frames => stepValue statements frames token
  | .bare frames chars span =>
      match token.lexeme with
      | .blank true => .ok ⟨statements, .bareBlank frames chars span⟩
      | _ => (placeBare statements chars span frames).bind fun reading => stepBehind reading token
  | .bareBlank frames chars span =>
      match token.lexeme with
      | .run more =>
          if beginsWithDigit more then
            .ok ⟨statements, .bare frames (chars ++ ' ' :: more) ⟨span.start, token.span.stop⟩⟩
          else
            unexpected token "the end of the value"
      | _ => (placeBare statements chars span frames).bind fun reading => stepBehind reading token
  | .inlineKey start done tokens frames =>
      stepInlineKey statements start done tokens frames token
  | .inlineEquals start done path frames =>
      stepInlineEquals statements start done path frames token
  | .afterValue frames => stepAfterValue statements frames token

def stepAll (reading : Reading) : List (Token Lexeme) → Except Flaw Reading
  | [] => .ok reading
  | token :: tokens =>
      match step reading token with
      | .error flaw => .error flaw
      | .ok reading => stepAll reading tokens

def endStatements (length : Nat) (reading : Reading) : Except Flaw (List Statement) :=
  match reading.stage with
  | .lineStart => .ok reading.statements.reverse
  | .lineEnd => .ok reading.statements.reverse
  | .bare frames chars span => endBare frames chars span
  | .bareBlank frames chars span => endBare frames chars span
  | _ => .error ⟨length, "unexpected end of the text"⟩
where
  endBare (frames : List Frame) (chars : List Char) (span : Span) :
      Except Flaw (List Statement) :=
    (placeBare reading.statements chars span frames).bind fun reading =>
      match reading.stage with
      | .lineEnd => .ok reading.statements.reverse
      | _ => .error ⟨length, "unexpected end of the text"⟩

def statements (text : List Char) : Except Flaw (List Statement) :=
  (Token.scan text).bind fun tokens =>
    (stepAll ⟨[], .lineStart⟩ tokens).bind
      (endStatements (Utf8.size text))

end Toml
end WindsAloft

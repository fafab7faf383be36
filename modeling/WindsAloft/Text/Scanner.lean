import WindsAloft.Text.Utf8

/-!
# Scanners

A scanner cuts a text into tokens.  It is an automaton that looks at one character after the
other, so that scanning two texts behind one another is scanning the first and going on with
the second in the mode reached.
-/

namespace WindsAloft

/-- A stretch of text, in bytes from its beginning. -/
structure Span where
  start : Nat
  stop : Nat
  deriving DecidableEq, Repr, Inhabited

def Span.point (offset : Nat) : Span :=
  ⟨offset, offset⟩

structure Token (Lexeme : Type) where
  span : Span
  lexeme : Lexeme
  deriving Repr

/-- What a character leads to: some tokens, and the mode to go on in, or why the scan stops. -/
structure Scanner.Progress (Lexeme Stop Mode : Type) where
  tokens : List (Token Lexeme)
  mode : Except Stop Mode

namespace Scanner.Progress

variable {Lexeme Stop Mode : Type}

def goOn (mode : Mode) : Progress Lexeme Stop Mode :=
  ⟨[], .ok mode⟩

def emit (token : Token Lexeme) (mode : Mode) : Progress Lexeme Stop Mode :=
  ⟨[token], .ok mode⟩

def stop (why : Stop) : Progress Lexeme Stop Mode :=
  ⟨[], .error why⟩

/-- The same behind a token. -/
def after (token : Token Lexeme) (progress : Progress Lexeme Stop Mode) :
    Progress Lexeme Stop Mode :=
  { progress with tokens := token :: progress.tokens }

end Scanner.Progress

/-- The tokens of a text as far as the scan comes, and why it stops if that is before the end. -/
structure Scanner.Scanned (Lexeme Stop : Type) where
  tokens : List (Token Lexeme)
  stop : Option Stop

def Scanner.Scanned.behind
    {Lexeme Stop : Type}
    (tokens : List (Token Lexeme))
    (scanned : Scanned Lexeme Stop) :
    Scanned Lexeme Stop :=
  { scanned with tokens := tokens ++ scanned.tokens }

structure Scanner (Lexeme Stop Mode : Type) where
  /-- The mode between two tokens. -/
  between : Mode
  /-- One more character at an offset, with the text behind it. -/
  step : Mode → Nat → Char → List Char → Scanner.Progress Lexeme Stop Mode
  finish : Mode → Nat → Scanner.Scanned Lexeme Stop

def Scanner.scanFrom
    {Lexeme Stop Mode : Type}
    (scanner : Scanner Lexeme Stop Mode) :
    Mode → Nat → List Char → Scanned Lexeme Stop
  | mode, offset, [] => scanner.finish mode offset
  | mode, offset, c :: rest =>
      let progress := scanner.step mode offset c rest
      match progress.mode with
      | .error why => ⟨progress.tokens, some why⟩
      | .ok mode => (scanner.scanFrom mode (offset + c.utf8Size) rest).behind progress.tokens

end WindsAloft

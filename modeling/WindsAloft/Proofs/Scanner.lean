import WindsAloft.Proofs.Encoding
import WindsAloft.Text.Scanner

/-!
# What a scanner makes of the texts behind one another

Characters that lead from one mode to another can be put behind one another, and so can texts
that leave the scanner between two tokens: their tokens are those of the one and then of the
other.  Some tokens end only where something else begins, and their texts need to be followed
by that.
-/

namespace WindsAloft
namespace Scanner

variable {Lexeme Stop Mode : Type}

theorem Scanned.behind_append
    (tokens more : List (Token Lexeme))
    (scanned : Scanned Lexeme Stop) :
    scanned.behind (tokens ++ more) = (scanned.behind more).behind tokens := by
  unfold behind
  rw [List.append_assoc]

variable
  {scanner : Scanner Lexeme Stop Mode}
  {mode next last : Mode}
  {token : Token Lexeme}
  {offset : ℕ}
  {c : Char}
  {text more rest : List Char}

section Steps

theorem scanFrom_of_goOn (moves : scanner.step mode offset c rest = .goOn next) :
    scanner.scanFrom mode offset (c :: rest) =
      scanner.scanFrom next (offset + c.utf8Size) rest := by
  rw [scanFrom, moves]
  rfl

theorem scanFrom_of_emit (moves : scanner.step mode offset c rest = .emit token next) :
    scanner.scanFrom mode offset (c :: rest) =
      (scanner.scanFrom next (offset + c.utf8Size) rest).behind [token] := by
  rw [scanFrom, moves]
  rfl

/-- A token that ends in front of a character, at which the scan begins anew. -/
theorem scanFrom_of_after
    (moves :
      scanner.step mode offset c rest = (scanner.step scanner.between offset c rest).after token) :
    scanner.scanFrom mode offset (c :: rest) =
      (scanner.scanFrom scanner.between offset (c :: rest)).behind [token] := by
  rw [scanFrom, moves, scanFrom, Progress.after]
  cases (scanner.step scanner.between offset c rest).mode <;> rfl

end Steps

section Passing

/-- From an offset on, characters lead from one mode to another without a token. -/
def Passes
    (scanner : Scanner Lexeme Stop Mode)
    (offset : ℕ)
    (mode : Mode)
    (text : List Char)
    (next : Mode) : Prop :=
  ∀ rest,
    scanner.scanFrom mode offset (text ++ rest) =
      scanner.scanFrom next (offset + Utf8.size text) rest

theorem Passes.nil : scanner.Passes offset mode [] mode :=
  fun _ => rfl

theorem Passes.cons
    (moves : ∀ rest, scanner.step mode offset c rest = .goOn next)
    (further : scanner.Passes (offset + c.utf8Size) next text last) :
    scanner.Passes offset mode (c :: text) last := by
  intro rest
  rw [List.cons_append, scanFrom_of_goOn (moves _), further, Nat.add_assoc]
  rfl

theorem Passes.append
    (left : scanner.Passes offset mode text next)
    (right : scanner.Passes (offset + Utf8.size text) next more last) :
    scanner.Passes offset mode (text ++ more) last := by
  intro rest
  rw [List.append_assoc, left, right, Utf8.size_append, Nat.add_assoc]

/-- A mode that does nothing but collect characters, the last one first. -/
theorem passes_collecting
    {collecting : List Char → Mode}
    {written : List Char}
    (moves : ∀ c ∈ text, ∀ offset written rest,
      scanner.step (collecting written) offset c rest = .goOn (collecting (c :: written))) :
    scanner.Passes offset (collecting written) text (collecting (text.reverse ++ written)) := by
  induction text generalizing offset written with
  | nil => exact .nil
  | cons c text ih =>
      rw [List.reverse_cons, List.append_assoc]
      exact .cons (moves c List.mem_cons_self offset written)
        (ih fun d among => moves d (List.mem_cons_of_mem c among))

end Passing

section Cutting

/-- A text is cut into tokens of certain contents, wherever it stands, if the rest is fine. -/
def CutsBefore
    (scanner : Scanner Lexeme Stop Mode)
    (fine : List Char → Prop)
    (text : List Char)
    (lexemes : List Lexeme) : Prop :=
  ∀ offset rest, fine rest → ∃ tokens : List (Token Lexeme), tokens.map Token.lexeme = lexemes ∧
    scanner.scanFrom scanner.between offset (text ++ rest) =
      (scanner.scanFrom scanner.between (offset + Utf8.size text) rest).behind tokens

/-- The same whatever the rest is. -/
abbrev Cuts (scanner : Scanner Lexeme Stop Mode) : List Char → List Lexeme → Prop :=
  scanner.CutsBefore fun _ => True

variable {fine good : List Char → Prop} {lexemes others : List Lexeme} {lexeme : Lexeme}

theorem CutsBefore.before (cuts : scanner.Cuts text lexemes) :
    scanner.CutsBefore fine text lexemes :=
  fun offset rest _ => cuts offset rest trivial

theorem CutsBefore.append
    (left : scanner.CutsBefore good text lexemes)
    (right : scanner.CutsBefore fine more others)
    (boundary : ∀ rest, fine rest → good (more ++ rest)) :
    scanner.CutsBefore fine (text ++ more) (lexemes ++ others) := by
  intro offset rest isFine
  obtain ⟨first, firstLexemes, firstCut⟩ := left offset (more ++ rest) (boundary rest isFine)
  obtain ⟨second, secondLexemes, secondCut⟩ := right (offset + Utf8.size text) rest isFine
  refine ⟨first ++ second, by rw [List.map_append, firstLexemes, secondLexemes], ?_⟩
  rw [List.append_assoc, firstCut, secondCut, Scanned.behind_append, Utf8.size_append,
    Nat.add_assoc]

theorem Cuts.append
    (left : scanner.Cuts text lexemes)
    (right : scanner.CutsBefore fine more others) :
    scanner.CutsBefore fine (text ++ more) (lexemes ++ others) :=
  CutsBefore.append left right fun _ _ => trivial

theorem cuts_nil : scanner.Cuts [] [] :=
  fun _ _ _ => ⟨[], rfl, rfl⟩

/-- A token that its last character ends. -/
theorem cuts_of_emit
    {ending : ℕ → Mode}
    (passes : ∀ offset, scanner.Passes offset scanner.between text (ending offset))
    (emits : ∀ offset stop rest, ∃ token : Token Lexeme, token.lexeme = lexeme ∧
      scanner.step (ending offset) stop c rest = .emit token scanner.between) :
    scanner.Cuts (text ++ [c]) [lexeme] := by
  intro offset rest _
  obtain ⟨token, rfl, emitted⟩ := emits offset (offset + Utf8.size text) rest
  refine ⟨[token], rfl, ?_⟩
  rw [List.append_assoc, passes, List.singleton_append, scanFrom_of_emit emitted,
    Utf8.size_append, Nat.add_assoc]
  rfl

/-- A token that ends only with what follows. -/
theorem cutsBefore_of_after
    {ending : ℕ → Mode}
    {token : ℕ → Token Lexeme}
    (passes : ∀ offset, scanner.Passes offset scanner.between text (ending offset))
    (meaning : ∀ offset, (token offset).lexeme = lexeme)
    (atEnd : ∀ offset, let stop := offset + Utf8.size text
      scanner.finish (ending offset) stop =
        (scanner.finish scanner.between stop).behind [token offset])
    (inFront : ∀ offset c rest, fine (c :: rest) → let stop := offset + Utf8.size text
      scanner.step (ending offset) stop c rest =
        (scanner.step scanner.between stop c rest).after (token offset)) :
    scanner.CutsBefore fine text [lexeme] := by
  intro offset rest isFine
  refine ⟨[token offset], congrArg (· :: []) (meaning offset), ?_⟩
  rw [passes]
  cases rest with
  | nil => exact atEnd offset
  | cons c rest => exact scanFrom_of_after (inFront offset c rest isFine)

end Cutting

end Scanner
end WindsAloft

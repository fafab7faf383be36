import Mathlib
import WindsAloft.Codec.Settings
import WindsAloft.Proofs.Scanner
import WindsAloft.Proofs.Toml.Numbers
import WindsAloft.Toml.Statement

/-!
# The tokens of the lines of a TOML text

The scanner cuts a line with a key and a value, and the header of a section, into the
tokens that one would expect.  A line leaves the scanner between two tokens, so that
the tokens of lines behind one another are those of the one and then of the other.
-/

namespace WindsAloft
namespace Toml
namespace Token

variable {offset start : ℕ} {c : Char} {text rest : List Char}

theorem cuts_mark (mark : isMark c = true) : scanner.Cuts [c] [.mark c] := by
  refine Scanner.cuts_of_emit (fun _ => .nil) fun _ stop _ => ⟨⟨⟨stop, stop + 1⟩, .mark c⟩, rfl, ?_⟩
  simp only [isMark, Bool.or_eq_true, decide_eq_true_eq] at mark
  rcases mark with ((((rfl | rfl) | rfl) | rfl) | rfl) | rfl <;> rfl

theorem cuts_lineEnd : scanner.Cuts ['\n'] [.lineEnd] :=
  Scanner.cuts_of_emit (fun _ => .nil) fun _ stop _ => ⟨⟨⟨stop, stop + 1⟩, .lineEnd⟩, rfl, rfl⟩

/-- What cannot stand in the middle of an unquoted run. -/
def EndsRun (c : Char) : Prop :=
  c = ' ' ∨ c = '\t' ∨ c = '\n' ∨ c = '\r' ∨ c = '#' ∨ c = '"' ∨ c = '\'' ∨ isMark c = true

/-- What can stand in an unquoted run. -/
def RunsOn (c : Char) : Prop :=
  ¬ EndsRun c ∧ isControl c = false

instance (c : Char) : Decidable (EndsRun c) :=
  inferInstanceAs (Decidable (_ ∨ _))

instance (c : Char) : Decidable (RunsOn c) :=
  inferInstanceAs (Decidable (_ ∧ _))

/-- Only a printed character of ASCII is a digit, a letter, or one of the other key characters. -/
theorem runsOn_of_isKeyChar (key : isKeyChar c = true) : RunsOn c := by
  have codes : 33 ≤ c.toNat ∧ c.toNat ≤ 122 := by
    simp only [isKeyChar, Char.isAlphanum, Char.isAlpha, Char.isUpper, Char.isLower,
      Char.isDigit, Bool.or_eq_true, Bool.and_eq_true, decide_eq_true_eq,
      UInt32.le_iff_toNat_le, ge_iff_le] at key
    change ((((65 ≤ c.toNat ∧ c.toNat ≤ 90) ∨ (97 ≤ c.toNat ∧ c.toNat ≤ 122)) ∨
      (48 ≤ c.toNat ∧ c.toNat ≤ 57)) ∨ c = '_') ∨ c = '-' at key
    rcases key with (((upper | lower) | digit) | rfl) | rfl
    · omega
    · omega
    · omega
    · decide
    · decide
  constructor
  · rintro (rfl | rfl | rfl | rfl | rfl | rfl | rfl | mark)
    iterate 7 cases key
    simp only [isMark, Bool.or_eq_true, decide_eq_true_eq] at mark
    rcases mark with ((((rfl | rfl) | rfl) | rfl) | rfl) | rfl <;> cases key
  · simp only [isControl, Bool.or_eq_false_iff, Bool.and_eq_false_iff, decide_eq_false_iff_not]
    exact ⟨.inl (by omega), by omega⟩

theorem runsOn_of_isDigit (digit : c.isDigit = true) : RunsOn c := by
  apply runsOn_of_isKeyChar
  simp [isKeyChar, Char.isAlphanum, digit]

/-- An unquoted run. -/
structure IsRun (text : List Char) : Prop where
  nonempty : text ≠ []
  runs : ∀ c ∈ text, RunsOn c

/-- The end of the text, or a character that ends an unquoted run. -/
def RunMayEnd (rest : List Char) : Prop :=
  ∀ c ∈ rest.head?, EndsRun c

theorem begin_of_runsOn (runs : RunsOn c) : begin offset c = .goOn (.run offset [c]) := by
  obtain ⟨noEnd, noControl⟩ := runs
  unfold EndsRun at noEnd
  unfold begin
  simp only [not_or] at noEnd
  obtain ⟨noBlank, noTab, noNewline, noReturn, noComment, noQuote, noQuote', noMark⟩ := noEnd
  rw [if_neg noBlank, if_neg noTab, if_neg noNewline, if_neg noReturn, if_neg noComment,
    if_neg (not_or.mpr ⟨noQuote, noQuote'⟩), if_neg noMark, if_neg (Bool.eq_false_iff.mp noControl)]

theorem step_run {written : List Char} (runs : RunsOn c) :
    step (.run start written) offset c = .goOn (.run start (c :: written)) := by
  obtain ⟨noEnd, noControl⟩ := runs
  unfold EndsRun at noEnd
  rw [step, if_neg noEnd, if_neg (Bool.eq_false_iff.mp noControl)]

theorem passes_run (isRun : IsRun text) (offset : ℕ) :
    scanner.Passes offset .between text (.run offset text.reverse) := by
  obtain ⟨c, more, rfl⟩ := List.exists_cons_of_ne_nil isRun.nonempty
  rw [List.reverse_cons]
  have begins (rest : List Char) : scanner.step .between offset c rest = .goOn (.run offset [c]) :=
    begin_of_runsOn (isRun.runs c List.mem_cons_self)
  exact .cons begins (Scanner.passes_collecting fun d among _ _ _ =>
    step_run (isRun.runs d (List.mem_cons_of_mem c among)))

/-- What follows tells that the run is over, and only then is its token there. -/
theorem cutsBefore_run (isRun : IsRun text) : scanner.CutsBefore RunMayEnd text [.run text] := by
  have meant (offset : ℕ) :
      Token.lexeme ⟨⟨offset, offset + Utf8.size text⟩, Lexeme.run text⟩ = .run text := rfl
  refine Scanner.cutsBefore_of_after (passes_run isRun) meant (fun offset => ?_)
    fun offset c rest ends => ?_
  · intro stop
    show finish (.run offset text.reverse) stop = _
    rw [finish, List.reverse_reverse]
    rfl
  · have stops := ends c rfl
    unfold EndsRun at stops
    intro stop
    show step (.run offset text.reverse) stop c = _
    rw [step, if_pos stops, List.reverse_reverse]
    rfl

/-- The end of the text, or no further blank. -/
def BlankMayEnd (rest : List Char) : Prop :=
  ∀ c ∈ rest.head?, ¬ (c = ' ' ∨ c = '\t')

/-- A run does not begin with a blank. -/
theorem IsRun.blankMayEnd (isRun : IsRun text) : BlankMayEnd (text ++ rest) := by
  obtain ⟨c, more, rfl⟩ := List.exists_cons_of_ne_nil isRun.nonempty
  rintro d ⟨⟩ blank
  exact (isRun.runs c List.mem_cons_self).1 (blank.imp_right .inl)

theorem cutsBefore_blank : scanner.CutsBefore BlankMayEnd [' '] [.blank true] := by
  have passes (offset : ℕ) : scanner.Passes offset .between [' '] (.blank offset true) :=
    .cons (fun _ => rfl) .nil
  have meant (offset : ℕ) :
      Token.lexeme ⟨⟨offset, offset + Utf8.size [' ']⟩, Lexeme.blank true⟩ = .blank true := rfl
  refine Scanner.cutsBefore_of_after passes meant (fun _ => rfl) fun offset c rest ends => ?_
  exact if_neg (ends c rfl)

section Quoted

/-- A printed character that stands for itself in double quotes. -/
def IsPlain (c : Char) : Prop :=
  32 ≤ c.toNat ∧ c.toNat ≠ 127 ∧ c ≠ '"' ∧ c ≠ '\\'

instance (c : Char) : Decidable (IsPlain c) :=
  inferInstanceAs (Decidable (_ ∧ _))

theorem escapeChar_of_isPlain (plain : IsPlain c) : Json.escapeChar c = [c] := by
  obtain ⟨printed, -, noQuote, noBackslash⟩ := plain
  rw [Json.escapeChar, if_neg noQuote, if_neg noBackslash, if_neg (by omega), if_neg (by omega),
    if_neg (by omega), if_neg (by omega), if_neg (by omega), if_neg (by omega)]

theorem quoted_of_isPlain {s : String} (plain : ∀ c ∈ s.toList, IsPlain c) :
    Json.quoted s = '"' :: (s.toList ++ ['"']) := by
  have same : s.toList.flatMap Json.escapeChar = s.toList.flatMap fun c => [c] :=
    List.flatMap_congr fun c among => escapeChar_of_isPlain (plain c among)
  rw [Json.quoted, same, List.flatMap_singleton']

theorem stepBasicPlain_of_isPlain {written : List Char} (plain : IsPlain c) :
    stepBasicPlain start false written offset c =
      .goOn (.basic start false .plain (c :: written)) := by
  obtain ⟨printed, noDelete, noQuote, noBackslash⟩ := plain
  have noControl : isControl c ≠ true := by
    simp only [isControl, ne_eq, Bool.or_eq_true, Bool.and_eq_true, decide_eq_true_eq]
    omega
  rw [stepBasicPlain, if_neg noQuote, if_neg noBackslash, if_neg (by simp), if_neg (by simp),
    if_neg noControl]

/-- Printed characters in double quotes. -/
theorem cuts_quoted {s : String} (nonempty : s ≠ "") (plain : ∀ c ∈ s.toList, IsPlain c) :
    scanner.Cuts (Json.quoted s) [.text s false] := by
  obtain ⟨c, more, chars⟩ : ∃ c more, s.toList = c :: more :=
    List.exists_cons_of_ne_nil (mt String.toList_eq_nil_iff.mp nonempty)
  have first : IsPlain c := plain c (by rw [chars]; exact List.mem_cons_self)
  have others : ∀ d ∈ more, IsPlain d := by
    intro d among
    exact plain d (by rw [chars]; exact List.mem_cons_of_mem _ among)
  have opened (offset : ℕ) (rest : List Char) :
      scanner.step (.opening offset '"' false) (offset + '"'.utf8Size) c rest =
        .goOn (.basic offset false .plain [c]) := by
    show step (.opening offset '"' false) _ c = _
    rw [step, if_neg first.2.2.1]
    exact stepBasicPlain_of_isPlain first
  have passes (offset : ℕ) : scanner.Passes offset .between ('"' :: c :: more)
      (.basic offset false .plain (more.reverse ++ [c])) :=
    .cons (fun _ => rfl) (.cons (opened offset) (Scanner.passes_collecting fun d among _ _ _ =>
      stepBasicPlain_of_isPlain (others d among)))
  have same : String.ofList (more.reverse ++ [c]).reverse = s := by
    rw [List.reverse_append, List.reverse_reverse, List.reverse_singleton, List.singleton_append,
      ← chars, String.ofList_toList]
  rw [quoted_of_isPlain plain, chars]
  refine Scanner.cuts_of_emit passes fun offset stop rest =>
    ⟨⟨⟨offset, stop + 1⟩, .text s false⟩, rfl, ?_⟩
  show Scanner.Progress.emit
    ⟨_, Lexeme.text (String.ofList (more.reverse ++ [c]).reverse) false⟩ Mode.between = _
  rw [same]
  rfl

end Quoted

end Token
end Toml
end WindsAloft

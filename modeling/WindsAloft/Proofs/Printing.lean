import WindsAloft.Proofs.Decimal.Written
import WindsAloft.Report

/-!
# Answers are printed on one line each

No notation for a number has a newline, and in a quoted text newlines are escaped.  So a
document without blanks stays on one line whatever it holds, and an answer does, both for
people and as JSON.
-/

namespace WindsAloft

/-- Whether a text stays on one line. -/
def OnOneLine (text : List Char) : Prop :=
  '\n' ∉ text

instance (text : List Char) : Decidable (OnOneLine text) :=
  inferInstanceAs (Decidable (_ ∉ _))

namespace OnOneLine

variable {text more : List Char}

@[simp] theorem nil : OnOneLine [] :=
  List.not_mem_nil

@[simp] theorem cons_iff {c : Char} : OnOneLine (c :: text) ↔ c ≠ '\n' ∧ OnOneLine text := by
  rw [OnOneLine, List.mem_cons, not_or, ne_comm]
  rfl

@[simp] theorem append_iff : OnOneLine (text ++ more) ↔ OnOneLine text ∧ OnOneLine more := by
  rw [OnOneLine, List.mem_append, not_or]
  rfl

theorem of_subset (within : text ⊆ more) (line : OnOneLine more) : OnOneLine text :=
  fun inside => line (within inside)

theorem take (count : ℕ) (line : OnOneLine text) : OnOneLine (text.take count) :=
  line.of_subset (List.take_subset count text)

theorem drop (count : ℕ) (line : OnOneLine text) : OnOneLine (text.drop count) :=
  line.of_subset (List.drop_subset count text)

/-- A point within a text does not break the line. -/
theorem withPoint (line : OnOneLine text) (count : ℕ) :
    OnOneLine (text.take count ++ '.' :: text.drop count) := by
  simp [line.take count, line.drop count]

@[simp] theorem zeros (count : ℕ) : OnOneLine (List.replicate count '0') :=
  fun inside => absurd (List.eq_of_mem_replicate inside) (by decide)

theorem flatMap
    {α : Type}
    {write : α → List Char}
    (lines : ∀ value, OnOneLine (write value))
    (values : List α) :
    OnOneLine (values.flatMap write) := by
  intro inside
  obtain ⟨value, -, here⟩ := List.mem_flatMap.mp inside
  exact lines value here

end OnOneLine

section Numbers

@[simp] theorem onOneLine_toDigits (n : ℕ) : OnOneLine (Nat.toDigits 10 n) := by
  intro inside
  exact absurd ((areDigits_digitChars n).digits _ inside) (by decide)

@[simp] theorem onOneLine_digitChars (n : ℕ) : OnOneLine (digitChars n) :=
  onOneLine_toDigits n

theorem onOneLine_integerChars (n : ℤ) : OnOneLine (integerChars n) := by
  unfold integerChars
  split <;> simp

theorem onOneLine_signed (negative : Bool) {text : List Char} (line : OnOneLine text) :
    OnOneLine (signed negative text) := by
  unfold signed
  split
  · simp [line]
  · exact line

namespace Decimal

theorem onOneLine_plain (decimal : Decimal) : OnOneLine decimal.plain := by
  have digits := onOneLine_digitChars decimal.digits
  unfold plain
  split
  · split <;> simp
  · simp only
    split
    · exact digits.withPoint _
    · simp

theorem onOneLine_pointed (decimal : Decimal) : OnOneLine decimal.pointed := by
  unfold pointed
  split <;> simp [onOneLine_plain]

theorem onOneLine_scientific (decimal : Decimal) : OnOneLine decimal.scientific := by
  have digits := onOneLine_digitChars decimal.digits
  simp only [scientific, OnOneLine.append_iff, OnOneLine.cons_iff]
  refine ⟨⟨digits.take 1, ?_⟩, by decide, ?_, onOneLine_digitChars _⟩
  · split
    · exact .nil
    · exact OnOneLine.cons_iff.mpr ⟨by decide, digits.drop 1⟩
  · split <;> decide

theorem onOneLine_adaptive (decimal : Decimal) : OnOneLine decimal.adaptive := by
  unfold adaptive
  split
  · exact onOneLine_pointed decimal
  · exact onOneLine_scientific decimal

end Decimal

theorem onOneLine_displayFloat (x : Float) : OnOneLine (displayFloat x) := by
  unfold displayFloat
  split
  · simp
  · exact onOneLine_signed _ (by simp)
  · exact onOneLine_signed _ (Decimal.onOneLine_plain _)

theorem onOneLine_jsonFloat (x : Float) : OnOneLine (jsonFloat x) := by
  unfold jsonFloat
  split
  · simp
  · simp
  · exact onOneLine_signed _ (Decimal.onOneLine_adaptive _)

theorem onOneLine_withPlaces (places n : ℕ) : OnOneLine (withPlaces places n) := by
  have padded (zeros : ℕ) : OnOneLine (List.replicate zeros '0' ++ digitChars n) := by simp
  unfold withPlaces
  simp only
  split
  · exact padded _
  · exact (padded _).withPoint _

theorem onOneLine_fixedFloat (places : ℕ) (x : Float) : OnOneLine (fixedFloat places x) := by
  unfold fixedFloat
  split
  · simp
  · exact onOneLine_signed _ (by simp)
  · exact onOneLine_signed _ (onOneLine_withPlaces places _)

end Numbers

namespace Json

/-- A hexadecimal digit is no newline. -/
theorem hexChar_ne_newline {n : ℕ} (small : n < 16) : hexChar n ≠ '\n' := by
  interval_cases n <;> decide

/-- In quotes newlines are escaped. -/
theorem onOneLine_escapeChar (c : Char) : OnOneLine (escapeChar c) := by
  by_cases newline : c = '\n'
  · subst newline
    decide
  · have itself : OnOneLine [c] := OnOneLine.cons_iff.mpr ⟨newline, .nil⟩
    have code (control : c.toNat < 32) :
        OnOneLine ['\\', 'u', '0', '0', hexChar (c.toNat / 16), hexChar (c.toNat % 16)] := by
      have high := hexChar_ne_newline (n := c.toNat / 16) (by omega)
      have low := hexChar_ne_newline (n := c.toNat % 16) (by omega)
      simp [high, low]
    unfold escapeChar
    repeat' split
    all_goals first
      | decide
      | exact code ‹_›
      | exact itself

theorem onOneLine_quoted (s : String) : OnOneLine (quoted s) := by
  simp [quoted, OnOneLine.flatMap onOneLine_escapeChar]

theorem onOneLine_boolChars (b : Bool) : OnOneLine (boolChars b) := by
  cases b <;> decide

mutual

/-- A document without blanks stays on one line. -/
theorem onOneLine_compactChars : (json : Json) → OnOneLine json.compactChars
  | .null => by simp [compactChars]
  | .bool b => onOneLine_boolChars b
  | .integer n => onOneLine_integerChars n
  | .real x => onOneLine_jsonFloat x
  | .text s => onOneLine_quoted s
  | .list items => by
      simp [compactChars, onOneLine_compactItems items]
  | .object members => by
      simp [compactChars, onOneLine_compactMembers members]

theorem onOneLine_compactItems : (items : List Json) → OnOneLine (compactItems items)
  | [] => .nil
  | [item] => onOneLine_compactChars item
  | item :: other :: items => by
      have first := onOneLine_compactChars item
      have others := onOneLine_compactItems (other :: items)
      simp [compactItems, first, others]

theorem onOneLine_compactMembers :
    (members : List (String × Json)) → OnOneLine (compactMembers members)
  | [] => .nil
  | [(name, value)] => by
      simp [compactMembers, onOneLine_quoted name, onOneLine_compactChars value]
  | (name, value) :: other :: members => by
      have first := onOneLine_compactChars value
      have others := onOneLine_compactMembers (other :: members)
      simp [compactMembers, onOneLine_quoted name, first, others]

end

end Json

namespace Outcome

theorem onOneLine_describe (outcome : Outcome) : OnOneLine outcome.describe.toList := by
  unfold describe
  simp only
  split <;>
    simp [onOneLine_displayFloat, onOneLine_fixedFloat]

/-- An answer is printed on one line. -/
theorem onOneLine_line (json : Bool) (outcome : Outcome) :
    OnOneLine (outcome.line json).toList := by
  unfold line
  split
  · rw [Json.compact, String.toList_ofList]
    exact Json.onOneLine_compactChars outcome.toJson
  · exact onOneLine_describe outcome

end Outcome
end WindsAloft

import WindsAloft.Loading
import WindsAloft.Proofs.Weights

/-!
# The rules for settings

A rule is about one setting.  It says when the setting is fine and what is complained of
otherwise.  Doubles are meant exactly: a rule about zero asks for a finite number on the
right side of it, so that nothing else passes and the negative zero counts as zero.

Checking settings comes down to a list of rules.  The first one that is broken is
reported, whatever else is wrong, and settings that break none are handed on.
-/

namespace WindsAloft
namespace Settings

open Binary64

attribute [local irreducible] unit overflow

/-- A rule about one setting. -/
structure Rule where
  field : String
  Kept : Settings → Prop
  [decidable : DecidablePred Kept]
  /-- What is wrong where the rule is broken. -/
  message : Settings → String

instance (rule : Rule) : DecidablePred rule.Kept :=
  rule.decidable

namespace Rule

/-- The complaint about settings that break a rule. -/
def complaint (rule : Rule) (settings : Settings) : Complaint :=
  ⟨rule.field, rule.message settings⟩

/-- What a rule has against settings. -/
def objection? (rule : Rule) (settings : Settings) : Option Complaint :=
  if rule.Kept settings then none else some (rule.complaint settings)

/-- There has to be room for a sample. -/
def room : Rule where
  field := "store.capacity"
  Kept settings := 0 < settings.capacity.toNat
  message _ := "capacity must be > 0"

/-- Quality must not count against a sample. -/
def penalty : Rule where
  field := "eviction.quality_penalty"
  Kept settings := 0 ≤ settings.ageing.qualityPenalty.toInt
  message settings :=
    "quality_penalty must be >= 0, got "
      ++ String.ofList (integerChars settings.ageing.qualityPenalty.toInt)

/-- A double has to be a finite number above zero. -/
def aboveZero (name : String) (value : Settings → Float) : Rule where
  field := "estimator." ++ name
  Kept settings := ∃ a ∈ quanta? (value settings), 0 < a
  message settings :=
    "must be a finite value > 0, got " ++ String.ofList (displayFloat (value settings))

/-- A double has to be a finite number that is not below zero. -/
def notBelowZero (name : String) (value : Settings → Float) : Rule where
  field := "estimator." ++ name
  Kept settings := ∃ a ∈ quanta? (value settings), 0 ≤ a
  message settings :=
    "must be a finite value >= 0, got " ++ String.ofList (displayFloat (value settings))

end Rule

/-- All rules, in the order in which they are reported. -/
def rules : List Rule :=
  [ .room
  , .penalty
  , .aboveZero "altitude_range" fun settings => settings.kernel.altitudeRange
  , .aboveZero "time_range" fun settings => settings.kernel.timeRange
  , .aboveZero "time_kernel_k" fun settings => settings.kernel.timeSharpness
  , .aboveZero "max_quality" fun settings => settings.kernel.maxQuality
  , .notBelowZero "quality_factor" fun settings => settings.kernel.qualityFactor
  , .notBelowZero "altitude_factor" fun settings => settings.kernel.altitudeFactor
  , .notBelowZero "time_factor" fun settings => settings.kernel.timeFactor ]

section Doubles

variable {x : Float}

theorem isPositive_iff : IsPositive x ↔ ∃ a ∈ quanta? x, 0 < a := by
  refine ⟨fun positive => positive.exists_quanta?, ?_⟩
  rintro ⟨a, value, above⟩
  refine ⟨(isFinite_iff x).mpr ⟨a, value⟩, ?_⟩
  rw [le_iff_quanta_le value quanta?_zero]
  exact above.not_ge

theorem isNonnegative_iff : IsNonnegative x ↔ ∃ a ∈ quanta? x, 0 ≤ a := by
  refine ⟨fun nonnegative => nonnegative.exists_quanta?, ?_⟩
  rintro ⟨a, value, least⟩
  refine ⟨(isFinite_iff x).mpr ⟨a, value⟩, ?_⟩
  rw [lt_iff_quanta_lt value quanta?_zero]
  exact least.not_gt

end Doubles

section Objections

variable (settings : Settings)

theorem room_eq_objection? : room settings.capacity = Rule.room.objection? settings := by
  unfold room Rule.objection?
  by_cases none : settings.capacity = 0
  · have broken : ¬ Rule.room.Kept settings := by
      show ¬ 0 < settings.capacity.toNat
      rw [none]
      decide
    rw [if_pos none, if_neg broken]
    rfl
  · have kept : Rule.room.Kept settings :=
      Nat.pos_of_ne_zero fun zero => none (UInt64.toNat_inj.mp zero)
    rw [if_neg none, if_pos kept]

theorem penalty_eq_objection? : penalty settings.ageing = Rule.penalty.objection? settings := by
  unfold penalty Rule.objection?
  by_cases negative : settings.ageing.qualityPenalty < 0
  · have broken : ¬ Rule.penalty.Kept settings := (Int64.lt_iff_toInt_lt.mp negative).not_ge
    rw [if_pos negative, if_neg broken]
    rfl
  · have kept : Rule.penalty.Kept settings := Int64.le_iff_toInt_le.mp (Int64.not_lt.mp negative)
    rw [if_neg negative, if_pos kept]

theorem positive_eq_objection? (name : String) (value : Settings → Float) :
    positive name (value settings) = (Rule.aboveZero name value).objection? settings := by
  unfold positive Rule.objection?
  simp only [isPositive_iff]
  rfl

theorem nonnegative_eq_objection? (name : String) (value : Settings → Float) :
    nonnegative name (value settings) = (Rule.notBelowZero name value).objection? settings := by
  unfold nonnegative Rule.objection?
  simp only [isNonnegative_iff]
  rfl

theorem findSome?_cons_eq_orElse {α β : Type} (f : α → Option β) (a : α) (as : List α) :
    (a :: as).findSome? f = (f a <|> as.findSome? f) := by
  rw [List.findSome?_cons]
  cases f a <;> rfl

/-- What is complained of is the first objection. -/
theorem complaint?_eq_findSome? :
    settings.complaint? = rules.findSome? fun rule => rule.objection? settings := by
  have last (o : Option Complaint) : (o <|> none) = o := by
    cases o <;> rfl
  simp only [rules, findSome?_cons_eq_orElse, List.findSome?_nil, last,
    ← room_eq_objection?, ← penalty_eq_objection?, ← positive_eq_objection?,
    ← nonnegative_eq_objection?]
  rfl

end Objections

theorem Rule.objection?_eq_none_iff (rule : Rule) (settings : Settings) :
    rule.objection? settings = none ↔ rule.Kept settings := by
  unfold objection?
  split <;> simp_all

theorem Rule.objection?_eq_some_iff {rule : Rule} {settings : Settings} {complaint : Complaint} :
    rule.objection? settings = some complaint ↔
      ¬ rule.Kept settings ∧ complaint = rule.complaint settings := by
  unfold objection?
  split
  · next kept => simp [kept]
  · next broken => simp [broken, eq_comm]

/-- Settings are valid if they break no rule. -/
theorem valid_iff (settings : Settings) :
    settings.Valid ↔ ∀ rule ∈ rules, rule.Kept settings := by
  simp only [Valid, complaint?_eq_findSome?, List.findSome?_eq_none_iff,
    Rule.objection?_eq_none_iff]

/-- The first rule that settings break. -/
structure FirstBroken (settings : Settings) (rule : Rule) : Prop where
  broken : ¬ rule.Kept settings
  first : ∃ before after, rules = before ++ rule :: after ∧
    ∀ earlier ∈ before, earlier.Kept settings

theorem complaint?_eq_some_iff {settings : Settings} {complaint : Complaint} :
    settings.complaint? = some complaint ↔
      ∃ rule, settings.FirstBroken rule ∧ complaint = rule.complaint settings := by
  rw [complaint?_eq_findSome?, List.findSome?_eq_some_iff]
  simp only [Rule.objection?_eq_none_iff, Rule.objection?_eq_some_iff]
  constructor
  · rintro ⟨before, rule, after, split, ⟨broken, said⟩, kept⟩
    exact ⟨rule, ⟨broken, before, after, split, kept⟩, said⟩
  · rintro ⟨rule, ⟨broken, before, after, split, kept⟩, said⟩
    exact ⟨before, rule, after, split, ⟨broken, said⟩, kept⟩

section Loading

variable {settings checked : Settings}

theorem validate_eq_ok_iff :
    settings.validate = .ok checked ↔ settings.Valid ∧ settings = checked := by
  unfold validate Valid
  cases settings.complaint? <;> simp

theorem validate_eq_error_iff {fault : LoadFault} :
    settings.validate = .error fault ↔
      ∃ complaint, settings.complaint? = some complaint ∧ fault = .invalid complaint := by
  unfold validate
  cases settings.complaint? <;> simp [eq_comm]

/-- What is loaded was parsed and found valid. -/
theorem ofTextWith_eq_ok_iff {reading : Numeral.Reading} {format : Format} {text : List Char} :
    ofTextWith reading format text = .ok settings ↔
      parseWith reading format text = .ok settings ∧ settings.Valid := by
  unfold ofTextWith
  cases parseWith reading format text with
  | error fault => simp [Except.bind]
  | ok parsed =>
      change parsed.validate = .ok settings ↔ _
      rw [validate_eq_ok_iff, Except.ok.injEq]
      constructor
      · rintro ⟨valid, rfl⟩
        exact ⟨rfl, valid⟩
      · rintro ⟨rfl, valid⟩
        exact ⟨valid, rfl⟩

end Loading

/--
Settings are handed on if and only if they keep all rules.  Otherwise the complaint is the one
of the first rule that they break.  So whatever is loaded from a text keeps all rules.
-/
theorem validate_by_rules :
    (∀ settings checked : Settings,
      settings.validate = .ok checked ↔
        (∀ rule ∈ rules, rule.Kept settings) ∧ settings = checked) ∧
    (∀ (settings : Settings) (fault : LoadFault),
      settings.validate = .error fault ↔
        ∃ rule, settings.FirstBroken rule ∧ fault = .invalid (rule.complaint settings)) ∧
    ∀ (reading : Numeral.Reading) (format : Format) (text : List Char) (loaded : Settings),
      ofTextWith reading format text = .ok loaded → ∀ rule ∈ rules, rule.Kept loaded := by
  refine ⟨?_, ?_, ?_⟩
  · intro settings checked
    rw [validate_eq_ok_iff, valid_iff]
  · intro settings fault
    rw [validate_eq_error_iff]
    simp only [complaint?_eq_some_iff]
    constructor
    · rintro ⟨_, ⟨rule, first, rfl⟩, same⟩
      exact ⟨rule, first, same⟩
    · rintro ⟨rule, first, same⟩
      exact ⟨_, ⟨rule, first, rfl⟩, same⟩
  · intro reading format text loaded load
    exact (valid_iff loaded).mp (ofTextWith_eq_ok_iff.mp load).2

/-- Settings that break rules of all three kinds, the first one with a negative zero. -/
def crooked : Settings :=
  { classic with
    kernel :=
      { Kernel.classic with
        timeRange := -0.0
        maxQuality := 0.0 / 0.0
        qualityFactor := -0.0
        timeFactor := -1.0 / 0.0 } }

/-- They are refused for the negative zero, and the usual settings are loaded from nothing. -/
theorem crooked_refused_for_timeRange :
    crooked.validate =
        .error (.invalid ⟨"estimator.time_range", "must be a finite value > 0, got -0"⟩) ∧
      ofText .toml [] = .ok .classic ∧ ∀ rule ∈ rules, rule.Kept .classic := by
  obtain ⟨-, refused, kept⟩ := validate_by_rules
  have loads : ofText .toml [] = .ok .classic := rfl
  let rule : Rule := .aboveZero "time_range" fun settings => settings.kernel.timeRange
  have first : crooked.FirstBroken rule :=
    ⟨by decide +kernel, rules.take 3, rules.drop 4, rfl, by decide +kernel⟩
  have message :
      rule.complaint crooked =
        ⟨"estimator.time_range", "must be a finite value > 0, got -0"⟩ := by
    decide +kernel
  refine ⟨(refused _ _).mpr ⟨rule, first, ?_⟩, loads, kept _ _ _ _ loads⟩
  rw [message]

end Settings
end WindsAloft

import WindsAloft.Loading
import WindsAloft.Proofs.Document.Given
import WindsAloft.Proofs.Json.Parsing
import WindsAloft.Proofs.Toml.Assembling

/-!
# Drafts of settings

A draft names some of the settings: any of the sections, and any of the members of those
that are there.  It can be written as a JSON document and as a TOML document with just
these members, and it can be laid over settings, which it changes where it says
something.  Reading either document lays the draft over the classic settings.
-/

namespace WindsAloft

/-- A number that both formats can express. -/
inductive Numeric where
  | integer (n : Int64)
  | real (x : Float)
  deriving DecidableEq, Repr

namespace Numeric

/-- The double that a number stands for. -/
def toFloat : Numeric → Float
  | integer n => .ofInt n.toInt
  | real x => x

def toJson : Numeric → Json
  | integer n => .integer n.toInt
  | real x => .real x

/-- The double that is written, if it is one. -/
def double? : Numeric → Option Float
  | integer _ => none
  | real x => some x

/-- The same number with another double, if it is one. -/
def mapDouble (reread : Float → Float) : Numeric → Numeric
  | integer n => integer n
  | real x => real (reread x)

theorem toJson_mapDouble (reread : Float → Float) (number : Numeric) :
    (number.mapDouble reread).toJson = number.toJson.mapReals reread := by
  cases number <;> rfl

end Numeric

/-- Some members of the section about eviction. -/
structure Ageing.Draft where
  qualityPenalty : Option Int64 := none
  qualityCeiling : Option Int32 := none
  deriving DecidableEq, Repr

/-- Some members of the section about the kernel. -/
structure Kernel.Draft where
  altitudeRange : Option Numeric := none
  timeRange : Option Numeric := none
  qualityFactor : Option Numeric := none
  altitudeFactor : Option Numeric := none
  timeFactor : Option Numeric := none
  timeSharpness : Option Numeric := none
  maxQuality : Option Numeric := none
  deriving DecidableEq, Repr

/-- Some sections of the settings, and some members of each. -/
structure Settings.Draft where
  version : Option Version := none
  /-- The section about the store, whose only member is the capacity. -/
  store : Option (Option UInt64) := none
  ageing : Option Ageing.Draft := none
  kernel : Option Kernel.Draft := none
  deriving DecidableEq, Repr

namespace Ageing.Draft

/-- The parameters with those of the draft in their places. -/
def onto (draft : Ageing.Draft) (ageing : Ageing) : Ageing where
  qualityPenalty := draft.qualityPenalty.getD ageing.qualityPenalty
  qualityCeiling := draft.qualityCeiling.getD ageing.qualityCeiling

/-- The members by their names. -/
def fields (draft : Ageing.Draft) : List (String × Option Json) :=
  [ ("quality_penalty", draft.qualityPenalty.map fun n => .integer n.toInt)
  , ("quality_ceiling", draft.qualityCeiling.map fun n => .integer n.toInt) ]

end Ageing.Draft

namespace Kernel.Draft

/-- The parameters with those of the draft in their places. -/
def onto (draft : Kernel.Draft) (kernel : Kernel) : Kernel where
  altitudeRange := (draft.altitudeRange.map Numeric.toFloat).getD kernel.altitudeRange
  timeRange := (draft.timeRange.map Numeric.toFloat).getD kernel.timeRange
  qualityFactor := (draft.qualityFactor.map Numeric.toFloat).getD kernel.qualityFactor
  altitudeFactor := (draft.altitudeFactor.map Numeric.toFloat).getD kernel.altitudeFactor
  timeFactor := (draft.timeFactor.map Numeric.toFloat).getD kernel.timeFactor
  timeSharpness := (draft.timeSharpness.map Numeric.toFloat).getD kernel.timeSharpness
  maxQuality := (draft.maxQuality.map Numeric.toFloat).getD kernel.maxQuality

/-- The numbers by their names. -/
def numbers (draft : Kernel.Draft) : List (String × Option Numeric) :=
  [ ("altitude_range", draft.altitudeRange)
  , ("time_range", draft.timeRange)
  , ("quality_factor", draft.qualityFactor)
  , ("altitude_factor", draft.altitudeFactor)
  , ("time_factor", draft.timeFactor)
  , ("time_kernel_k", draft.timeSharpness)
  , ("max_quality", draft.maxQuality) ]

/-- The members by their names. -/
def fields (draft : Kernel.Draft) : List (String × Option Json) :=
  draft.numbers.map fun (name, number?) => (name, number?.map Numeric.toJson)

/-- The draft with other doubles. -/
def mapDoubles (reread : Float → Float) (draft : Kernel.Draft) : Kernel.Draft where
  altitudeRange := draft.altitudeRange.map (Numeric.mapDouble reread)
  timeRange := draft.timeRange.map (Numeric.mapDouble reread)
  qualityFactor := draft.qualityFactor.map (Numeric.mapDouble reread)
  altitudeFactor := draft.altitudeFactor.map (Numeric.mapDouble reread)
  timeFactor := draft.timeFactor.map (Numeric.mapDouble reread)
  timeSharpness := draft.timeSharpness.map (Numeric.mapDouble reread)
  maxQuality := draft.maxQuality.map (Numeric.mapDouble reread)

end Kernel.Draft

namespace Settings.Draft

/-- The settings with those of the draft in their places. -/
def onto (draft : Settings.Draft) (settings : Settings) : Settings where
  version := draft.version.getD settings.version
  capacity := (draft.store.map fun capacity? => capacity?.getD settings.capacity).getD
    settings.capacity
  ageing := (draft.ageing.map fun ageing => ageing.onto settings.ageing).getD settings.ageing
  kernel := (draft.kernel.map fun kernel => kernel.onto settings.kernel).getD settings.kernel

/-- The members of the section about the store. -/
def storeFields (capacity? : Option UInt64) : List (String × Option Json) :=
  [("capacity", capacity?.map fun n => .integer n.toNat)]

/-- The members outside of all sections. -/
def entries (draft : Settings.Draft) : List (String × Option Json) :=
  [("version", draft.version.map fun version => .text version.name)]

/-- The sections, each with its members. -/
def sections (draft : Settings.Draft) : List (String × Option (List (String × Json))) :=
  [ ("store", draft.store.map fun capacity? => given (storeFields capacity?))
  , ("eviction", draft.ageing.map fun ageing => given ageing.fields)
  , ("estimator", draft.kernel.map fun kernel => given kernel.fields) ]

/-- The draft as a JSON document. -/
def toJson (draft : Settings.Draft) : Json :=
  .object (given draft.entries
    ++ (given draft.sections).map fun (name, members) => (name, .object members))

/-- The draft as the characters of a TOML document. -/
def tomlChars (draft : Settings.Draft) : List Char :=
  (Toml.documentLines (given draft.entries) (given draft.sections)).flatMap Toml.Line.chars

/-- The draft as the text of a document. -/
def text (draft : Settings.Draft) : Format → String
  | .json => draft.toJson.pretty
  | .toml => String.ofList draft.tomlChars

/-- The doubles that are written in the draft. -/
def doubles (draft : Settings.Draft) : List Float :=
  draft.kernel.toList.flatMap fun kernel =>
    (given kernel.numbers).filterMap fun (_, number) => number.double?

/-- The draft with other doubles. -/
def mapDoubles (reread : Float → Float) (draft : Settings.Draft) : Settings.Draft :=
  { draft with kernel := draft.kernel.map (Kernel.Draft.mapDoubles reread) }

end Settings.Draft

section Doubles

variable (reread : Float → Float)

theorem Kernel.Draft.mapMembers_fields (draft : Kernel.Draft) :
    Json.mapMembers reread (given draft.fields) = given (draft.mapDoubles reread).fields := by
  rw [Json.mapMembers_eq_map, ← given_map]
  have same : Json.mapReals reread ∘ Numeric.toJson = Numeric.toJson ∘ Numeric.mapDouble reread :=
    funext fun number => (number.toJson_mapDouble reread).symm
  simp only [fields, numbers, mapDoubles, List.map_cons, List.map_nil, Option.map_map, same]

/-- Other doubles in the draft are other doubles in its document. -/
theorem Settings.Draft.mapReals_toJson (draft : Settings.Draft) :
    draft.toJson.mapReals reread = (draft.mapDoubles reread).toJson := by
  have entriesSame : Json.mapMembers reread (given draft.entries) =
      given (draft.mapDoubles reread).entries := by
    obtain ⟨_ | version, _, _, _⟩ := draft <;> rfl
  -- Only the section about the kernel has doubles.
  have sectionsSame : given (draft.mapDoubles reread).sections =
      (given draft.sections).map fun (name, members) =>
        (name, Json.mapMembers reread members) := by
    have store (capacity? : Option UInt64) :
        Json.mapMembers reread (given (storeFields capacity?)) =
          given (storeFields capacity?) := by
      cases capacity? <;> rfl
    have ageing (ageing : Ageing.Draft) :
        Json.mapMembers reread (given ageing.fields) = given ageing.fields := by
      obtain ⟨_ | penalty, _ | ceiling⟩ := ageing <;> rfl
    rw [← given_map]
    simp only [sections, mapDoubles, List.map_cons, List.map_nil, Option.map_map,
      Function.comp_def, store, ageing, Kernel.Draft.mapMembers_fields]
  unfold toJson
  rw [Json.mapReals, ← entriesSame, sectionsSame]
  simp only [Json.mapMembers_eq_map, List.map_append, List.map_map, Function.comp_def,
    Json.mapReals]

end Doubles

theorem Settings.Draft.storeFields_distinct (capacity? : Option UInt64) :
    ((storeFields capacity?).map Prod.fst).Nodup :=
  List.nodup_singleton _

theorem Ageing.Draft.distinct (draft : Ageing.Draft) : (draft.fields.map Prod.fst).Nodup := by
  show ["quality_penalty", "quality_ceiling"].Nodup
  decide

theorem Kernel.Draft.distinct (draft : Kernel.Draft) : (draft.fields.map Prod.fst).Nodup := by
  show ["altitude_range", "time_range", "quality_factor", "altitude_factor", "time_factor",
    "time_kernel_k", "max_quality"].Nodup
  decide

namespace Settings.Draft

open Toml (IsBareName)

/-- The values of the members of sections: integers of 64 bits, and the doubles of the draft. -/
def IsMember (doubles : List Float) : Json → Prop
  | .integer n => Int64.minValue.toInt ≤ n ∧ n < UInt64.size
  | .real x => x ∈ doubles
  | _ => False

/-- A section whose names need no quotes, each of them coming once. -/
structure IsSection (doubles : List Float) (name : String) (members : List (String × Json)) :
    Prop where
  bare : IsBareName name
  distinct : (members.map Prod.fst).Nodup
  bareInside : ∀ member ∈ members, IsBareName member.1
  values : ∀ member ∈ members, IsMember doubles member.2

/-- A section is made of whatever fields with fitting names and values are there. -/
theorem isSection_given
    {doubles : List Float}
    {name : String}
    {fields : List (String × Option Json)}
    (bare : IsBareName name)
    (distinct : (fields.map Prod.fst).Nodup)
    (bareInside : ∀ name ∈ fields.map Prod.fst, IsBareName name)
    (values : ∀ name value, (name, some value) ∈ fields → IsMember doubles value) :
    IsSection doubles name (given fields) where
  bare := bare
  distinct := given_distinct distinct
  bareInside _ among :=
    bareInside _ ((given_names_sublist fields).subset (List.mem_map_of_mem among))
  values member among := values member.1 member.2 (mem_given.mp among)

section Members

variable {doubles : List Float}

theorem isMember_int64 (n : Int64) : IsMember doubles (.integer n.toInt) := by
  have bound : Int64.maxValue.toInt < UInt64.size := by decide
  have greatest := n.toInt_le
  exact ⟨n.minValue_le_toInt, by omega⟩

theorem isMember_uint64 (n : UInt64) : IsMember doubles (.integer n.toNat) := by
  have least : Int64.minValue.toInt ≤ 0 := by decide
  have small := n.toNat_lt_size
  exact ⟨by omega, by omega⟩

theorem isSection_store (capacity? : Option UInt64) :
    IsSection doubles "store" (given (storeFields capacity?)) := by
  refine isSection_given (by decide) (storeFields_distinct capacity?) ?_ fun name value among => ?_
  · show ∀ name ∈ ["capacity"], IsBareName name
    decide
  · have same := congrArg Prod.snd (List.mem_singleton.mp among)
    obtain ⟨n, -, rfl⟩ := Option.map_eq_some_iff.mp same.symm
    exact isMember_uint64 n

theorem isSection_ageing (ageing : Ageing.Draft) :
    IsSection doubles "eviction" (given ageing.fields) := by
  refine isSection_given (by decide) ageing.distinct ?_ fun name value among => ?_
  · show ∀ name ∈ ["quality_penalty", "quality_ceiling"], IsBareName name
    decide
  · rcases List.mem_cons.mp among with penalty | ceiling
    · obtain ⟨n, -, rfl⟩ := Option.map_eq_some_iff.mp (congrArg Prod.snd penalty).symm
      exact isMember_int64 n
    · have same := congrArg Prod.snd (List.mem_singleton.mp ceiling)
      obtain ⟨n, -, rfl⟩ := Option.map_eq_some_iff.mp same.symm
      rw [← n.toInt_toInt64]
      exact isMember_int64 n.toInt64

theorem isSection_kernel
    (kernel : Kernel.Draft)
    (written : ∀ name x, (name, .real x) ∈ given kernel.numbers → x ∈ doubles) :
    IsSection doubles "estimator" (given kernel.fields) := by
  refine isSection_given (by decide) kernel.distinct ?_ fun name value among => ?_
  · show ∀ name ∈ ["altitude_range", "time_range", "quality_factor", "altitude_factor",
      "time_factor", "time_kernel_k", "max_quality"], IsBareName name
    decide
  · obtain ⟨⟨_, number?⟩, inside, same⟩ := List.mem_map.mp among
    obtain ⟨number, rfl, rfl⟩ := Option.map_eq_some_iff.mp (congrArg Prod.snd same)
    cases number with
    | integer n => exact isMember_int64 n
    | real x => exact written _ x (mem_given.mpr inside)

end Members

theorem isSection_of_mem
    {draft : Settings.Draft}
    {name : String}
    {members : List (String × Json)}
    (among : (name, members) ∈ given draft.sections) :
    IsSection draft.doubles name members := by
  have there := mem_given.mp among
  simp only [sections, List.mem_cons, Prod.mk.injEq, List.not_mem_nil, or_false] at there
  rcases there with ⟨rfl, value⟩ | ⟨rfl, value⟩ | ⟨rfl, value⟩
  · obtain ⟨capacity?, -, rfl⟩ := Option.map_eq_some_iff.mp value.symm
    exact isSection_store capacity?
  · obtain ⟨ageing, -, rfl⟩ := Option.map_eq_some_iff.mp value.symm
    exact isSection_ageing ageing
  · obtain ⟨kernel, present, rfl⟩ := Option.map_eq_some_iff.mp value.symm
    refine isSection_kernel kernel fun name x inside => ?_
    exact List.mem_flatMap.mpr ⟨kernel, Option.mem_toList.mpr present,
      List.mem_filterMap.mpr ⟨_, inside, rfl⟩⟩

/-- The draft in JSON can be read as soon as it is known how its doubles are read. -/
theorem readable_toJson
    {reading : Numeral.Reading}
    {reread : Float → Float}
    {draft : Settings.Draft}
    (reads : ∀ x ∈ draft.doubles, reading.ReadsAs x (reread x)) :
    draft.toJson.Readable reading reread := by
  refine Json.readableMembers_iff.mpr fun member among => ?_
  rcases List.mem_append.mp among with inEntries | inSections
  · have value := congrArg Prod.snd (List.mem_singleton.mp (mem_given.mp inEntries))
    obtain ⟨version, -, same⟩ := Option.map_eq_some_iff.mp value.symm
    rw [← same]
    trivial
  · obtain ⟨⟨name, members⟩, there, rfl⟩ := List.mem_map.mp inSections
    refine Json.readableMembers_iff.mpr fun inside amongInside => ?_
    have isMember := (isSection_of_mem there).values inside amongInside
    cases value : inside.2 with
    | integer n => rw [value] at isMember; exact isMember
    | real x => rw [value] at isMember; exact reads x isMember
    | _ => rw [value] at isMember; exact isMember.elim

theorem fitsLine_of_isMember
    {doubles : List Float}
    {value : Json}
    (finite : ∀ x ∈ doubles, x.isFinite = true)
    (isMember : IsMember doubles value) :
    Toml.FitsLine value := by
  cases value with
  | integer n =>
      have least : -Nat.pow 2 127 ≤ Int64.minValue.toInt := by decide
      have greatest : (UInt64.size : ℤ) ≤ Nat.pow 2 128 := by decide
      have wide : -Nat.pow 2 127 ≤ n ∧ n < Nat.pow 2 128 :=
        ⟨least.trans isMember.1, isMember.2.trans_le greatest⟩
      simpa [Toml.FitsLine, Toml.fitsWide] using wide
  | real x => exact finite x isMember
  | _ => exact isMember.elim

/-- The lines of the draft in TOML have names without quotes and values that fit on a line. -/
theorem proper_lines
    {draft : Settings.Draft}
    (finite : ∀ x ∈ draft.doubles, x.isFinite = true) :
    ∀ line ∈ Toml.documentLines (given draft.entries) (given draft.sections), line.Proper := by
  intro line among
  rcases List.mem_append.mp among with inEntries | inSections
  · obtain ⟨entry, there, rfl⟩ := List.mem_map.mp inEntries
    have same := List.mem_singleton.mp (mem_given.mp there)
    obtain ⟨version, -, value⟩ := Option.map_eq_some_iff.mp (congrArg Prod.snd same).symm
    have named : entry.1 = "version" := congrArg Prod.fst same
    have plain : version.name ≠ "" ∧ ∀ c ∈ version.name.toList, Toml.Token.IsPlain c := by
      cases version
      refine ⟨by decide, fun c amongName => ?_⟩
      have letters : c ∈ ['V', '1'] := amongName
      simp only [List.mem_cons, List.not_mem_nil, or_false] at letters
      rcases letters with rfl | rfl <;> decide
    rw [named, ← value]
    exact ⟨by decide, plain⟩
  · obtain ⟨⟨name, members⟩, there, inSection⟩ := List.mem_flatMap.mp inSections
    have isSection := isSection_of_mem there
    rcases List.mem_cons.mp inSection with rfl | inside
    · exact isSection.bare
    · obtain ⟨member, amongMembers, rfl⟩ := List.mem_map.mp inside
      exact ⟨isSection.bareInside member amongMembers,
        fitsLine_of_isMember finite (isSection.values member amongMembers)⟩

end Settings.Draft
end WindsAloft

import WindsAloft.Proofs.Draft

/-!
# Drafts laid over the classic settings

A reader of settings makes the same of every document with the members of a draft,
whatever their order: the classic settings with those of the draft in their places.  In
TOML the doubles are those that were written.  In JSON they are what the reading of
numbers makes of their texts, so that the two formats agree where this is the double
itself.
-/

namespace WindsAloft

section Sections

theorem Reader.capacity_takes (n : UInt64) : Reader.Takes capacity (.integer n.toNat) n := by
  intro doc said
  have inside : (0 : ℤ) ≤ n.toNat ∧ (n.toNat : ℤ) ≤ UInt64.size - 1 := by
    have small := n.toNat_lt_size
    omega
  have read := integer_takes "usize" inside doc said
  rw [capacity, count, read]
  exact congrArg Except.ok UInt64.ofNat_toNat

namespace Version

theorem readJson_takes (version : Version) : Reader.Takes readJson (.text version.name) version :=
  Reader.takes_of_leaf (.text version.name) fun _ => by cases version; rfl

theorem readToml_takes (version : Version) : Reader.Takes readToml (.text version.name) version :=
  Reader.takes_of_leaf (.text version.name) fun _ => by cases version; rfl

end Version

theorem Settings.Draft.yields_store (capacity? : Option UInt64) :
    capacityLayout.part.Yields (given (storeFields capacity?))
      (capacity?.getD classicCapacity) :=
  Part.yields_given_self (storeFields_distinct capacity?) List.mem_cons_self Reader.capacity_takes

theorem Ageing.Draft.yields (draft : Ageing.Draft) :
    Ageing.layout.part.Yields (given draft.fields) (draft.onto .classic) := by
  have penalty : (Part.defaulted "quality_penalty" Reader.int64 classic.qualityPenalty).Yields
      (given draft.fields) (draft.qualityPenalty.getD classic.qualityPenalty) :=
    Part.yields_given_self draft.distinct (by simp [fields]) Reader.int64_takes
  have ceiling : (Part.defaulted "quality_ceiling" Reader.int32 classic.qualityCeiling).Yields
      (given draft.fields) (draft.qualityCeiling.getD classic.qualityCeiling) :=
    Part.yields_given_self draft.distinct (by simp [fields]) Reader.int32_takes
  exact (penalty.map Ageing.mk).seq ceiling

theorem Reader.real_takes (number : Numeric) : real.Takes number.toJson number.toFloat := by
  cases number with
  | integer n =>
      have least := n.minValue_le_toInt
      have greatest := n.toInt_le
      refine real_takes_integer ?_
      have bound : Int64.maxValue.toInt < UInt64.size := by decide
      simp only [fitsWord, Bool.and_eq_true, decide_eq_true_eq]
      exact ⟨least, by omega⟩
  | real x => exact real_takes_real x

theorem Kernel.Draft.yields (draft : Kernel.Draft) :
    Kernel.layout.part.Yields (given draft.fields) (draft.onto .classic) := by
  have field (name : String) (absent : Float) (number? : Option Numeric)
      (among : (name, number?) ∈ draft.numbers) :
      (Part.defaulted name Reader.real absent).Yields (given draft.fields)
        ((number?.map Numeric.toFloat).getD absent) :=
    Part.yields_given draft.distinct (List.mem_map.mpr ⟨_, among, rfl⟩)
      fun number _ => Reader.real_takes number
  exact ((((((((field "altitude_range" _ _ (by simp [numbers])).map Kernel.mk).seq
    (field "time_range" _ _ (by simp [numbers]))).seq
    (field "quality_factor" _ _ (by simp [numbers]))).seq
    (field "altitude_factor" _ _ (by simp [numbers]))).seq
    (field "time_factor" _ _ (by simp [numbers]))).seq
    (field "time_kernel_k" _ _ (by simp [numbers]))).seq
    (field "max_quality" _ _ (by simp [numbers])))

end Sections

namespace Settings.Draft

section Contents

variable (arrange : List (String × Json) → List (String × Json)) (draft : Settings.Draft)

/-- What a document says whose sections have their members arranged in some way. -/
def contents : List (String × Json) :=
  given draft.entries
    ++ (given draft.sections).map fun (name, members) => (name, .object (arrange members))

/-- The fields of the whole document. -/
def fields : List (String × Option Json) :=
  [ ("version", draft.version.map fun version => .text version.name)
  , ("store", draft.store.map fun capacity? => .object (arrange (given (storeFields capacity?))))
  , ("eviction", draft.ageing.map fun ageing => .object (arrange (given ageing.fields)))
  , ("estimator", draft.kernel.map fun kernel => .object (arrange (given kernel.fields))) ]

theorem contents_eq_given : draft.contents arrange = given (draft.fields arrange) := by
  unfold contents
  have objects := given_map (fun members => Json.object (arrange members)) draft.sections
  rw [← objects, ← given_append]
  simp only [entries, sections, fields, List.map_cons, List.map_nil, Option.map_map]
  rfl

theorem fields_distinct : ((draft.fields arrange).map Prod.fst).Nodup := by
  show ["version", "store", "eviction", "estimator"].Nodup
  decide

theorem contents_distinct : ((draft.contents arrange).map Prod.fst).Nodup := by
  rw [contents_eq_given]
  exact given_distinct (draft.fields_distinct arrange)

/-- What the fields of the settings make of what a document of a draft says. -/
theorem yields_contents
    {readVersion : Reader Version}
    (takesVersion : ∀ version, readVersion.Takes (.text version.name) version)
    (arranges : ∀ entries, (arrange entries).Perm entries) :
    (layout readVersion).part.Yields (draft.contents arrange) (draft.onto .classic) := by
  have distinct := draft.fields_distinct arrange
  have inside {α : Type} {layout : Layout α} {members : List (String × Option Json)} {a : α}
      (distinctInside : (members.map Prod.fst).Nodup)
      (yields : layout.part.Yields (given members) a) :
      Reader.Takes layout.read (.object (arrange (given members))) a :=
    Layout.takes_of_yields
      (((arranges _).map Prod.fst).nodup_iff.mpr (given_distinct distinctInside))
      (yields.of_perm (arranges _))
  have version : (Part.defaulted "version" readVersion classic.version).Yields
      (given (draft.fields arrange)) (draft.version.getD classic.version) :=
    Part.yields_given_self distinct (by simp [fields]) takesVersion
  have store : (Part.defaulted "store" capacityLayout.read classic.capacity).Yields
      (given (draft.fields arrange))
      ((draft.store.map fun capacity? => capacity?.getD classic.capacity).getD
        classic.capacity) :=
    Part.yields_given distinct (by simp [fields]) fun capacity? _ =>
      inside (storeFields_distinct capacity?) (yields_store capacity?)
  have ageing : (Part.defaulted "eviction" Ageing.layout.read classic.ageing).Yields
      (given (draft.fields arrange))
      ((draft.ageing.map fun ageing => ageing.onto classic.ageing).getD classic.ageing) :=
    Part.yields_given distinct (by simp [fields]) fun ageing _ =>
      inside ageing.distinct ageing.yields
  have kernel : (Part.defaulted "estimator" Kernel.layout.read classic.kernel).Yields
      (given (draft.fields arrange))
      ((draft.kernel.map fun kernel => kernel.onto classic.kernel).getD classic.kernel) :=
    Part.yields_given distinct (by simp [fields]) fun kernel _ =>
      inside kernel.distinct kernel.yields
  rw [contents_eq_given]
  exact (((version.map Settings.mk).seq store).seq ageing).seq kernel

/-- However the members are arranged, a document of a draft is read as the draft. -/
theorem takes_contents
    {readVersion : Reader Version}
    (takesVersion : ∀ version, readVersion.Takes (.text version.name) version)
    (arranges : ∀ entries, (arrange entries).Perm entries) :
    Reader.Takes (layout readVersion).read (.object (arrange (draft.contents arrange)))
      (draft.onto .classic) :=
  Layout.takes_of_yields
    (((arranges _).map Prod.fst).nodup_iff.mpr (draft.contents_distinct arrange))
    ((yields_contents arrange draft takesVersion arranges).of_perm (arranges _))

end Contents

/-- The JSON document of a draft is read with the doubles that the reading makes. -/
theorem ofJson_text
    {reading : Numeral.Reading}
    {reread : Float → Float}
    {draft : Settings.Draft}
    (reads : ∀ x ∈ draft.doubles, reading.ReadsAs x (reread x)) :
    ofJson reading (draft.text .json).toList =
      .ok ((draft.mapDoubles reread).onto .classic) := by
  obtain ⟨doc, parsed, said⟩ := Json.parse_pretty (readable_toJson reads)
  rw [mapReals_toJson] at said
  have read := takes_contents id (draft.mapDoubles reread) Version.readJson_takes
    (fun entries => .refl entries) doc said
  rw [text, ofJson, parsed, Source.read, read]

/-- The TOML document of a draft is read as the classic settings under the draft. -/
theorem ofTomlSource_text
    {draft : Settings.Draft}
    (finite : ∀ x ∈ draft.doubles, x.isFinite = true) :
    ∃ source, Toml.parse (draft.text .toml).toList = .ok source ∧
      ofTomlSource source = .ok (draft.onto .classic) := by
  have distinct :
      ((given draft.entries).map Prod.fst ++ (given draft.sections).map Prod.fst).Nodup := by
    have names : (["version"] ++ ["store", "eviction", "estimator"]).Nodup := by decide
    exact names.sublist
      ((given_names_sublist draft.entries).append (given_names_sublist draft.sections))
  obtain ⟨doc, parsed, said⟩ := Toml.parse_documentLines (proper_lines finite) distinct
    fun part among => (isSection_of_mem among).distinct
  have read := takes_contents Toml.sorted draft Version.readToml_takes Toml.sorted_perm doc said
  refine ⟨⟨doc, none⟩, ?_, ?_⟩
  · rw [text, String.toList_ofList, tomlChars, parsed]
  · rw [ofTomlSource, Source.read, read]

/-- Loading the JSON document of a draft checks the settings with the doubles as they are read. -/
theorem ofTextWith_json
    {reading : Numeral.Reading}
    (reread : Float → Float)
    {draft : Settings.Draft}
    (reads : ∀ x ∈ draft.doubles, reading.ReadsAs x (reread x)) :
    ofTextWith reading .json (draft.text .json).toList =
      ((draft.mapDoubles reread).onto .classic).validate := by
  rw [ofTextWith, parseWith, ofJson_text reads]
  rfl

/-- Loading the TOML document of a draft checks the settings with the doubles of the draft. -/
theorem ofTextWith_toml
    (reading : Numeral.Reading)
    {draft : Settings.Draft}
    (finite : ∀ x ∈ draft.doubles, x.isFinite = true) :
    ofTextWith reading .toml (draft.text .toml).toList = (draft.onto .classic).validate := by
  obtain ⟨source, parsed, read⟩ := ofTomlSource_text finite
  rw [ofTextWith, parseWith, parsed]
  simp only [read]
  rfl

theorem mapDoubles_self (draft : Settings.Draft) : draft.mapDoubles (fun x => x) = draft := by
  have number : Numeric.mapDouble (fun x => x) = id :=
    funext fun number => by cases number <;> rfl
  have kernel : Kernel.Draft.mapDoubles (fun x => x) = id :=
    funext fun kernel => by
      unfold Kernel.Draft.mapDoubles
      simp only [number, Option.map_id, id]
  unfold mapDoubles
  rw [kernel, Option.map_id, id]

end Settings.Draft

/-- What comes of checked settings: themselves if they are valid, else the first complaint. -/
def Settings.Checks (settings : Settings) (result : Except LoadFault Settings) : Prop :=
  (settings.Valid → result = .ok settings) ∧
    ∀ complaint, settings.complaint? = some complaint → result = .error (.invalid complaint)

theorem Settings.checks_validate (settings : Settings) : settings.Checks settings.validate := by
  unfold Checks Valid validate
  constructor
  · intro valid
    rw [valid]
  · intro complaint first
    rw [first]

namespace Settings.Draft

/--
Whatever members a draft has, its TOML document loads to the classic settings under the
draft, or to the first complaint about them.  So does the JSON document, with the doubles
that the reading of numbers makes of their texts: if it gives all of them back, the two
documents load alike.
-/
theorem loads_alike
    (draft : Settings.Draft)
    (reading : Numeral.Reading)
    (finite : ∀ x ∈ draft.doubles, x.isFinite = true) :
    (draft.onto .classic).Checks (ofTextWith reading .toml (draft.text .toml).toList) ∧
    (∀ reread : Float → Float, (∀ x ∈ draft.doubles, reading.ReadsAs x (reread x)) →
      ((draft.mapDoubles reread).onto .classic).Checks
        (ofTextWith reading .json (draft.text .json).toList)) ∧
    ((∀ x ∈ draft.doubles, reading.Reads x) →
      ofTextWith reading .json (draft.text .json).toList =
        ofTextWith reading .toml (draft.text .toml).toList) := by
  refine ⟨?_, fun reread reads => ?_, fun reads => ?_⟩
  · rw [ofTextWith_toml reading finite]
    exact checks_validate _
  · rw [ofTextWith_json reread reads]
    exact checks_validate _
  · rw [ofTextWith_toml reading finite, ofTextWith_json (fun x => x) reads,
      mapDoubles_self]

/-- A draft with nothing but one hour and a tenth as the range in time, in double arithmetic. -/
def longer : Settings.Draft where
  kernel := some { timeRange := some (.real 3960.0000000000005) }

/-- The reading that goes in steps makes another double of this range, and only in JSON. -/
theorem longer_loads_differently :
    longer.doubles = [3960.0000000000005] ∧
    ofText .toml (longer.text .toml).toList = .ok (longer.onto .classic) ∧
    ofText .json (longer.text .json).toList =
      .ok ((longer.mapDoubles fun _ => 3960.000000000001).onto .classic) ∧
    (longer.onto .classic).kernel.timeRange ≠ 3960.000000000001 := by
  have doubles : longer.doubles = [3960.0000000000005] := by rfl
  obtain ⟨toml, json, -⟩ := loads_alike longer Numeral.stepwise (by rw [doubles]; decide)
  have reads : ∀ x ∈ longer.doubles,
      Numeral.Reading.ReadsAs Numeral.stepwise x 3960.000000000001 := by
    rw [doubles]
    intro x among
    rw [List.mem_singleton.mp among]
    unfold Numeral.Reading.ReadsAs
    decide +kernel
  exact ⟨doubles, toml.1 (by decide +kernel), (json _ reads).1 (by decide +kernel),
    by decide +kernel⟩

end Settings.Draft
end WindsAloft

import WindsAloft.Proofs.Overlay
import WindsAloft.Proofs.Rules

/-!
# Written settings are loaded again

The documents that settings are written as are those of a draft with every member.  So
valid settings come back from the one in TOML.  From the one in JSON they come back with the
doubles that the reading of numbers makes of their texts: rounding them once changes none,
the reading in steps may change some.
-/

namespace WindsAloft

/-- The draft with every member of the kernel. -/
def Kernel.toDraft (kernel : Kernel) : Kernel.Draft where
  altitudeRange := some (.real kernel.altitudeRange)
  timeRange := some (.real kernel.timeRange)
  qualityFactor := some (.real kernel.qualityFactor)
  altitudeFactor := some (.real kernel.altitudeFactor)
  timeFactor := some (.real kernel.timeFactor)
  timeSharpness := some (.real kernel.timeSharpness)
  maxQuality := some (.real kernel.maxQuality)

/-- The draft with every member of the section about eviction. -/
def Ageing.toDraft (ageing : Ageing) : Ageing.Draft where
  qualityPenalty := some ageing.qualityPenalty
  qualityCeiling := some ageing.qualityCeiling

/-- The parameters with other doubles. -/
def Kernel.mapDoubles (reread : Float → Float) (kernel : Kernel) : Kernel where
  altitudeRange := reread kernel.altitudeRange
  timeRange := reread kernel.timeRange
  qualityFactor := reread kernel.qualityFactor
  altitudeFactor := reread kernel.altitudeFactor
  timeFactor := reread kernel.timeFactor
  timeSharpness := reread kernel.timeSharpness
  maxQuality := reread kernel.maxQuality

namespace Settings

/-- The draft with every member. -/
def toDraft (settings : Settings) : Settings.Draft where
  version := some settings.version
  store := some (some settings.capacity)
  ageing := some settings.ageing.toDraft
  kernel := some settings.kernel.toDraft

/-- The settings with other doubles. -/
def mapDoubles (reread : Float → Float) (settings : Settings) : Settings :=
  { settings with kernel := settings.kernel.mapDoubles reread }

/-- Each double of the settings is read as what `reread` makes of it. -/
def ReadAs (reading : Numeral.Reading) (reread : Float → Float) (settings : Settings) : Prop :=
  ∀ member ∈ settings.kernel.members, reading.ReadsAs member.2 (reread member.2)

/-- None of the doubles of the settings is changed. -/
def Kept (reread : Float → Float) (settings : Settings) : Prop :=
  ∀ member ∈ settings.kernel.members, reread member.2 = member.2

variable {settings : Settings} {reread : Float → Float}

/-- A draft with every member leaves nothing of what it is laid over. -/
theorem onto_toDraft (settings base : Settings) : settings.toDraft.onto base = settings :=
  rfl

theorem text_json (settings : Settings) : settings.toDraft.text .json = settings.jsonText :=
  rfl

theorem integerChars_natCast (n : ℕ) : integerChars n = digitChars n := by
  rw [integerChars, if_neg (by omega), Int.natAbs_natCast]

/-- The lines of a section are those that the section is written as. -/
theorem flatMap_sectionLines (name : String) (members : List (String × Json)) :
    (Toml.sectionLines name members).flatMap Toml.Line.chars =
      tomlSection name
        (members.map fun member => tomlLine member.1 (Toml.valueChars member.2)) := by
  rw [Toml.sectionLines, List.flatMap_cons, List.flatMap_map, List.flatMap_def, Toml.Line.chars,
    tomlSection, tomlSection, List.flatten_nil, List.append_nil]
  rfl

theorem text_toml (settings : Settings) : settings.toDraft.text .toml = settings.tomlText := by
  -- No member is missing, so that what is given is found by evaluation.
  have entries : given settings.toDraft.entries = [("version", .text settings.version.name)] := rfl
  have sections : given settings.toDraft.sections =
      [ ("store", [("capacity", .integer settings.capacity.toNat)])
      , ("eviction",
          [ ("quality_penalty", .integer settings.ageing.qualityPenalty.toInt)
          , ("quality_ceiling", .integer settings.ageing.qualityCeiling.toInt) ])
      , ("estimator", settings.kernel.members.map fun member => (member.1, .real member.2)) ] :=
    rfl
  refine congrArg String.ofList ?_
  rw [Draft.tomlChars, Toml.documentLines, entries, sections, tomlChars, ← integerChars_natCast]
  simp only [List.flatMap_append, List.flatMap_cons, List.flatMap_nil,
    flatMap_sectionLines, List.map_cons, List.map_nil, List.map_map, List.append_assoc,
    List.append_nil]
  rfl

theorem doubles_toDraft (settings : Settings) :
    settings.toDraft.doubles = settings.kernel.members.map Prod.snd :=
  rfl

theorem forall_doubles_iff {p : Float → Prop} :
    (∀ x ∈ settings.toDraft.doubles, p x) ↔ ∀ member ∈ settings.kernel.members, p member.2 := by
  rw [doubles_toDraft, List.forall_mem_map]

theorem mapDoubles_eq_self_iff : settings.mapDoubles reread = settings ↔ settings.Kept reread := by
  obtain ⟨version, capacity, ageing, kernel⟩ := settings
  obtain ⟨altitude, time, qualityFactor, altitudeFactor, timeFactor, sharpness, quality⟩ := kernel
  simp [mapDoubles, Kernel.mapDoubles, Kept, Kernel.members]

/-- Changed settings pass the check as the original ones just if nothing is changed. -/
theorem validate_mapDoubles_eq_ok_iff (valid : settings.Valid) :
    (settings.mapDoubles reread).validate = .ok settings ↔ settings.Kept reread := by
  rw [validate_eq_ok_iff, mapDoubles_eq_self_iff]
  constructor
  · exact fun loaded => loaded.2
  · intro kept
    rw [mapDoubles_eq_self_iff.mpr kept]
    exact ⟨valid, kept⟩

/-- All doubles of valid settings are finite. -/
theorem Valid.isFinite (valid : settings.Valid) :
    ∀ x ∈ settings.toDraft.doubles, x.isFinite = true := by
  have sound := valid.sound
  rw [doubles_toDraft]
  simp only [Kernel.members, List.map_cons, List.map_nil, List.forall_mem_cons,
    List.not_mem_nil, false_imp_iff, implies_true, and_true]
  exact ⟨sound.altitudeRange.1, sound.timeRange.1, sound.qualityFactor.1, sound.altitudeFactor.1,
    sound.timeFactor.1, sound.timeSharpness.1, sound.maxQuality.1⟩

/-- What is loaded from JSON is checked with the doubles as they are read. -/
theorem ofTextWith_jsonText
    {reading : Numeral.Reading}
    (reads : settings.ReadAs reading reread) :
    ofTextWith reading .json settings.jsonText.toList = (settings.mapDoubles reread).validate := by
  have loaded := Draft.ofTextWith_json reread (forall_doubles_iff.mpr reads)
  rw [text_json] at loaded
  exact loaded

/-- Rounding once reads every double of valid settings as itself. -/
theorem Valid.readAs_nearest (valid : settings.Valid) : settings.ReadAs Numeral.nearest id :=
  fun member among => Numeral.nearest_reads (forall_doubles_iff.mp valid.isFinite member among)

/-- Valid settings come back from TOML. -/
theorem ofTextWith_tomlText (reading : Numeral.Reading) (valid : settings.Valid) :
    ofTextWith reading .toml settings.tomlText.toList = .ok settings := by
  have loaded := Draft.ofTextWith_toml reading valid.isFinite
  rw [text_toml, onto_toDraft] at loaded
  rw [loaded]
  exact (checks_validate settings).1 valid

/--
Valid settings that are written and loaded again are the same settings, in TOML and, where
decimal numbers are rounded correctly, in JSON.  The program makes of the JSON the settings
with its own reading of each double, and checks these; so it loads the same settings if and
only if its reading changes none of the doubles.
-/
theorem written_and_loaded (settings : Settings) (valid : settings.Valid) :
    ofText .toml settings.tomlText.toList = .ok settings ∧
      ofTextWith Numeral.nearest .json settings.jsonText.toList = .ok settings ∧
      ∀ reread : Float → Float, settings.ReadAs Numeral.stepwise reread →
        ofText .json settings.jsonText.toList = (settings.mapDoubles reread).validate ∧
        (ofText .json settings.jsonText.toList = .ok settings ↔ settings.Kept reread) := by
  refine ⟨ofTextWith_tomlText Numeral.stepwise valid, ?_, fun reread reads => ?_⟩
  · rw [ofTextWith_jsonText valid.readAs_nearest]
    exact (checks_validate settings).1 valid
  · have loaded : ofText .json settings.jsonText.toList = (settings.mapDoubles reread).validate :=
      ofTextWith_jsonText reads
    exact ⟨loaded, by rw [loaded, validate_mapDoubles_eq_ok_iff valid]⟩

/-- Settings at the ends of what their members can be. -/
def extreme : Settings where
  version := .v1
  capacity := 18446744073709551615
  ageing := ⟨9223372036854775807, -2147483648⟩
  kernel :=
    { altitudeRange := 1.7976931348623157e308
      timeRange := 5e-324
      qualityFactor := -0.0
      altitudeFactor := 1e23
      timeFactor := 123456.7
      timeSharpness := 2.2250738585072014e-308
      maxQuality := 9007199254740993 }

/-- The reading in steps changes none of their doubles. -/
theorem extreme_written_and_loaded :
    extreme.Valid ∧
    ofText .toml extreme.tomlText.toList = .ok extreme ∧
      ofTextWith Numeral.nearest .json extreme.jsonText.toList = .ok extreme ∧
      ofText .json extreme.jsonText.toList = .ok extreme := by
  have valid : extreme.Valid := by decide +kernel
  have reads : extreme.ReadAs Numeral.stepwise id := by
    unfold ReadAs Numeral.Reading.ReadsAs
    decide +kernel
  obtain ⟨toml, nearest, stepwise⟩ := written_and_loaded extreme valid
  exact ⟨valid, toml, nearest, (stepwise id reads).2.mpr fun _ _ => rfl⟩

end Settings
end WindsAloft

import WindsAloft.Proofs.Encoding
import WindsAloft.Proofs.Performing
import WindsAloft.Proofs.RoundTrip

/-!
# Overviews as settings files

The overview of settings that is printed as JSON is a document of the settings with one
member more, which no field asks for.  So it is read as the settings, whatever the source
is called, with the doubles that the reading of numbers makes of their texts.  Rounding
them once gives them back.  The reading in steps, which the program uses, may make other
doubles of them, and then the overview of the overview is another document.
-/

namespace WindsAloft

namespace Settings

section Documents

variable
  {reading : Numeral.Reading}
  {reread : Float → Float}
  {settings : Settings}
  {blanks : List Char}

/-- The document of an overview is that of the settings, with the source in front. -/
theorem overviewJson_eq (source : String) (settings : Settings) :
    settings.overviewJson source =
      .object (("source", .text source) :: settings.toDraft.contents id) :=
  rfl

/-- An overview says the settings, whatever the source is called. -/
theorem takes_overviewJson (source : String) (settings : Settings) :
    Reader.Takes (layout Version.readJson).read (settings.overviewJson source) settings := by
  rw [overviewJson_eq]
  refine Layout.takes_of_yields ?_ (Part.Yields.cons ?_ ?_)
  · rw [List.map_cons, List.nodup_cons]
    refine ⟨?_, settings.toDraft.contents_distinct id⟩
    show "source" ∉ ["version", "store", "eviction", "estimator"]
    decide
  · exact Draft.yields_contents id settings.toDraft Version.readJson_takes fun entries => .refl _
  · intro field among
    have names : field.name ∈ ["version", "store", "eviction", "estimator"] :=
      List.mem_map_of_mem among
    rintro same
    rw [same] at names
    exact absurd names (by decide)

theorem readable_overviewJson (source : String) (reads : settings.ReadAs reading reread) :
    (settings.overviewJson source).Readable reading reread :=
  ⟨trivial, Draft.readable_toJson (forall_doubles_iff.mpr reads)⟩

theorem mapReals_overviewJson (source : String) (reread : Float → Float) (settings : Settings) :
    (settings.overviewJson source).mapReals reread =
      (settings.mapDoubles reread).overviewJson source :=
  rfl

/-- A printed overview is read as the settings, with the doubles that the reading makes. -/
theorem ofTextWith_overview
    (source : String)
    (reads : settings.ReadAs reading reread)
    (blank : ∀ c ∈ blanks, Json.Token.isBlank c = true) :
    ofTextWith reading .json ((settings.overviewJson source).pretty.toList ++ blanks) =
      (settings.mapDoubles reread).validate := by
  obtain ⟨doc, parsed, said⟩ := Json.parse_pretty_append (readable_overviewJson source reads) blank
  rw [mapReals_overviewJson] at said
  have read := takes_overviewJson source (settings.mapDoubles reread) doc said
  rw [ofTextWith, parseWith, ofJson, parsed, Source.read, read]
  rfl

/-- Valid settings come back from their overview wherever numbers are rounded once. -/
theorem ofTextWith_nearest_overview
    (source : String)
    (valid : settings.Valid)
    (blank : ∀ c ∈ blanks, Json.Token.isBlank c = true) :
    ofTextWith Numeral.nearest .json ((settings.overviewJson source).pretty.toList ++ blanks) =
      .ok settings := by
  have same : settings.mapDoubles id = settings := mapDoubles_eq_self_iff.mpr fun _ _ => rfl
  rw [ofTextWith_overview source valid.readAs_nearest blank, same]
  exact (checks_validate settings).1 valid

/-- Overviews of different valid settings are different texts. -/
theorem eq_of_overview_eq
    {other : Settings}
    {source : String}
    (valid : settings.Valid)
    (otherValid : other.Valid)
    (same : (settings.overviewJson source).pretty = (other.overviewJson source).pretty) :
    settings = other := by
  have loaded := ofTextWith_nearest_overview source valid (List.forall_mem_nil _)
  rw [same, ofTextWith_nearest_overview source otherValid (List.forall_mem_nil _)] at loaded
  exact (Except.ok.inj loaded).symm

/-- Loading an overview leads to the settings if and only if no double is changed. -/
theorem ofTextWith_overview_eq_ok_iff
    (source : String)
    (valid : settings.Valid)
    (reads : settings.ReadAs reading reread)
    (blank : ∀ c ∈ blanks, Json.Token.isBlank c = true) :
    ofTextWith reading .json ((settings.overviewJson source).pretty.toList ++ blanks) =
        .ok settings ↔
      settings.Kept reread := by
  rw [ofTextWith_overview source reads blank, validate_mapDoubles_eq_ok_iff valid]

end Documents

section Commands

variable {files : Files} {path : String} {settings : Settings} {reread : Float → Float}

/-- Where settings apply, the only thing that is printed is the overview of them. -/
theorem perform_info (applies : settings.ApplyAt files (some path)) :
    ((Command.info (some path) true).perform files).lines =
        [(settings.overviewJson path).pretty] ∧
      ((Command.info (some path) true).perform files).ending = .done := by
  have found := Command.settingsAt_eq_ok_iff.mpr applies
  simp only [Command.perform, Command.performInfo, found]
  exact ⟨rfl, trivial⟩

/-- Where no settings can be loaded, nothing is printed. -/
theorem perform_info_of_not_applyAt
    (refused : ∀ settings : Settings, ¬ settings.ApplyAt files (some path)) :
    ((Command.info (some path) true).perform files).lines = [] := by
  simp only [Command.perform, Command.performInfo]
  cases found : Command.settingsAt files (some path) with
  | error fault => rfl
  | ok settings => exact absurd (Command.settingsAt_eq_ok_iff.mp found) (refused settings)

/-- A file of JSON with a printed overview is shown as the overview if no double is changed. -/
theorem perform_info_overview_iff
    {source : String}
    {blanks : List Char}
    (valid : settings.Valid)
    (known : formatOf path = .ok .json)
    (blank : ∀ c ∈ blanks, Json.Token.isBlank c = true)
    (found : files.text path = .ok ((settings.overviewJson source).pretty.toList ++ blanks))
    (reads : settings.ReadAs Numeral.stepwise reread) :
    ((Command.info (some path) true).perform files).lines =
        [(settings.overviewJson path).pretty] ↔
      settings.Kept reread := by
  have loaded : ofFile files path = (settings.mapDoubles reread).validate := by
    rw [ofFile, known]
    simp only [found]
    exact ofTextWith_overview source reads blank
  have applies_iff (other : Settings) :
      other.ApplyAt files (some path) ↔
        (settings.mapDoubles reread).Valid ∧ settings.mapDoubles reread = other := by
    rw [← ofFile_eq_ok_iff, loaded, validate_eq_ok_iff]
  constructor
  · intro shown
    by_cases other : (settings.mapDoubles reread).Valid
    · have lines := (perform_info ((applies_iff _).mpr ⟨other, rfl⟩)).1
      rw [shown, List.singleton_inj] at lines
      rw [← mapDoubles_eq_self_iff]
      exact eq_of_overview_eq other valid lines.symm
    · have nothing := perform_info_of_not_applyAt fun settings applies =>
        other ((applies_iff settings).mp applies).1
      rw [shown] at nothing
      cases nothing
  · intro kept
    have same := mapDoubles_eq_self_iff.mpr kept
    exact (perform_info ((applies_iff settings).mpr ⟨by rwa [same], same⟩)).1

end Commands

/--
Where a file holds settings, their overview in JSON is the one text that is printed.  With
or without blanks behind it, it is itself a document of these settings for whoever rounds
numbers once.  The program makes of it the settings with its own reading of each double,
and checks these.  So it loads the same settings, and shows a file with that text as it has
shown the first one up to the source, if and only if its reading changes none of the doubles.
-/
theorem overview_read_again
    {files : Files}
    {path : String}
    {settings : Settings}
    (applies : settings.ApplyAt files (some path)) :
    let text := (settings.overviewJson path).pretty
    let shown := (Command.info (some path) true).perform files
    shown.lines = [text] ∧
    shown.ending = .done ∧
    ∀ blanks : List Char, (∀ c ∈ blanks, Json.Token.isBlank c = true) →
      ofTextWith Numeral.nearest .json (text.toList ++ blanks) = .ok settings ∧
      ∀ reread : Float → Float, settings.ReadAs Numeral.stepwise reread →
        ofText .json (text.toList ++ blanks) = (settings.mapDoubles reread).validate ∧
        (ofText .json (text.toList ++ blanks) = .ok settings ↔ settings.Kept reread) ∧
        ∀ (others : Files) (place : String), formatOf place = .ok .json →
          others.text place = .ok (text.toList ++ blanks) →
            (((Command.info (some place) true).perform others).lines =
                [(settings.overviewJson place).pretty] ↔
              settings.Kept reread) := by
  intro text shown
  obtain ⟨lines, ending⟩ := perform_info applies
  have valid : settings.Valid := by
    cases applies with
    | loaded known found parsed valid => exact valid
  refine ⟨lines, ending, fun blanks blank => ⟨ofTextWith_nearest_overview path valid blank, ?_⟩⟩
  intro reread reads
  exact ⟨ofTextWith_overview path reads blank,
    ofTextWith_overview_eq_ok_iff path valid reads blank,
    fun others place known found => perform_info_overview_iff valid known blank found reads⟩

/-- A directory with one file. -/
def singleFile (name : String) (text : List Char) : Files :=
  fun path => if path = name then .ok (.file (Utf8.encode text)) else .error .notFound

theorem text_singleFile (name : String) (text : List Char) :
    (singleFile name text).text name = .ok text := by
  have decoded := Utf8.decode_eq_ok_iff.mpr (rfl : Utf8.encode text = _)
  simp [Files.text, Files.bytes, singleFile, decoded, Except.mapError]

/-- The overview of a range of one hour and a tenth is read as that of a greater range. -/
theorem longer_overview_read_again :
    let settings := Draft.longer.onto .classic
    let source := singleFile "w.toml" (Draft.longer.text .toml).toList
    let text := (settings.overviewJson "w.toml").pretty
    let printed := text.toList ++ ['\n']
    ((Command.info (some "w.toml") true).perform source).lines = [text] ∧
    ofText .json printed =
      .ok { settings with kernel := { settings.kernel with timeRange := 3960.000000000001 } } ∧
    ofText .json printed ≠ .ok settings ∧
    ((Command.info (some "w.json") true).perform (singleFile "w.json" printed)).lines ≠
      [(settings.overviewJson "w.json").pretty] := by
  intro settings source text printed
  have valid : settings.Valid := by decide +kernel
  have applies : settings.ApplyAt source (some "w.toml") := by
    have known : formatOf "w.toml" = .ok .toml := by rfl
    have finite : ∀ x ∈ Draft.longer.doubles, x.isFinite = true := by decide +kernel
    rw [← ofFile_eq_ok_iff, ofFile, known, text_singleFile]
    exact (Draft.ofTextWith_toml Numeral.stepwise finite).trans ((checks_validate _).1 valid)
  obtain ⟨lines, -, again⟩ := overview_read_again applies
  let reread (x : Float) : Float := if x = 3960.0000000000005 then 3960.000000000001 else x
  have reads : settings.ReadAs Numeral.stepwise reread := by
    unfold ReadAs Numeral.Reading.ReadsAs
    decide +kernel
  have changed : ¬ settings.Kept reread := by
    unfold Kept
    decide +kernel
  have known : formatOf "w.json" = .ok .json := by rfl
  have blank : ∀ c ∈ ['\n'], Json.Token.isBlank c = true := List.forall_mem_singleton.mpr rfl
  obtain ⟨loaded, same, shown⟩ := (again ['\n'] blank).2 reread reads
  refine ⟨lines, ?_, mt same.mp changed, mt (shown _ _ known (text_singleFile _ _)).mp changed⟩
  rw [loaded]
  exact (checks_validate _).1 (by decide +kernel)

end Settings
end WindsAloft

import WindsAloft.Proofs.Codec.Wind
import WindsAloft.Proofs.Json.Compact
import WindsAloft.Proofs.Printing

/-!
# Printed answers are read back

An answer that is printed as JSON has an estimate among its members.  Where both
components of its wind are finite, the estimate is read back as it was, but for the
doubles, which are what the reading makes of their texts.  A component that is not finite
is printed as `null`, and then the estimate cannot be read at all.
-/

namespace WindsAloft

namespace Json

variable {reading : Numeral.Reading} {reread : Float → Float} {x : Float}

theorem readable_ofReal (reads : x.isFinite = true → reading.ReadsAs x (reread x)) :
    (ofReal x).Readable reading reread := by
  unfold ofReal
  split
  · next finite => exact reads finite
  · trivial

/-- A finite double is read as what the reading makes of it. -/
theorem real_takes_ofReal (finite : x.isFinite = true) :
    Reader.real.Takes ((ofReal x).mapReals reread) (reread x) := by
  rw [ofReal, if_pos finite, mapReals]
  exact Reader.real_takes_real (reread x)

/-- What is not finite is no double to a reader. -/
theorem real_refuses_ofReal (notFinite : ¬ x.isFinite = true) :
    Reader.real.Refuses ((ofReal x).mapReals reread) := by
  rw [ofReal, if_neg notFinite]
  exact Reader.real_refuses_null

end Json

namespace Wind

/-- A wind as its text has it. -/
def printed (wind : Wind) : Json :=
  .object [("x", .ofReal wind.x), ("y", .ofReal wind.y)]

/-- A wind of finite components is read back. -/
theorem takes_printed {wind : Wind} (reread : Float → Float) (finite : wind.IsFinite) :
    Reader.Takes layout.read (wind.printed.mapReals reread) (wind.map reread) := by
  have distinct : ["x", "y"].Nodup := by decide
  exact Layout.takes_of_yields distinct
    (yields distinct (List.mem_cons_self ..) (List.mem_cons_of_mem _ (List.mem_cons_self ..))
      (Json.real_takes_ofReal finite.1) (Json.real_takes_ofReal finite.2))

/-- Another wind is refused. -/
theorem refuses_printed {wind : Wind} (reread : Float → Float) (notFinite : ¬ wind.IsFinite) :
    Reader.Refuses layout.read (wind.printed.mapReals reread) := by
  rcases not_and_or.mp notFinite with infinite | infinite
  · exact refuses (.inl rfl) (List.mem_cons_self ..) (Json.real_refuses_ofReal infinite)
  · exact refuses (.inr rfl) (List.mem_cons_of_mem _ (List.mem_cons_self ..))
      (Json.real_refuses_ofReal infinite)

end Wind

/-- An estimate as its text has it. -/
def Estimate.printed (estimate : Estimate) : Json :=
  .object
    [ ("vector", estimate.wind.printed)
    , ("found", .bool estimate.found)
    , ("total_weight", .integer estimate.totalWeight.toInt)
    , ("contributors", .integer estimate.contributors) ]

namespace Estimate

/-- An estimate with other doubles. -/
def map (change : Float → Float) (estimate : Estimate) : Estimate :=
  { estimate with wind := estimate.wind.map change }

/-- An estimate stays the same if and only if both components of its wind do. -/
theorem map_eq_self_iff {estimate : Estimate} {change : Float → Float} :
    estimate.map change = estimate ↔
      change estimate.wind.x = estimate.wind.x ∧ change estimate.wind.y = estimate.wind.y := by
  obtain ⟨⟨x, y⟩, found, totalWeight, contributors⟩ := estimate
  simp [map, Wind.map]

theorem takes_printed
    {estimate : Estimate}
    (reread : Float → Float)
    (small : estimate.contributors < UInt64.size)
    (finite : estimate.wind.IsFinite) :
    Reader.Takes layout.read (estimate.printed.mapReals reread) (estimate.map reread) := by
  have distinct : ["vector", "found", "total_weight", "contributors"].Nodup := by decide
  refine Layout.takes_of_yields distinct (yields distinct ?_ ?_ ?_ ?_
    (Wind.takes_printed reread finite) small)
  all_goals simp only [Json.mapMembers, Json.mapReals, List.mem_cons, true_or, or_true, map]

theorem refuses_printed
    {estimate : Estimate}
    (reread : Float → Float)
    (notFinite : ¬ estimate.wind.IsFinite) :
    Reader.Refuses layout.read (estimate.printed.mapReals reread) :=
  refuses (List.mem_cons_self ..) (Wind.refuses_printed reread notFinite)

end Estimate

namespace Outcome

/-- The members of an answer as its text has them. -/
def printedMembers (outcome : Outcome) : List (String × Json) :=
  [ ("time", .ofReal outcome.point.time)
  , ("altitude", .ofReal outcome.point.altitude)
  , ("estimate", outcome.estimate.printed) ]

/-- An answer as its text has it. -/
def printed (outcome : Outcome) : Json :=
  .object outcome.printedMembers

theorem estimate_mem_printedMembers (outcome : Outcome) (reread : Float → Float) :
    ("estimate", outcome.estimate.printed.mapReals reread) ∈
      Json.mapMembers reread outcome.printedMembers := by
  simp only [printedMembers, Json.mapMembers, List.mem_cons, true_or, or_true]

theorem line_eq_printed (outcome : Outcome) : outcome.line true = outcome.printed.compact := by
  simp only [line, if_true, toJson, printed, printedMembers, Estimate.toJson, Estimate.printed,
    Wind.toJson, Wind.printed, Json.compact, Json.compactChars, Json.compactMembers,
    Json.compactChars_ofReal]

/-- What looks for the estimate of an answer. -/
def estimateLayout : Layout Estimate where
  title := "struct QueryOutcome"
  part := .required "estimate" Estimate.layout.read

/-- The estimate that is read from the line of an answer. -/
def readEstimate (reading : Numeral.Reading) (line : String) : Except Fault Estimate :=
  (Json.parse reading line.toList).read estimateLayout.read

/-- The doubles of an answer. -/
def doubles (outcome : Outcome) : List Float :=
  [outcome.point.time, outcome.point.altitude, outcome.estimate.wind.x, outcome.estimate.wind.y]

/-- The printed line is read as a document that says what was printed. -/
theorem exists_parse_line
    {reading : Numeral.Reading}
    {reread : Float → Float}
    {outcome : Outcome}
    (small : outcome.estimate.contributors < UInt64.size)
    (reads : ∀ x ∈ outcome.doubles, x.isFinite = true → reading.ReadsAs x (reread x)) :
    ∃ doc, Json.parse reading (outcome.line true).toList = ⟨doc, none⟩ ∧
      doc.content? = some (outcome.printed.mapReals reread) := by
  have double (x : Float) (among : x ∈ outcome.doubles) : (Json.ofReal x).Readable reading reread :=
    Json.readable_ofReal (reads x among)
  have weight : Int64.minValue.toInt ≤ outcome.estimate.totalWeight.toInt ∧
      outcome.estimate.totalWeight.toInt < UInt64.size :=
    ⟨outcome.estimate.totalWeight.le_toInt, outcome.estimate.totalWeight.toInt_lt.trans (by decide)⟩
  have count : Int64.minValue.toInt ≤ (outcome.estimate.contributors : ℤ) ∧
      (outcome.estimate.contributors : ℤ) < UInt64.size :=
    ⟨le_trans (by decide) (Int.natCast_nonneg _), by exact_mod_cast small⟩
  rw [line_eq_printed]
  apply Json.parse_compact
  simp only [doubles, List.forall_mem_cons] at double
  simp only [printed, printedMembers, Estimate.printed, Wind.printed, Json.Readable,
    Json.ReadableMembers, double, weight, count, and_self]

/-- Where the wind is finite, its estimate is read from the line with the doubles reread. -/
theorem readEstimate_line
    {reading : Numeral.Reading}
    {reread : Float → Float}
    {outcome : Outcome}
    (small : outcome.estimate.contributors < UInt64.size)
    (reads : ∀ x ∈ outcome.doubles, x.isFinite = true → reading.ReadsAs x (reread x))
    (finite : outcome.estimate.wind.IsFinite) :
    readEstimate reading (outcome.line true) = .ok (outcome.estimate.map reread) := by
  obtain ⟨doc, parsed, said⟩ := exists_parse_line small reads
  have distinct : ["time", "altitude", "estimate"].Nodup := by decide
  have takes : Reader.Takes estimateLayout.read (outcome.printed.mapReals reread)
      (outcome.estimate.map reread) :=
    Layout.takes_of_yields distinct
      (Part.yields_required distinct (estimate_mem_printedMembers outcome reread)
        (Estimate.takes_printed reread small finite))
  rw [readEstimate, parsed, Source.read, takes doc said]

/-- Where the wind is not finite, no estimate can be read from the line. -/
theorem readEstimate_line_of_not_finite
    {reading : Numeral.Reading}
    {reread : Float → Float}
    {outcome : Outcome}
    (small : outcome.estimate.contributors < UInt64.size)
    (reads : ∀ x ∈ outcome.doubles, x.isFinite = true → reading.ReadsAs x (reread x))
    (notFinite : ¬ outcome.estimate.wind.IsFinite) :
    ∃ fault, readEstimate reading (outcome.line true) = .error fault := by
  obtain ⟨doc, parsed, said⟩ := exists_parse_line small reads
  have refuses : Reader.Refuses estimateLayout.read (outcome.printed.mapReals reread) :=
    Layout.refuses_of_member rfl (estimate_mem_printedMembers outcome reread)
      (Estimate.refuses_printed reread notFinite)
  obtain ⟨fault, failed⟩ := refuses doc said
  exact ⟨fault, by rw [readEstimate, parsed, Source.read, failed]⟩

/--
What the line of an answer says.  As JSON it is a document of the answer.  For people it
names the place of the query, by texts that are read as its time and its altitude, and then
the wind there or that there is none, and how many samples there were.
-/
inductive Written (outcome : Outcome) : Bool → String → Prop
  | json
      {line : String}
      {doc : Doc}
      (parsed : Json.parse Numeral.nearest line.toList = ⟨doc, none⟩)
      (said : doc.content? = some outcome.printed) :
      Written outcome true line
  | found
      {time altitude : List Char}
      (itsTime : outcome.point.time.isFinite = true → Numeral.IsReadAs time outcome.point.time)
      (itsAltitude :
        outcome.point.altitude.isFinite = true → Numeral.IsReadAs altitude outcome.point.altitude)
      (found : outcome.estimate.found = true) :
      Written outcome false
        ("t=" ++ String.ofList time ++ " alt=" ++ String.ofList altitude
          ++ ": wind x=" ++ String.ofList (fixedFloat 3 outcome.estimate.wind.x)
          ++ " y=" ++ String.ofList (fixedFloat 3 outcome.estimate.wind.y)
          ++ " (speed " ++ String.ofList (fixedFloat 3 outcome.estimate.wind.speed)
          ++ ", bearing " ++ String.ofList (fixedFloat 1 outcome.estimate.wind.bearing)
          ++ ") from " ++ toString outcome.estimate.contributors ++ " samples")
  | missing
      {time altitude : List Char}
      (itsTime : outcome.point.time.isFinite = true → Numeral.IsReadAs time outcome.point.time)
      (itsAltitude :
        outcome.point.altitude.isFinite = true → Numeral.IsReadAs altitude outcome.point.altitude)
      (missing : outcome.estimate.found = false) :
      Written outcome false
        ("t=" ++ String.ofList time ++ " alt=" ++ String.ofList altitude
          ++ ": no estimate (" ++ toString outcome.estimate.contributors ++ " samples in window)")

/-- The line that is printed for an answer says it. -/
theorem written_line
    {outcome : Outcome}
    (json : Bool)
    (small : outcome.estimate.contributors < UInt64.size) :
    outcome.Written json (outcome.line json) := by
  cases json with
  | true =>
      have reads (x : Float) (_ : x ∈ outcome.doubles) (finite : x.isFinite = true) :
          Numeral.Reading.ReadsAs Numeral.nearest x (id x) := Numeral.nearest_reads finite
      obtain ⟨doc, parsed, said⟩ := exists_parse_line small reads
      rw [Json.mapReals_id] at said
      exact .json parsed said
  | false =>
      have itsTime := Numeral.displayFloat_isReadAs (x := outcome.point.time)
      have itsAltitude := Numeral.displayFloat_isReadAs (x := outcome.point.altitude)
      unfold line describe
      simp only [Bool.false_eq_true, if_false]
      cases found : outcome.estimate.found with
      | true => exact .found itsTime itsAltitude found
      | false => exact .missing itsTime itsAltitude found

end Outcome
end WindsAloft

import WindsAloft.Proofs.Toml.Lines

/-!
# The document of lines

A document of entries and of sections with entries of their own is put together from
its lines.  The members of every table come out sorted by name, whatever their order
in the text, and say what the lines say.
-/

namespace WindsAloft
namespace Toml

/-- Entries sorted by name. -/
def sorted (entries : List (String × Json)) : List (String × Json) :=
  entries.insertionSort fun left right => ¬ right.1 < left.1

theorem sorted_perm (entries : List (String × Json)) : (sorted entries).Perm entries :=
  List.perm_insertionSort _ entries

/-- The value of a member that is inserted comes among the others by its name. -/
theorem contents?_insertMember
    {key : Key}
    {name : String}
    {value : Doc}
    {item : Json}
    {entries : List (String × Json)}
    (members : Members)
    (named : key.name = .ok name)
    (first : value.content? = some item)
    (others : members.contents? = some entries) :
    (insertMember key name value members).contents? =
      some (entries.orderedInsert (fun left right => ¬ right.1 < left.1) (name, item)) := by
  match members with
  | .closed span =>
      rw [Members.contents?] at others
      obtain rfl := Option.some.inj others
      exact Members.contents?_member_eq_some.mpr ⟨_, _, _, named, first, rfl, rfl⟩
  | .broken _ _ _ =>
      rw [Members.contents?] at others
      cases others
  | .member other old follow rest =>
      obtain ⟨otherName, otherItem, more, otherNamed, otherFirst, inside, rfl⟩ :=
        Members.contents?_member_eq_some.mp others
      rw [insertMember, otherNamed, List.orderedInsert]
      dsimp only
      by_cases before : otherName < name
      · rw [if_pos before, if_neg (not_not.mpr before)]
        exact Members.contents?_member_eq_some.mpr ⟨_, _, _, otherNamed, otherFirst,
          contents?_insertMember rest named first inside, rfl⟩
      · rw [if_neg before, if_pos before]
        exact Members.contents?_member_eq_some.mpr ⟨_, _, _, named, first, others, rfl⟩

/-- Rows stand for entries, in the same order. -/
inductive Rows.Says : Rows → List (String × Json) → Prop
  | nil : Says .nil []
  | cons {name : Name} {row : Row} {rest : Rows} {item : Json} {entries : List (String × Json)} :
      row.toDoc.content? = some item → Says rest entries →
        Says (.cons name row rest) ((name.text, item) :: entries)

namespace Rows

variable {rows : Rows} {row other : Row} {name : Name} {item : Json}
  {entries : List (String × Json)}

/-- The members that rows become are sorted. -/
theorem Says.contents?_toMembers (said : rows.Says entries) (span : Span) :
    (rows.toMembers span).contents? = some (sorted entries) := by
  induction said with
  | nil => rfl
  | cons first _ ih =>
      rw [Rows.toMembers]
      exact contents?_insertMember _ rfl first ih

/-- A table is an object of the entries that its rows stand for. -/
theorem Says.content?_table (said : rows.Says entries) (origin : Origin) (span : Span) :
    (Row.table origin span rows).toDoc.content? = some (.object (sorted entries)) := by
  rw [Row.toDoc, Doc.content?, said.contents?_toMembers, Option.map_some]

theorem ne_and_new_of_new {key : String} {entry : String × Json}
    (new : key ∉ (entry :: entries).map Prod.fst) :
    entry.1 ≠ key ∧ key ∉ entries.map Prod.fst := by
  rw [List.map_cons, List.mem_cons, not_or] at new
  exact ⟨Ne.symm new.1, new.2⟩

section New

variable (said : rows.Says entries) (new : name.text ∉ entries.map Prod.fst)
include said new

theorem Says.find?_eq_none : rows.find? name.text = none := by
  induction said with
  | nil => rfl
  | cons _ _ ih =>
      obtain ⟨different, newRest⟩ := ne_and_new_of_new new
      rw [find?, if_neg different]
      exact ih newRest

theorem Says.put (first : row.toDoc.content? = some item) :
    (rows.put name row).Says (entries ++ [(name.text, item)]) := by
  induction said with
  | nil => exact .cons first .nil
  | cons inside _ ih =>
      obtain ⟨different, newRest⟩ := ne_and_new_of_new new
      rw [Rows.put, if_neg different]
      exact .cons inside (ih newRest)

theorem Says.find?_put : (rows.put name row).find? name.text = some row := by
  induction said with
  | nil => rw [Rows.put, find?, if_pos rfl]
  | cons _ _ ih =>
      obtain ⟨different, newRest⟩ := ne_and_new_of_new new
      rw [Rows.put, if_neg different, find?, if_neg different]
      exact ih newRest

theorem Says.put_put : (rows.put name row).put name other = rows.put name other := by
  induction said with
  | nil => simp only [Rows.put, if_true]
  | cons _ _ ih =>
      obtain ⟨different, newRest⟩ := ne_and_new_of_new new
      rw [Rows.put, if_neg different, Rows.put, if_neg different,
        Rows.put, if_neg different, ih newRest]

end New

end Rows

section Assembling

open Rows (Says)

variable {rows : Rows} {name : Name} {entries before : List (String × Json)}
  {statements : List Statement}

/-- Among entries of different names no name comes before its own entry. -/
theorem new_of_distinct
    {entry : String × Json}
    (distinct : ((before ++ entry :: entries).map Prod.fst).Nodup) :
    entry.1 ∉ before.map Prod.fst := by
  rw [List.map_append, List.map_cons, List.nodup_middle, List.nodup_cons] at distinct
  exact fun among => distinct.1 (List.mem_append_left _ among)

/-- A key of one part puts its value behind what a table has already. -/
theorem addEntry_of_new
    (doc : Doc)
    (said : rows.Says entries)
    (new : name.text ∉ entries.map Prod.fst) :
    addEntry [name] doc .opened rows = .ok (rows.put name (.value doc)) := by
  show addValue false name doc .opened rows = _
  rw [addValue, if_neg (by decide), said.find?_eq_none new]

/--
The lines of one table, wherever its rows are inside of all rows: at the top they are
all rows, and below a header they are those of one table.
-/
theorem assemble_entries
    {path : List Name}
    {inside : Rows → Rows}
    (leads : ∀ key doc below, addBelow path key doc (inside below) =
      (addEntry key doc .opened below).map inside)
    (written : List.Forall₂ Statement.Says statements
      (entries.map fun entry => .entry entry.1 entry.2))
    (said : rows.Says before)
    (distinct : ((before ++ entries).map Prod.fst).Nodup) :
    ∃ after : Rows, after.Says (before ++ entries) ∧
      ∀ more, assemble path (inside rows) (statements ++ more) =
        assemble path (inside after) more := by
  induction entries generalizing rows before statements with
  | nil =>
      cases written
      exact ⟨rows, by rwa [List.append_nil], fun more => rfl⟩
  | cons entry entries ih =>
      obtain ⟨key, item⟩ := entry
      rw [List.map_cons] at written
      cases written with
      | @cons statement _ statements _ first others =>
          cases first with
          | @entry name value doc _ isDoc isItem =>
              have new : name.text ∉ before.map Prod.fst := new_of_distinct distinct
              have added := addEntry_of_new doc said new
              have saidAfter : (rows.put name (.value doc)).Says (before ++ [(name.text, item)]) :=
                said.put new isItem
              rw [List.append_cons] at distinct
              obtain ⟨after, saidAll, assembled⟩ := ih others saidAfter distinct
              refine ⟨after, by rwa [List.append_cons], fun more => ?_⟩
              rw [List.cons_append, assemble, isDoc]
              simp only [leads, added, Except.map]
              exact assembled more

/-- The lines of a section. -/
def sectionLines (name : String) (entries : List (String × Json)) : List Line :=
  .header name :: entries.map fun entry => .entry entry.1 entry.2

/-- What the lines of a section give the document: one table under the section's name. -/
def sectionEntry (name : String) (entries : List (String × Json)) : String × Json :=
  (name, .object (sorted entries))

/-- A header of a new name opens a table, and the lines behind it are the table's. -/
theorem assemble_section
    {title : String}
    (written : List.Forall₂ Statement.Says statements (sectionLines title entries))
    (path : List Name)
    (said : rows.Says before)
    (new : title ∉ before.map Prod.fst)
    (distinct : (entries.map Prod.fst).Nodup) :
    ∃ (below : List Name) (after : Rows),
      after.Says (before ++ [sectionEntry title entries]) ∧
        ∀ more, assemble path rows (statements ++ more) = assemble below after more := by
  cases written with
  | @cons statement _ statements _ first others =>
      cases first with
      | @header name span =>
          have opened : atHeader [name] (openTable · span) rows =
              .ok (rows.put name (.table .opened span .nil)) := by
            show openTable name span .opened rows = _
            rw [openTable, said.find?_eq_none new]
          -- The new table is found again under its name, and replaced where it stands.
          have leads : ∀ key doc below,
              addBelow [name] key doc (rows.put name (.table .opened span below)) =
                (addEntry key doc .opened below).map
                  fun below => rows.put name (.table .opened span below) := by
            intro key doc below
            rw [addBelow, changeAt, said.find?_put new]
            simp only [Bool.false_eq_true, false_and, if_false, changeAt]
            cases addEntry key doc .opened below with
            | error flaw => rfl
            | ok below => exact congrArg Except.ok (said.put_put new)
          obtain ⟨after, saidAfter, assembled⟩ := assemble_entries leads others .nil distinct
          refine ⟨[name], rows.put name (.table .opened span after), ?_, fun more => ?_⟩
          · exact said.put new (saidAfter.content?_table .opened span)
          · rw [List.cons_append, assemble, opened]
            exact assembled more

theorem assemble_sections
    {sections : List (String × List (String × Json))}
    (written : List.Forall₂ Statement.Says statements
      (sections.flatMap fun part => sectionLines part.1 part.2))
    (path : List Name)
    (said : rows.Says before)
    (distinct : (before.map Prod.fst ++ sections.map Prod.fst).Nodup)
    (distinctInside : ∀ part ∈ sections, (part.2.map Prod.fst).Nodup) :
    ∃ after : Rows,
      after.Says (before ++ sections.map fun part => sectionEntry part.1 part.2) ∧
        assemble path rows statements = .ok after := by
  induction sections generalizing rows before statements path with
  | nil =>
      cases written
      exact ⟨rows, by rwa [List.map_nil, List.append_nil], rfl⟩
  | cons part sections ih =>
      rw [List.flatMap_cons] at written
      have first := List.forall₂_take_append _ _ _ written
      have others := List.forall₂_drop_append _ _ _ written
      have newName : part.1 ∉ before.map Prod.fst := by
        rw [List.map_cons, List.nodup_middle, List.nodup_cons] at distinct
        exact fun among => distinct.1 (List.mem_append_left _ among)
      obtain ⟨below, middle, saidMiddle, passed⟩ :=
        assemble_section first path said newName (distinctInside part List.mem_cons_self)
      obtain ⟨after, saidAfter, assembled⟩ := ih others below saidMiddle
        (by simpa [sectionEntry] using distinct)
        fun other among => distinctInside other (List.mem_cons_of_mem _ among)
      refine ⟨after, ?_, ?_⟩
      · rwa [List.map_cons, List.append_cons]
      · rw [← List.take_append_drop (sectionLines part.1 part.2).length statements, passed,
          assembled]

/-- The lines of a document: entries, and sections behind them. -/
def documentLines
    (entries : List (String × Json))
    (sections : List (String × List (String × Json))) :
    List Line :=
  entries.map (fun entry => .entry entry.1 entry.2)
    ++ sections.flatMap fun part => sectionLines part.1 part.2

/-- A document that is written line by line and read again says what was written. -/
theorem parse_documentLines
    {sections : List (String × List (String × Json))}
    (proper : ∀ line ∈ documentLines entries sections, line.Proper)
    (distinct : (entries.map Prod.fst ++ sections.map Prod.fst).Nodup)
    (distinctInside : ∀ part ∈ sections, (part.2.map Prod.fst).Nodup) :
    ∃ doc, parse ((documentLines entries sections).flatMap Line.chars) = .ok ⟨doc, none⟩ ∧
      doc.content? = some (.object (sorted
        (entries ++ sections.map fun part => sectionEntry part.1 part.2))) := by
  obtain ⟨said, read, written⟩ := statements_lines proper
  have first := List.forall₂_take_append _ _ _ written
  have others := List.forall₂_drop_append _ _ _ written
  have leads : ∀ key doc below, addBelow [] key doc (id below) =
      (addEntry key doc .opened below).map id := by
    intro key doc below
    rw [Except.map_id]
    rfl
  obtain ⟨middle, saidMiddle, passed⟩ :=
    assemble_entries leads first .nil distinct.of_append_left
  obtain ⟨after, saidAfter, assembled⟩ :=
    assemble_sections others [] saidMiddle distinct distinctInside
  let span : Span := ⟨0, Utf8.size ((documentLines entries sections).flatMap Line.chars)⟩
  refine ⟨.object span (after.toMembers span), ?_, ?_⟩
  · have whole : assemble [] .nil said = .ok after := by
      rw [← List.take_append_drop (entries.map fun entry => Line.entry entry.1 entry.2).length said]
      exact (passed _).trans assembled
    rw [parse, read]
    show (assemble [] .nil said).map _ = _
    rw [whole]
    rfl
  · rw [Doc.content?, saidAfter.contents?_toMembers, Option.map_some]
    rfl

end Assembling

end Toml
end WindsAloft

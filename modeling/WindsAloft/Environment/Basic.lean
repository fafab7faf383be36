/-!
# Environments

An environment gives values to some names.
-/

namespace WindsAloft

abbrev Environment : Type :=
  String → Option String

namespace Environment

/-- The environment of some names and values; of two alike the first one counts. -/
def ofList (list : List (String × String)) : Environment :=
  fun name => list.lookup name

/-- The environment with one more variable, unless there is one of that name already. -/
def define
    (environment : Environment)
    (name value : String) :
    Environment :=
  fun other => if other = name then some ((environment name).getD value) else environment other

theorem define_of_isSome
    (environment : Environment)
    {name : String}
    (value : String)
    (h : (environment name).isSome) :
    environment.define name value = environment := by
  funext other
  obtain ⟨old, hold⟩ := Option.isSome_iff_exists.1 h
  by_cases hname : other = name <;> simp [define, hname, hold]

end Environment
end WindsAloft

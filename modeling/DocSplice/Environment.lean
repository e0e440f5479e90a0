import DocSplice.Filter

/-!
# DocSplice.Environment

The variables of the process.

* `Environment`: names and values, where the first value of a name counts. `Environment.supply` sets
  a variable that is not set yet, and `Environment.value?_supply` says what it changes.
* `Environment.filter`: the filter of the log that an environment asks for.
-/

namespace DocSplice

/-- Names and values, the one that counts first. -/
abbrev Environment := List (Text × Text)

namespace Environment

/-- What a setting says about a name: what follows the name and an equals sign in the text
`NAME=VALUE`. A name with an equals sign in it thus reaches into the value. -/
def valueIn (name : Text) (setting : Text × Text) : Option Text :=
  (name ++ ['=']).isPrefixOf? (setting.1 ++ '=' :: setting.2)

/-- The variable whose setting a name is looked up in. -/
def variableOf (name : Text) : Text := name.takeWhile (· != '=')

def value? (e : Environment) (name : Text) : Option Text := e.findSome? (valueIn name)

/-- Sets a variable that is not set yet. -/
def supply (e : Environment) (name value : Text) : Environment :=
  if (e.value? name).isSome then e else e ++ [(name, value)]

theorem isPrefixOf?_cons (c d : Char) (s t : Text) :
    (c :: s).isPrefixOf? (d :: t) = if c == d then s.isPrefixOf? t else none := rfl

theorem valueIn_of_notMem {name other : Text} (value : Text) (hn : '=' ∉ name) (ho : '=' ∉ other) :
    valueIn other (name, value) = if other = name then some value else none := by
  unfold valueIn
  induction other generalizing name with
  | nil => cases name with
    | nil => rfl
    | cons d name =>
      simp only [List.mem_cons, not_or] at hn
      simp [isPrefixOf?_cons, hn.1]
  | cons c other ih => cases name with
    | nil =>
      simp only [List.mem_cons, not_or] at ho
      simp [isPrefixOf?_cons, Ne.symm ho.1]
    | cons d name =>
      simp only [List.mem_cons, not_or] at hn ho
      by_cases hc : c = d
      · simpa [isPrefixOf?_cons, hc] using ih hn.2 ho.2
      · simp [isPrefixOf?_cons, hc]

theorem value?_supply (e : Environment) {name other : Text} (value : Text) (hn : '=' ∉ name)
    (ho : '=' ∉ other) :
    (e.supply name value).value? other =
      (e.value? other).or (if other = name then some value else none) := by
  unfold supply
  split
  · next h =>
    by_cases ho : other = name
    · subst ho
      rw [Option.or_of_isSome h]
    · simp [ho]
  · simp [value?, List.findSome?_append, valueIn_of_notMem value hn ho]

/-- Directory of included files. -/
def baseVariable : Text := "MD_PREPROCESS_BASE_DIR".toList

/-- Filter of the log. -/
def logVariable : Text := "RUST_LOG".toList

def logText (e : Environment) : Text := (e.value? logVariable).getD []

/-- The filter of the log. By itself it shows warnings, or everything from `debug` upward if more
was wanted. -/
def filter (e : Environment) (verbose : Bool) : Filter :=
  Filter.ofText (if verbose then .debug else .warn) e.logText

end Environment
end DocSplice

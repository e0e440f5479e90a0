import DocSplice.Evaluation
import DocSplice.Segment

/-!
# DocSplice.Run

A document is processed from left to right. Plain characters are kept, directives are replaced,
and in the end the escape pass makes escaped markers literal. A replacement is never read again,
and the first failure ends the run.

* `Progress`: the state of a run between two segments; `Progress.step` takes one segment.
* `Run`: what a run leaves behind. `Run.ofText` is the run over a document.
-/

namespace DocSplice

/-- How far a run has come. What was written and told is kept in reverse. -/
structure Progress where
  position : Position := .start
  bindings : Bindings := .none
  written : Text := []
  directives : Nat := 0
  events : List Event := []

/-- How a run fails: the failure, and what was told before it. -/
structure Halt where
  failure : Failure
  bindings : Bindings
  events : List Event

namespace Progress

/-- Binds a variable before the first directive. -/
def predefine (p : Progress) (name value : Text) : Progress :=
  { p with
    bindings := p.bindings.define name value
    events := Event.redefinitions p.bindings name ++ p.events }

/-- The beginning of a run with predefined variables, of which a later one wins. -/
def seeded (predefined : List (Text × Text)) : Progress :=
  predefined.foldl (fun p (name, value) => p.predefine name value) {}

/-- Takes one segment. The body of a directive is trimmed before it is read. -/
def step (source : IncludeSource) (p : Progress) (s : Segment) : Except Halt Progress :=
  match s with
  | .plain c => .ok { p with position := p.position.next c, written := c :: p.written }
  | .directive body =>
    let inner := body.trim
    let e := Evaluation.of source p.position p.bindings inner (Directive.ofText? inner)
    let events := e.events.reverse ++ p.events
    match e.result with
    | .error failure => .error ⟨failure, e.bindings, events⟩
    | .ok replacement => .ok
      { position := p.position.after s.text
        bindings := e.bindings
        written := replacement.reverse ++ p.written
        directives := p.directives + 1
        events }

/-- Takes segments until one fails. -/
def steps (source : IncludeSource) (p : Progress) (l : List Segment) : Except Halt Progress :=
  l.foldlM (step source) p

end Progress

structure Output where
  text : Text
  bindings : Bindings
  directives : Nat

/-- What a run leaves behind: the events in order, and the outcome. -/
structure Run where
  events : List Event
  result : Except Failure Output

/-- What the steps of a run come to. -/
def Run.ofOutcome : Except Halt Progress → Run
  | .error h => ⟨h.events.reverse, .error h.failure⟩
  | .ok p =>
    { events := (.complete p.directives p.bindings.count :: p.events).reverse
      result := .ok
        { text := Marker.unescape p.written.reverse
          bindings := p.bindings
          directives := p.directives } }

def Run.ofText (source : IncludeSource) (predefined : List (Text × Text)) (t : Text) : Run :=
  .ofOutcome ((Progress.seeded predefined).steps source t.segments)

end DocSplice

import DocSplice.Bindings
import DocSplice.Directive
import DocSplice.Path

/-!
# DocSplice.Event

What a run tells about itself while it works.

* `Level`: how important an event is, and `Level.passes`: is it let through by a threshold?
* `Event`: the four things that are told, with their levels and their lines of the log.
* `Event.redefinitions`: the event that a definition causes, if the name is bound already.
-/

namespace DocSplice

/-- Importance of an event, the least first. -/
inductive Level where
  | trace
  | debug
  | info
  | warn
  | error
  deriving DecidableEq, Repr

namespace Level

def rank : Level → Nat
  | trace => 0
  | debug => 1
  | info => 2
  | warn => 3
  | error => 4

def label : Level → Text
  | trace => "TRACE".toList
  | debug => "DEBUG".toList
  | info => "INFO".toList
  | warn => "WARN".toList
  | error => "ERROR".toList

/-- A threshold lets the levels from it upward through; without a threshold nothing passes. -/
def passes (threshold : Option Level) (level : Level) : Bool :=
  match threshold with
  | some least => least.rank ≤ level.rank
  | none => false

end Level

/-- What a run tells about itself. -/
inductive Event where
  | baseResolved (base : Path) (given : Bool)
  | redefined (name : Text)
  | evaluating (form : Form) (line : Nat)
  | complete (directives symbols : Nat)
  deriving DecidableEq, Repr

namespace Event

def level : Event → Level
  | baseResolved _ _ => .debug
  | redefined _ => .trace
  | evaluating _ _ => .debug
  | complete _ _ => .info

/-- The part of the program that an event comes from. -/
def origin : Event → Text
  | baseResolved _ _ => "md_preprocess".toList
  | redefined _ => "md_preprocess::symbols".toList
  | evaluating _ _ => "md_preprocess::production".toList
  | complete _ _ => "md_preprocess::preprocessor".toList

def statement : Event → Text
  | baseResolved base given =>
    "resolved include base directory base_dir=".toList ++ base.text ++
      " from_option_or_env=".toList ++ (if given then "true" else "false").toList
  | redefined name => "variable redefined variable=".toList ++ name
  | evaluating form line =>
    "evaluating directive production=\"".toList ++ form.label ++ "\" line=".toList ++
      Text.ofNat line
  | complete directives symbols =>
    "preprocessing complete directives=".toList ++ Text.ofNat directives ++
      " symbols=".toList ++ Text.ofNat symbols

def line (e : Event) : Text :=
  e.level.label ++ ' ' :: e.origin ++ ": ".toList ++ e.statement

/-- What binding a name tells: nothing, unless it was bound before. -/
def redefinitions (b : Bindings) (name : Text) : List Event :=
  if b.binds name then [.redefined name] else []

/-- The lines of the events that pass the threshold for their origin. -/
def log (threshold : Text → Option Level) (events : List Event) : List Text :=
  (events.filter fun e => e.level.passes (threshold e.origin)).map line

end Event
end DocSplice

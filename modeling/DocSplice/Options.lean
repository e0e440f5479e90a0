import DocSplice.Environment
import DocSplice.Name
import DocSplice.Settings

/-!
# DocSplice.Options

The command line.

* `Options`: what a command line asks for.
* `Options.Stop`: why no run begins: a mistake, or a request for help or for the version.
* `Options.parse`: reads arguments from left to right. An option may be long or short, short ones
  may share an argument, and a value may be attached or may be the next argument.
-/

namespace DocSplice

inductive Format where
  | text
  | json
  deriving DecidableEq, Repr

structure Options where
  input : Option Path := none
  output : Option Path := none
  base : Option Path := none
  definitions : List (Text × Text) := []
  format : Option Format := none
  verbose : Bool := false
  deriving DecidableEq, Repr

namespace Options

/-- Options that take a value. -/
inductive Setting where
  | output
  | base
  | definition
  | format
  deriving DecidableEq, Repr

/-- Options that take none. -/
inductive Flag where
  | verbose
  | version
  | help
  deriving DecidableEq, Repr

inductive Mistake where
  | unknownOption (text : Text)
  | missingValue (s : Setting)
  | unexpectedValue (f : Flag)
  | emptyPath
  | badFormat (value : Text)
  | badDefinition (e : Assignment.Error)
  | repeated (name : Text)
  | unexpectedArgument (text : Text)
  deriving DecidableEq, Repr

inductive Stop where
  | mistake (m : Mistake)
  | version
  | help
  deriving DecidableEq, Repr

/-! ## Names of options -/

def Setting.name : Setting → Text
  | output => "output".toList
  | base => "base-dir".toList
  | definition => "define".toList
  | format => "error-format".toList

def Setting.letter? : Setting → Option Char
  | output => some 'o'
  | definition => some 'D'
  | _ => none

def Flag.name : Flag → Text
  | verbose => "verbose".toList
  | version => "version".toList
  | help => "help".toList

def Flag.letter : Flag → Char
  | verbose => 'v'
  | version => 'V'
  | help => 'h'

def Setting.all : List Setting := [output, base, definition, format]

def Flag.all : List Flag := [verbose, version, help]

def Mistake.message : Mistake → Text
  | unknownOption text => "unknown option '".toList ++ text ++ "'".toList
  | missingValue s => "--".toList ++ s.name ++ " needs a value".toList
  | unexpectedValue f => "--".toList ++ f.name ++ " takes no value".toList
  | emptyPath => "a path must not be empty".toList
  | badFormat value => "unknown error format '".toList ++ value ++ "'".toList
  | badDefinition e => e.message
  | repeated name => "--".toList ++ name ++ " is given more than once".toList
  | unexpectedArgument text => "unexpected argument '".toList ++ text ++ "'".toList

/-! ## Taking options -/

def pathOf (value : Text) : Except Stop Path :=
  if value.isEmpty then .error (.mistake .emptyPath) else .ok ⟨value⟩

def formatOf (value : Text) : Except Stop Format :=
  if value = "text".toList then .ok .text
  else if value = "json".toList then .ok .json
  else .error (.mistake (.badFormat value))

/-- Fills a place that must be empty. -/
def fillOnce (name : Text) (old : Option α) (new : Except Stop α) : Except Stop (Option α) :=
  match old with
  | some _ => .error (.mistake (.repeated name))
  | none => new.map some

/-- Takes an option with its value. Only definitions may be repeated. -/
def assign (o : Options) (s : Setting) (value : Text) : Except Stop Options :=
  match s with
  | .output => (fillOnce s.name o.output (pathOf value)).map fun output => { o with output }
  | .base => (fillOnce s.name o.base (pathOf value)).map fun base => { o with base }
  | .format => (fillOnce s.name o.format (formatOf value)).map fun format => { o with format }
  | .definition =>
    match Assignment.parse value with
    | .error e => .error (.mistake (.badDefinition e))
    | .ok definition => .ok { o with definitions := o.definitions ++ [definition] }

def switch (o : Options) : Flag → Except Stop Options
  | .verbose =>
    if o.verbose then .error (.mistake (.repeated Flag.verbose.name))
    else .ok { o with verbose := true }
  | .version => .error .version
  | .help => .error .help

/-- Takes an argument that is no option: the input file. -/
def operand (o : Options) (value : Text) : Except Stop Options :=
  match o.input with
  | some _ => .error (.mistake (.unexpectedArgument value))
  | none => (pathOf value).map fun input => { o with input := some input }

/-! ## Reading arguments -/

/-- Where the reading of arguments stands: an option that waits for its value, and whether the
options are over. -/
structure Reader where
  options : Options := {}
  waiting : Option Setting := none
  plain : Bool := false
  deriving DecidableEq, Repr

namespace Reader

/-- Takes a long option, without its hyphens. -/
def long (o : Options) (text : Text) : Except Stop Reader :=
  let (name, value) := match text.cut? '=' with
    | some (name, value) => (name, some value)
    | none => (text, none)
  match Setting.all.find? (·.name == name), Flag.all.find? (·.name == name), value with
  | some s, _, some value => (o.assign s value).map fun options => { options }
  | some s, _, none => .ok { options := o, waiting := some s }
  | none, some f, none => (o.switch f).map fun options => { options }
  | none, some f, some _ => .error (.mistake (.unexpectedValue f))
  | none, none, _ => .error (.mistake (.unknownOption ("--".toList ++ text)))

/-- Takes the letters of short options. What follows the letter of an option with a value is its
value, behind an equals sign or not. -/
def short (o : Options) : Text → Except Stop Reader
  | [] => .ok { options := o }
  | c :: rest =>
    match Setting.all.find? (·.letter? == some c), Flag.all.find? (·.letter == c) with
    | some s, _ =>
      match rest with
      | [] => .ok { options := o, waiting := some s }
      | '=' :: value => (o.assign s value).map fun options => { options }
      | value => (o.assign s value).map fun options => { options }
    | none, some f =>
      match o.switch f with
      | .error e => .error e
      | .ok o => short o rest
    | none, none => .error (.mistake (.unknownOption ['-', c]))

/-- Takes an option. No option may be waiting for its value. -/
def option (r : Reader) (take : Options → Except Stop Reader) : Except Stop Reader :=
  match r.waiting with
  | some s => .error (.mistake (.missingValue s))
  | none => take r.options

/-- Takes an argument that is no option. -/
def value (r : Reader) (argument : Text) : Except Stop Reader :=
  match r.waiting with
  | some s => (r.options.assign s argument).map fun options => { r with options, waiting := none }
  | none => (r.options.operand argument).map fun options => { r with options }

/-- Takes one argument. A lone hyphen is a value; two hyphens end the options. -/
def step (r : Reader) (argument : Text) : Except Stop Reader :=
  if r.plain then r.value argument
  else match argument with
    | ['-', '-'] => r.option fun options => .ok { options, plain := true }
    | '-' :: '-' :: text => r.option fun o => long o text
    | '-' :: c :: rest => r.option fun o => short o (c :: rest)
    | _ => r.value argument

/-- The options, when all arguments are read. The environment gives a base directory if no argument
does. -/
def finish (e : Environment) (r : Reader) : Except Stop Options :=
  match r.waiting, r.options.base, e.value? Environment.baseVariable with
  | some s, _, _ => .error (.mistake (.missingValue s))
  | none, none, some value => (pathOf value).map fun base => { r.options with base := some base }
  | none, _, _ => .ok r.options

end Reader

def parse (e : Environment) (arguments : List Text) : Except Stop Options :=
  match arguments.foldlM Reader.step {} with
  | .error stop => .error stop
  | .ok r => r.finish e

def settings (o : Options) (current : Path) : Settings where
  base := o.base.getD (Settings.forInput current o.input).base
  predefined := o.definitions

end Options
end DocSplice

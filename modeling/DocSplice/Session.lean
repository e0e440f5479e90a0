import DocSplice.Diagnostic
import DocSplice.Dotenv
import DocSplice.FileTree
import DocSplice.Options
import DocSplice.Run

/-!
# DocSplice.Session

One execution of the command, from the world it finds to the world it leaves behind. The input is
read first and the output is written last, so a failure leaves all files as they were.

* `Session`: arguments, environment, standard input, working directory and files.
* `Outcome`: exit status, standard output, log, report of a failure, and files.
* `Session.outcome`: the execution.
* `Session.stops`: the places that an execution looks at, as far as they are known.
* `Session.written?`: the file that it writes.
-/

namespace DocSplice

structure Session where
  arguments : List Text
  inherited : Environment
  stdin : ByteArray
  current : Place
  tree : FileTree

structure Outcome where
  status : Nat
  stdout : Text := []
  log : List Text := []
  report : Text := []
  tree : FileTree

/-- All that is written to standard error: the lines of the log, then the report. -/
def Outcome.stderr (o : Outcome) : Text := o.log.flatMap (· ++ ['\n']) ++ o.report

def Diagnostic.report (d : Diagnostic) : Format → Text
  | .text => "error: ".toList ++ d.message ++ ['\n']
  | .json => d.render ++ ['\n']

def Text.withFinalNewline (t : Text) : Text :=
  if t.getLast? = some '\n' then t else t ++ ['\n']

namespace Session

/-! ## Texts of the command -/

def versionText : Text := "md_preprocess 0.1.0\n".toList

/-- What `--help` prints. Left out are the blanks in its empty lines, the value that the variable of
the base directory has, and the summary that `-h` prints in its place. -/
def helpText : Text :=
  ["Expand include/define directives in a markdown document",
    "",
    "Usage: md_preprocess [OPTIONS] [INPUT]",
    "",
    "Arguments:",
    "  [INPUT]",
    "          Input file (reads stdin if not provided)",
    "",
    "Options:",
    "  -o, --output <OUTPUT>",
    "          Output path (writes stdout if not provided)",
    "",
    "      --base-dir <BASE_DIR>",
    "          Directory include paths are resolved against [default: the input's directory]",
    "",
    "          Also read from MD_PREPROCESS_BASE_DIR, including a value set in a .env file in " ++
      "the current directory.",
    "",
    "          [env: MD_PREPROCESS_BASE_DIR=]",
    "",
    "  -D, --define <NAME=VALUE>",
    "          Predefine a variable, NAME=VALUE (repeatable)",
    "",
    "      --error-format <ERROR_FORMAT>",
    "          How errors are reported on stderr",
    "",
    "          [default: text]",
    "          [possible values: text, json]",
    "",
    "  -v, --verbose",
    "          Enable debug logging (overridden by RUST_LOG)",
    "",
    "  -h, --help",
    "          Print help (see a summary with '-h')",
    "",
    "  -V, --version",
    "          Print version"].flatMap fun line => line.toList ++ ['\n']

/-- A file of the command cannot be read or written. -/
def fileDiagnostic (action : Text) (e : FileError) : Diagnostic where
  kind := .io
  message := "Failed to ".toList ++ action ++ ": ".toList ++ e.message

def quoted (p : Path) : Text := '\'' :: p.text ++ ['\'']

/-! ## Steps -/

/-- Where an `.env` file may be: in the working directory or in one above it. -/
def environmentPlaces (s : Session) : List Place := s.current.upward ".env".toList

/-- The nearest `.env` file. -/
def environmentFile? (s : Session) : Option ByteArray :=
  s.environmentPlaces.findSome? s.tree.contents?

/-- The environment, completed by the nearest `.env` file. -/
def environment (s : Session) : Environment :=
  match s.environmentFile? with
  | some contents => Dotenv.load s.inherited contents
  | none => s.inherited

/-- The variables that the `.env` file refers to. -/
def references (s : Session) : List Text :=
  match s.environmentFile? with
  | some contents => Dotenv.references contents
  | none => []

/-- The variables that matter: those of the command, and those that the `.env` file refers to. -/
def wanted (s : Session) : List Text :=
  Environment.baseVariable :: Environment.logVariable :: s.references

/-- The document: the input file, or standard input if there is none. -/
def document (s : Session) (o : Options) : Except Diagnostic Text :=
  match o.input with
  | some p =>
    match s.tree.readText s.current p with
    | .ok text => .ok text
    | .error e => .error (fileDiagnostic ("read ".toList ++ quoted p) e)
  | none =>
    match Text.decode? s.stdin with
    | some text => .ok text
    | none => .error (fileDiagnostic "read stdin".toList .notText)

def settings (s : Session) (o : Options) : Settings := o.settings s.current.path

/-- The run over a document, with included files as the command finds them. -/
def run (s : Session) (o : Options) (document : Text) : Run :=
  let settings := s.settings o
  Run.ofText (s.tree.source s.current settings.base) settings.predefined document

/-- What is said about the filter of the log, before anything else. -/
def complaints (s : Session) : List Text := Filter.complaints s.environment.logText

/-- The log of an execution whose input was read: where included files are taken from, then what
the run tells. -/
def log (s : Session) (o : Options) (r : Run) : List Text :=
  s.complaints ++ Event.log (s.environment.filter o.verbose).threshold
    (.baseResolved (s.settings o).base o.base.isSome :: r.events)

def failed (s : Session) (o : Options) (log : List Text) (d : Diagnostic) : Outcome where
  status := 1
  log
  report := d.report (o.format.getD .text)
  tree := s.tree

def deliver (s : Session) (o : Options) (log : List Text) (text : Text) : Outcome :=
  match o.output with
  | none => { status := 0, stdout := text.withFinalNewline, log, tree := s.tree }
  | some p =>
    match s.tree.write s.current p text.encode with
    | .ok tree => { status := 0, log, tree }
    | .error e => s.failed o log (fileDiagnostic ("write ".toList ++ quoted p) e)

def execute (s : Session) (o : Options) : Outcome :=
  match s.document o with
  | .error d => s.failed o s.complaints d
  | .ok document =>
    let r := s.run o document
    match r.result with
    | .error f => s.failed o (s.log o r) f.diagnostic
    | .ok output => s.deliver o (s.log o r) output.text

def outcome (s : Session) : Outcome :=
  match Options.parse s.environment s.arguments with
  | .ok o => s.execute o
  | .error .version => { status := 0, stdout := versionText, tree := s.tree }
  | .error .help => { status := 0, stdout := helpText, tree := s.tree }
  | .error (.mistake m) =>
    { status := 2, report := "error: ".toList ++ m.message ++ ['\n'], tree := s.tree }

/-! ## What an execution touches -/

def includes (base : Path) (document : Text) : List Path :=
  document.segments.filterMap fun
    | .plain _ => none
    | .directive body =>
      match Directive.ofText? body.trim with
      | some (.inclusion path) => some (base.join ⟨path⟩)
      | _ => none

def options? (s : Session) : Option Options :=
  (Options.parse s.environment s.arguments).toOption

/-- An accepted command line without an input file reads standard input. -/
def readsStdin (s : Session) : Bool := s.options?.any (·.input.isNone)

/-- The paths that an execution looks at, as far as the files in the tree tell. -/
def paths (s : Session) : List Path :=
  match s.options? with
  | none => []
  | some o =>
    o.input.toList ++ o.output.toList ++ match s.document o with
      | .error _ => []
      | .ok document => includes (s.settings o).base document

def stops (s : Session) : List Place :=
  s.environmentPlaces ++ s.paths.flatMap fun p => p.stops s.current

/-- The file that an execution writes, with its new contents. -/
def written? (s : Session) (o : Outcome) : Option (Path × ByteArray) :=
  match s.options?.bind (·.output) with
  | none => none
  | some p =>
    if o.status = 0 then (o.tree.read s.current p).toOption.map fun contents => (p, contents)
    else none

end Session
end DocSplice

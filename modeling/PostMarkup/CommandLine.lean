import PostMarkup.Format
import PostMarkup.Html.PlainText

namespace PostMarkup.CommandLine

/-- What is done with the input. -/
inductive Mode
  | dialect
  | html
  | markdown
  | inlineFragment
  | plainText
deriving DecidableEq

/-- The mode with a name, exactly as spelled. -/
def Mode.ofName? (name : Text) : Option Mode :=
  match String.ofList name with
  | "dialect" => some .dialect
  | "html" => some .html
  | "markdown" => some .markdown
  | "inline" => some .inlineFragment
  | "text" => some .plainText
  | _ => none

/-- The options of a run. What was not given is absent or false. -/
structure Options where
  input : Option Text := none
  mode : Option Mode := none
  detect : Bool := false
  output : Option Text := none
  strict : Bool := false
  verbose : Bool := false
deriving DecidableEq

/-- What the arguments come to. -/
inductive Request
  | run (options : Options)
  | version
  | help
  | usageError
deriving DecidableEq

/-- The options that an argument can name. -/
inductive Name
  | format
  | output
  | detect
  | strict
  | verbose
  | help
  | version
deriving DecidableEq

namespace Name

/-- Long names are not abbreviated. -/
def ofLong? (name : Text) : Option Name :=
  match String.ofList name with
  | "format" => some .format
  | "output" => some .output
  | "auto" => some .detect
  | "strict" => some .strict
  | "verbose" => some .verbose
  | "help" => some .help
  | "version" => some .version
  | _ => none

def ofShort? : Char → Option Name
  | 'f' => some .format
  | 'o' => some .output
  | 'v' => some .verbose
  | 'h' => some .help
  | 'V' => some .version
  | _ => none

/-- Two options need a value and the others allow none. -/
def takesValue : Name → Bool
  | format | output => true
  | _ => false

end Name

/-- Sets an option to a value. Each option may be given once. -/
def Options.setValue? (options : Options) (name : Name) (value : Text) : Option Options :=
  match name, value with
  | .format, _ =>
    if options.mode.isSome then none
    else (Mode.ofName? value).map fun mode => { options with mode := some mode }
  | .output, _ :: _ =>
    if options.output.isSome then none else some { options with output := some value }
  | _, _ => none

/-- Turns a flag on, or ends the reading of arguments with what a flag asks for. -/
def Options.setFlag (options : Options) : Name → Except Request Options
  | .detect => if options.detect then .error .usageError else .ok { options with detect := true }
  | .strict => if options.strict then .error .usageError else .ok { options with strict := true }
  | .verbose =>
    if options.verbose then .error .usageError else .ok { options with verbose := true }
  | .help => .error .help
  | .version => .error .version
  | .format | .output => .error .usageError

/-- An argument that is no option names the input, once. -/
def Options.setInput? (options : Options) (argument : Text) : Option Options :=
  match options.input, argument with
  | none, _ :: _ => some { options with input := some argument }
  | _, _ => none

/-- Reads flags that share a hyphen. An option with a value takes the rest of the argument, an
    equals sign before it apart; if there is no rest, it waits for the next argument. -/
def readShort (options : Options) : Text → Except Request (Options × Option Name)
  | [] => .ok (options, none)
  | c :: rest =>
    match Name.ofShort? c with
    | none => .error .usageError
    | some name =>
      if name.takesValue then
        match rest with
        | [] => .ok (options, some name)
        | _ =>
          match options.setValue? name ((Text.after? ['='] rest).getD rest) with
          | some options => .ok (options, none)
          | none => .error .usageError
      else do readShort (← options.setFlag name) rest

/-- Reads an argument that begins with two hyphens, given what follows them. -/
def readLong (options : Options) (s : Text) : Except Request (Options × Option Name) :=
  match Name.ofLong? (s.takeWhile (· ≠ '=')), s.dropWhile (· ≠ '=') with
  | none, _ => .error .usageError
  | some name, [] =>
    if name.takesValue then .ok (options, some name)
    else do return (← options.setFlag name, none)
  | some name, _ :: value =>
    match options.setValue? name value with
    | some options => .ok (options, none)
    | none => .error .usageError

/-- Only `-` itself may begin with a hyphen and be no option. -/
def looksLikeOption (argument : Text) : Bool :=
  match argument with
  | '-' :: _ :: _ => true
  | _ => false

/-- Reads the arguments after `--`, all of which are inputs. -/
def readInputs (options : Options) : List Text → Except Request Options
  | [] => .ok options
  | argument :: rest =>
    match options.setInput? argument with
    | some options => readInputs options rest
    | none => .error .usageError

/-- Reads arguments from left to right. An option that waits for its value takes the next argument,
    unless that looks like an option. -/
def readArguments (options : Options) : Option Name → List Text → Except Request Options
  | none, [] => .ok options
  | some _, [] => .error .usageError
  | some name, argument :: rest =>
    if looksLikeOption argument then .error .usageError
    else
      match options.setValue? name argument with
      | some options => readArguments options none rest
      | none => .error .usageError
  | none, argument :: rest =>
    match argument with
    | ['-', '-'] => readInputs options rest
    | '-' :: '-' :: s => do
      let (options, waiting) ← readLong options s
      readArguments options waiting rest
    | '-' :: c :: s => do
      let (options, waiting) ← readShort options (c :: s)
      readArguments options waiting rest
    | _ =>
      match options.setInput? argument with
      | some options => readArguments options none rest
      | none => .error .usageError

/-- What the arguments ask for. Detection and a given format exclude each other. -/
def parse (arguments : List Text) : Request :=
  match readArguments {} none arguments with
  | .ok options =>
    if options.detect && options.mode.isSome then .usageError else .run options
  | .error request => request

/-- The fragment that a run makes of its input, and whether the conversion was clean. -/
def Options.fragment (options : Options) (content : Text) : Text × Bool :=
  let rendered (format : Format) : Text × Bool :=
    let converted := format.render content
    (converted.html, converted.failure.isNone)
  if options.detect then rendered (Format.detect content false)
  else
    match options.mode.getD .dialect with
    | .dialect => rendered .dialect
    | .html => rendered .html
    | .markdown => rendered .markdown
    | .inlineFragment => (Html.typographFragment content, true)
    | .plainText => (Html.plainText content, true)

/-- What a run leaves behind: its exit code, its output, and the file it writes. -/
structure Outcome where
  exitCode : Nat
  output : Text := []
  file : Option (Text × Text) := none
deriving DecidableEq

/-- The name and version of the program. -/
def versionLine : Text := "typomark 0.1.0\n".toList

/-- A summary of the options. -/
def usage : Text :=
  ("Render archived blog content as HTML\n\n" ++
    "Usage: typomark [OPTIONS] [INPUT]\n\n" ++
    "  [INPUT]                  Input file (reads stdin when omitted)\n" ++
    "  -f, --format <FORMAT>    dialect, html, markdown, inline or text [default: dialect]\n" ++
    "      --auto               Detect dialect or HTML from the legacy XML prolog\n" ++
    "  -o, --output <OUTPUT>    Output file (writes stdout when omitted)\n" ++
    "      --strict             Exit with failure when the conversion reported an error\n" ++
    "  -v, --verbose            Log conversion details to stderr\n" ++
    "  -h, --help               Print help\n" ++
    "  -V, --version            Print version\n").toList

/-- The outcome of a run whose input was read. A strict run fails on an unclean conversion, but
    writes it all the same. -/
def Options.outcome (options : Options) (content : Text) : Outcome :=
  let (fragment, clean) := options.fragment content
  let exitCode := if clean || !options.strict then 0 else 1
  match options.output with
  | some path => { exitCode, file := some (path, fragment) }
  | none => { exitCode, output := fragment }

/-- A whole run. `readInput` gives the text of a file, or of the standard input, unless it cannot be
    read; `canWrite` tells whether a file can be written. -/
def execute (arguments : List Text) (readInput : Option Text → Option Text)
    (canWrite : Text → Bool) : Outcome :=
  match parse arguments with
  | .usageError => { exitCode := 2 }
  | .version => { exitCode := 0, output := versionLine }
  | .help => { exitCode := 0, output := usage }
  | .run options =>
    match readInput options.input with
    | none => { exitCode := 1 }
    | some content =>
      if options.output.all canWrite then options.outcome content else { exitCode := 1 }

end PostMarkup.CommandLine

import MapExpr.Eval

/-!
# The command

The command binds the library and whatever the command line asks for, evaluates the source and
prints its value. For a batch it prints one line for every entry, as soon as the entry has been
evaluated. A failure is printed with its cause and ends the command; what has been printed before
stays.
-/

namespace MapExpr

/-! ## Options of the command line

How the arguments of the command line are read. Options may stand before and after the source,
options of one letter may be written together, and the last of them may be followed at once by its
value. The source is the one argument that belongs to no option; after `--` nothing is an option
any more.
-/

/-- What the command line asks for. -/
structure Options where
  /-- The source names a file that holds the source text. -/
  fromFile : Bool
  /-- The source text is a batch. -/
  isBatch : Bool
  /-- The library is not bound. -/
  bareContext : Bool
  /-- Names and expressions to be bound beforehand, in order. -/
  settings : List String
  source : String

/-- An option without a value. -/
inductive Flag where
  | file
  | assignments
  | noBuiltins
  | verbose

namespace Flag

/-- The flag that one letter stands for. -/
def ofLetter? : Char → Option Flag
  | 'f' => some file
  | 'a' => some assignments
  | 'v' => some verbose
  | _ => none

/-- The flag that a word stands for. -/
def ofWord? : String → Option Flag
  | "file" => some file
  | "assignments" => some assignments
  | "no-builtins" => some noBuiltins
  | "verbose" => some verbose
  | _ => none

end Flag

namespace Options

/-- Options that still lack their source. -/
structure Draft where
  fromFile : Bool
  isBatch : Bool
  bareContext : Bool
  settings : List String
  source : Option String

namespace Draft

/-- Nothing has been asked for. -/
def empty : Draft := ⟨false, false, false, [], none⟩

/-- Takes a flag. It may not be given twice, except for `verbose`, which changes nothing in what is
printed. -/
def flag? (d : Draft) : Flag → Option Draft
  | .file => if d.fromFile then none else some { d with fromFile := true }
  | .assignments => if d.isBatch then none else some { d with isBatch := true }
  | .noBuiltins => if d.bareContext then none else some { d with bareContext := true }
  | .verbose => some d

/-- Takes a name and an expression to be bound. -/
def setting (d : Draft) (text : String) : Draft := { d with settings := d.settings ++ [text] }

/-- Takes the source, of which there is only one. -/
def source? (d : Draft) (text : String) : Option Draft :=
  match d.source with
  | none => some { d with source := some text }
  | some _ => none

/-- Takes letters that are written together. The second component tells that the last of them still
waits for its value. -/
def letters? (d : Draft) : List Char → Option (Draft × Bool)
  | [] => some (d, false)
  | 's' :: value =>
    match value with
    | [] => some (d, true)
    | '=' :: value => some (d.setting (String.ofList value), false)
    | value => some (d.setting (String.ofList value), false)
  | c :: cs => do
    let d ← d.flag? (← Flag.ofLetter? c)
    d.letters? cs

/-- Takes an option that is spelled as a word. The second component tells that it still waits for
its value. -/
def word? (d : Draft) (cs : List Char) : Option (Draft × Bool) :=
  let name := String.ofList (cs.takeWhile (· ≠ '='))
  match cs.dropWhile (· ≠ '=') with
  | [] =>
    if name = "set" then some (d, true)
    else do
      let d ← d.flag? (← Flag.ofWord? name)
      return (d, false)
  | _ :: value => if name = "set" then some (d.setting (String.ofList value), false) else none

/-- Whether an argument is read as an option and not as a value; a lone `-` is a value. -/
def isOption (arg : String) : Bool :=
  match arg.toList with
  | '-' :: _ :: _ => true
  | _ => false

/-- Takes one argument. The second component tells that it is an option that waits for its value. -/
def argument? (d : Draft) (arg : String) : Option (Draft × Bool) :=
  match arg.toList with
  | '-' :: '-' :: word => d.word? word
  | '-' :: c :: cs => d.letters? (c :: cs)
  | _ => (d.source? arg).map fun d => (d, false)

/-- Takes all arguments. -/
def arguments? (d : Draft) : List String → Option Draft
  | [] => some d
  | arg :: args =>
    if arg = "--" then args.foldlM source? d
    else
      match d.argument? arg, args with
      | none, _ => none
      | some (d, false), args => d.arguments? args
      | some (_, true), [] => none
      | some (d, true), value :: args =>
        if isOption value then none else (d.setting value).arguments? args

end Draft

/-- What the arguments ask for, if they are in order. -/
def ofArguments? (args : List String) : Option Options := do
  let d ← Draft.empty.arguments? args
  let source ← d.source
  return ⟨d.fromFile, d.isBatch, d.bareContext, d.settings, source⟩

end Options

/-! ## Running the command -/

/-- Why the command fails. -/
inductive Failure where
  /-- The file cannot be read, for the reason that is given. -/
  | unreadable (path reason : String)
  /-- A binding without an `=`. -/
  | malformedSetting (setting : String)
  /-- A binding of something that is no identifier. -/
  | invalidName (name setting : String)
  /-- A binding whose expression has no value. -/
  | settingFailed (name : String) (fault : Located Fault)
  /-- A source that has no value. -/
  | failed (fault : Located Fault)

namespace Failure

/-- The wording of a failure. -/
def message : Failure → String
  | unreadable path _ =>
    "Failed to read the input file '" ++ path ++ "'. Perhaps this file does not exist?"
  | malformedSetting setting => "Expected NAME=EXPR, found '" ++ setting ++ "'"
  | invalidName name setting => "'" ++ name ++ "' in --set " ++ setting ++ " is not a valid name"
  | settingFailed name _ => "Failed to evaluate --set " ++ name
  | failed fault => fault.report

/-- The cause that is printed below a failure. -/
def cause? : Failure → Option String
  | unreadable _ reason => some reason
  | settingFailed _ fault => some fault.report
  | _ => none

/-- A text whose lines are all moved to the right. -/
def indent (s : String) : String :=
  String.ofList ("    ".toList ++ s.toList.flatMap fun c =>
    if c = '\n' then c :: "    ".toList else [c])

/-- A failure as it is printed. -/
def report (f : Failure) : String :=
  "Error: " ++ f.message ++ "\n" ++
    match f.cause? with
    | some cause => "\nCaused by:\n" ++ indent cause ++ "\n"
    | none => ""

end Failure

namespace Context

variable {H : Host}

/-- Evaluates a text `name=expression` and binds the name. -/
def applySetting (c : Context H) (setting : String) : Except Failure (Context H) :=
  let cs := setting.toList
  match cs.dropWhile (· ≠ '=') with
  | [] => .error (.malformedSetting setting)
  | _ :: expression =>
    let name := String.ofList (Text.trim (cs.takeWhile (· ≠ '=')))
    if isIdentifier name then
      match c.evaluate (String.ofList expression) with
      | .ok v => .ok (c.bind name v)
      | .error fault => .error (.settingFailed name fault)
    else .error (.invalidName name setting)

/-- Applies settings in order, up to the first that fails. -/
def applySettings (c : Context H) : List String → Context H × Option Failure
  | [] => (c, none)
  | s :: ss =>
    match c.applySetting s with
    | .ok c => c.applySettings ss
    | .error failure => (c, some failure)

/-- The line that is printed for a name. -/
def line (c : Context H) (name : String) : String :=
  name ++ " = " ++ (c.lookup name).text ++ "\n"

/-- Applies entries in order, up to the first that fails, and prints the value of each. -/
def printEach (c : Context H) : List Assignment → Context H × String × Option (Located EvalFault)
  | [] => (c, "", none)
  | a :: as =>
    match c.assign [a] with
    | (c, some e) => (c, "", some e)
    | (c, none) =>
      let (c', rest, fault) := c.printEach as
      (c', c.line a.name ++ rest, fault)

/-- Evaluates a source text and prints its value. -/
def print (c : Context H) (source : String) : String × Option Failure :=
  match c.evaluate source with
  | .ok v => (v.text ++ "\n", none)
  | .error fault => ("", some (.failed fault))

/-- Applies a batch and prints the value of each entry. -/
def printBatch (c : Context H) (source : String) : Context H × String × Option Failure :=
  match readBatch source with
  | .error fault => (c, "", some (.failed fault))
  | .ok as =>
    let (c, output, fault) := c.printEach as
    (c, output, fault.map fun e => .failed (e.map Fault.eval))

end Context

namespace Command

/-- What the command leaves behind. -/
structure Outcome where
  status : Nat
  stdout : String
  stderr : String

/-- The context in which the command starts. -/
def start (o : Options) : Context Host.bare :=
  let c := Context.empty Registry.bare
  if o.bareContext then c else c.bindLibrary

/-- What is printed for the options and a source text, and the failure that ends it. -/
def print (o : Options) (source : String) : String × Option Failure :=
  match (start o).applySettings o.settings with
  | (_, some failure) => ("", some failure)
  | (c, none) => if o.isBatch then (c.printBatch source).2 else c.print source

/-- Runs the command. The source text is the source itself, or what could be read from the file that
it names, or the reason why nothing could be read. -/
def run (o : Options) (content : Except String String) : Outcome :=
  let (output, failure) := match content with
    | .ok source => print o source
    | .error reason => ("", some (.unreadable o.source reason))
  match failure with
  | none => ⟨0, output, ""⟩
  | some f => ⟨1, output, f.report⟩

/-- The status of a command line that is not in order. -/
def usageStatus : Nat := 2

/-- The reason why a file that does not exist cannot be read. -/
def missingFile : String := "No such file or directory (os error 2)"

end Command

end MapExpr

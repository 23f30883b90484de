import Amalgam.Build

/-! # Command line options

Every argument is first read on its own: as an option, by its name or an unambiguous beginning of
it, perhaps with text attached; as a word; or as the separator `--`, after which all are words. Text
after an equals sign is the option's value; the separator as text leaves the value blank. Text
behind a one-letter name, with or without the sign, names further flags letter by letter. Then the
options take their values in order. The first run of words holds the manifests and later words are
not recognized.
-/

namespace Amalgam.Options

inductive OptionName where
  | help
  | modules
  | projectConfig
  | only
  | out
  | json
  | verbose
deriving DecidableEq, Repr

def OptionName.takesValue : OptionName → Bool
  | .modules | .projectConfig | .only | .out => true
  | .help | .json | .verbose => false

def OptionName.label : OptionName → Text
  | .help => "-h/--help"
  | .modules => "--modules"
  | .projectConfig => "--project-config"
  | .only => "--only-generate-native-code-for-module"
  | .out => "--out"
  | .json => "--json"
  | .verbose => "-v/--verbose"

def spellings : Table Text OptionName := [
  ("-h", .help), ("--help", .help), ("--modules", .modules), ("--project-config", .projectConfig),
  ("--only-generate-native-code-for-module", .only), ("--out", .out), ("--json", .json),
  ("-v", .verbose), ("--verbose", .verbose)]

inductive UsageError where
  | ambiguous (argument : Text) (matching : List Text)
  | ignoredArgument (option : OptionName) (argument : Text)
  | argumentMissing (option : OptionName)
  | required (names : List Text)
  | unrecognized (arguments : List Text)
deriving DecidableEq, Repr

def UsageError.message : UsageError → Text
  | .ambiguous argument matching =>
    "ambiguous option: " ++ argument ++ " could match " ++ Text.joinWith ", " matching
  | .ignoredArgument option argument =>
    "argument " ++ option.label ++ ": ignored explicit argument " ++ Text.quote argument
  | .argumentMissing option => "argument " ++ option.label ++ ": expected one argument"
  | .required names => "the following arguments are required: " ++ Text.joinWith ", " names
  | .unrecognized arguments => "unrecognized arguments: " ++ Text.joinWith " " arguments

/-! ## Single arguments -/

/-- What is written behind the name of an option in the same argument. -/
inductive Attached where
  | nothing
  | assigned (value : Text)
  | letters (text : List CodePoint)
deriving DecidableEq, Repr

def isLetterName : List CodePoint → Bool
  | ['-', letter] => letter ≠ '-'
  | _ => false

/-- Text is read as letters behind a one-letter name, unless it is empty, and else as a value. -/
def Attached.behind (name text : List CodePoint) : Attached :=
  if isLetterName name && !text.isEmpty then .letters text else .assigned (Text.ofList text)

inductive Token where
  | word (text : Text)
  | separator
  | option (name : OptionName) (attached : Attached)
  | unknown (text : Text)
deriving DecidableEq, Repr

def isNegativeNumber : List CodePoint → Bool
  | '-' :: rest =>
    let body := if rest.getLast? = some (.char '\n') then rest.dropLast else rest
    let whole := body.takeWhile Text.isDecimalDigit
    match body.dropWhile Text.isDecimalDigit with
    | [] => !whole.isEmpty
    | '.' :: fraction => !fraction.isEmpty && fraction.all Text.isDecimalDigit
    | _ => false
  | _ => false

/-- The name before the first equals sign, and what the text after it is if there is a sign. -/
def splitAssignment (argument : Text) : Text × Attached :=
  let chars := argument.toList
  let name := chars.takeWhile (· ≠ .char '=')
  match chars.dropWhile (· ≠ .char '=') with
  | [] => (Text.ofList name, .nothing)
  | _ :: text => (Text.ofList name, .behind name text)

/-- The options an argument may mean that is not one's full name: those a long one begins, or the
one-letter option in front of other letters. -/
def candidates (argument : Text) : List (Text × OptionName × Attached) :=
  match argument.toList with
  | '-' :: '-' :: _ =>
    let (name, attached) := splitAssignment argument
    (spellings.filter fun spelling => Text.startsWith spelling.1 name).map
      fun (spelling, option) => (spelling, option, attached)
  | dash :: letter :: text =>
    (spellings.filter fun spelling => spelling.1.toList = [dash, letter]).map
      fun (spelling, option) => (spelling, option, .behind [dash, letter] text)
  | _ => []

def readToken (argument : Text) : Except UsageError Token :=
  if !Text.startsWith argument "-" then .ok (.word argument)
  else match spellings.get? argument with
    | some option => .ok (.option option .nothing)
    | none =>
      if argument = "-" then .ok (.word argument)
      else
        let (name, attached) := splitAssignment argument
        match (if attached = .nothing then none else spellings.get? name) with
        | some option => .ok (.option option attached)
        | none =>
          match candidates argument with
          | [(_, option, attached)] => .ok (.option option attached)
          | [] =>
            if isNegativeNumber argument.toList || argument.toList.contains ' ' then
              .ok (.word argument)
            else .ok (.unknown argument)
          | several => .error (.ambiguous argument (several.map Prod.fst))

def readTokens : List Text → Except UsageError (List Token)
  | [] => .ok []
  | argument :: rest =>
    if argument = "--" then .ok (.separator :: rest.map .word)
    else do
      let token ← readToken argument
      return token :: (← readTokens rest)

/-! ## All arguments together -/

structure Collected where
  manifests : List Text
  modules : Option (Setting Text)
  projectConfig : Option (Setting Text)
  only : List (Setting Text)
  out : Option (Setting Text)
  json : Bool
  verbosity : Nat
  extras : List Text
deriving DecidableEq, Repr

namespace Collected

def start : Collected := ⟨[], none, none, [], none, false, 0, []⟩

/-- Gives an option its value; an option given again forgets the value before, except for the
list of modules. -/
def setValue (c : Collected) (value : Setting Text) : OptionName → Collected
  | .modules => { c with modules := some value }
  | .projectConfig => { c with projectConfig := some value }
  | .only => { c with only := c.only ++ [value] }
  | .out => { c with out := some value }
  | .help | .json | .verbose => c

def setFlag (c : Collected) : OptionName → Option Collected
  | .help => none
  | .json => some { c with json := true }
  | .verbose => some { c with verbosity := c.verbosity + 1 }
  | .modules | .projectConfig | .only | .out => some c

def addExtras (c : Collected) (extras : List Text) : Collected :=
  { c with extras := c.extras ++ extras }

end Collected

/-- The flags named letter by letter behind a one-letter name, its own flag in front. A letter that
names none begins an argument which the flag before it does not take. -/
def readLetters (flag : OptionName) : List CodePoint → Except UsageError (List OptionName)
  | [] => .ok [flag]
  | letter :: rest =>
    match spellings.get? (Text.ofList ['-', letter]) with
    | none => .error (.ignoredArgument flag (Text.ofList (letter :: rest)))
    | some next => do return flag :: (← readLetters next rest)

def Token.isPlain : Token → Bool
  | .word _ | .separator => true
  | .option .. | .unknown _ => false

def Token.text : Token → Text
  | .word text | .unknown text => text
  | .separator => "--"
  | .option name _ => name.label

/-- Takes a run of words and separators: as the manifests, if it is the first with a word. -/
def Collected.addRun (c : Collected) (run : List Token) : Collected :=
  let words := run.filterMap fun
    | .word text => some text
    | _ => none
  if c.manifests.isEmpty && !words.isEmpty then { c with manifests := words }
  else c.addExtras (run.map Token.text)

def assignedValue (text : Text) : Setting Text := if text = "--" then .blank else .value text

/-- Goes through the tokens in order; `none` if one asks for help. -/
def collect (c : Collected) (tokens : List Token) : Except UsageError (Option Collected) :=
  match tokens with
  | [] => .ok (some c)
  | .unknown text :: rest => collect (c.addExtras [text]) rest
  | .option name attached :: rest =>
    if name.takesValue then
      match attached with
      | .assigned value => collect (c.setValue (assignedValue value) name) rest
      | .letters text => collect (c.setValue (assignedValue (Text.ofList text)) name) rest
      | .nothing =>
        match rest with
        | .word value :: later => collect (c.setValue (.value value) name) later
        | _ => .error (.argumentMissing name)
    else
      match attached with
      | .assigned value => .error (.ignoredArgument name value)
      | .nothing =>
        match c.setFlag name with
        | none => .ok none
        | some c => collect c rest
      | .letters text => do
        let flags ← readLetters name text
        match flags.foldlM Collected.setFlag c with
        | none => .ok none
        | some c => collect c rest
  | plain :: rest =>
    collect (c.addRun (plain :: rest.takeWhile Token.isPlain)) (rest.dropWhile Token.isPlain)
termination_by tokens.length
decreasing_by
  all_goals simp only [List.length_cons]
  any_goals omega
  exact Nat.lt_succ_of_le (List.dropWhile_sublist _).length_le

inductive Request where
  | help
  | build (settings : Settings) (json : Bool) (verbosity : Nat)
deriving DecidableEq, Repr

def Collected.missing (c : Collected) : List Text :=
  let named (name : Text) (isAbsent : Bool) : List Text := if isAbsent then [name] else []
  named "manifests" c.manifests.isEmpty ++ named "--modules" c.modules.isNone ++
    named "--out" c.out.isNone

def Collected.request (c : Collected) : Except UsageError Request :=
  match c.modules, c.out with
  | some modules, some out =>
    if c.manifests.isEmpty then .error (.required c.missing)
    else if c.extras ≠ [] then .error (.unrecognized c.extras)
    else
      let settings := {
        manifests := c.manifests.map .ofText
        modules := modules.map .ofText
        projectConfig := c.projectConfig.map fun path => path.map .ofText
        only := c.only
        out := out.map .ofText }
      .ok (.build settings c.json c.verbosity)
  | _, _ => .error (.required c.missing)

def parse (arguments : List Text) : Except UsageError Request := do
  let tokens ← readTokens arguments
  match ← collect .start tokens with
  | none => return .help
  | some c => c.request

end Amalgam.Options

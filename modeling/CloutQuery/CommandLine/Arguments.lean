import CloutQuery.CommandLine.Level
import CloutQuery.Text.Natural

namespace CloutQuery.CommandLine

open Text (cutAt)

structure ContextKeys where
  site : Option String
  source : Option String
  target : Option String

inductive Command where
  | entity (name : String) (context : ContextKeys)
  | host (vertex : String)
  | policyTargets (policy : String)
  | members (group : String)
  | getProperty (path : String) (context : ContextKeys)
  | getAttribute (path : String) (context : ContextKeys)
  | classify (vertex : String) (typeName : Option String)
  | compare (left right : String)
  | setOutput (name value : String)

structure Invocation where
  clout : String
  config : Option String
  format : Format
  command : Command

inductive Stop where
  | usage
  | version
  | help (level : Level)
deriving DecidableEq

/-- What the names behind the subcommand for help ask for: the top, or one subcommand. -/
def Stop.ofHelp : List String → Stop
  | [] => .help .top
  | [name] => ((Subcommand.ofName? name).map fun s ↦ .help (.ofSubcommand s)).getD .usage
  | _ => .usage

structure Arguments where
  settings : List (String × String)
  positionals : List String

namespace Arguments

def empty : Arguments := ⟨[], []⟩

def setting? (args : Arguments) (s : Setting) : Option String := args.settings.lookup s.name

def set (args : Arguments) (s : Setting) (value : String) : Except Stop Arguments :=
  if (args.setting? s).isNone && s.kind.admits value then
    .ok { args with settings := args.settings ++ [(s.name, value)] }
  else .error .usage

def addPositional (args : Arguments) (p : Parameter) (value : String) : Except Stop Arguments :=
  if p.kind.admits value then .ok { args with positionals := args.positionals ++ [value] }
  else .error .usage

def context (args : Arguments) : ContextKeys :=
  ⟨args.setting? .site, args.setting? .source, args.setting? .target⟩

end Arguments

/-- What was read of a level, and the subcommand that ends it, with the arguments behind. -/
structure Reading where
  args : Except Stop Arguments
  next : Option (Subcommand × List String)

/-- A value begins with no dash, unless it is one. -/
def isValue (arg : String) : Bool :=
  match arg.toList with
  | '-' :: _ :: _ => false
  | _ => true

structure LongOption where
  name : String
  value : Option String

def LongOption.ofChars (cs : List Char) : LongOption :=
  ⟨String.ofList (cutAt '=' cs).1, (cutAt '=' cs).2.map String.ofList⟩

namespace Level

def raise (level : Level) : Flag → Except Stop Unit
  | .verbose => .ok ()
  | .help => .error (.help level)
  | .version => .error .version

def shortFlags (level : Level) : List Char → Except Stop Unit
  | [] => .ok ()
  | c :: rest =>
    match level.flags.find? (·.letter = c) with
    | some flag => (level.raise flag).bind fun _ ↦ level.shortFlags rest
    | none => .error .usage

def longFlag (level : Level) (option : LongOption) : Except Stop Unit :=
  match level.flags.find? (·.name = option.name), option.value with
  | some flag, none => level.raise flag
  | _, _ => .error .usage

def nextPositional? (level : Level) (args : Arguments) : Option Parameter :=
  level.positionals[args.positionals.length]?

def addPositional (level : Level) (args : Arguments) (value : String) : Except Stop Arguments :=
  match level.nextPositional? args with
  | some p => args.addPositional p value
  | none => .error .usage

/-- Behind a double dash there are only positional arguments. -/
def readPositionals (level : Level) (args : Arguments) (rest : List String) :
    Except Stop Arguments :=
  rest.foldlM level.addPositional args

/-- Whether a value that stands by itself is admitted is judged at the next argument of the level,
so the subcommand behind it is read first. -/
def read (level : Level) (soFar : Except Stop Arguments) : List String → Except Stop Reading
  | [] => .ok ⟨soFar, none⟩
  | arg :: rest =>
    match arg.toList with
    | ['-', '-'] => soFar.bind fun args ↦ .ok ⟨level.readPositionals args rest, none⟩
    | '-' :: '-' :: cs => soFar.bind fun args ↦
      let option := LongOption.ofChars cs
      match level.setting? option.name, option.value, rest with
      | none, _, rest => (level.longFlag option).bind fun _ ↦ level.read (.ok args) rest
      | some s, some value, rest => (args.set s value).bind fun args ↦ level.read (.ok args) rest
      | some s, none, value :: rest =>
        if isValue value then level.read (args.set s value) rest else .error .usage
      | some _, none, [] => .error .usage
    | '-' :: c :: cs => soFar.bind fun args ↦
      (level.shortFlags (c :: cs)).bind fun _ ↦ level.read (.ok args) rest
    | _ =>
      match level.subcommand? arg with
      | some s => .ok ⟨soFar, some (s, rest)⟩
      | none => soFar.bind fun args ↦
        match level.nextPositional? args with
        | some p => level.read (args.addPositional p arg) rest
        | none => .error .usage

end Level

def Command.ofArguments? (s : Subcommand) (args : Arguments) : Option Command :=
  match s, args.positionals with
  | .entity, [x] => some (.entity x args.context)
  | .host, [x] => some (.host x)
  | .policyTargets, [x] => some (.policyTargets x)
  | .members, [x] => some (.members x)
  | .getProperty, [x] => some (.getProperty x args.context)
  | .getAttribute, [x] => some (.getAttribute x args.context)
  | .classify, [x] => some (.classify x (args.setting? .typeName))
  | .compare, [x, y] => some (.compare x y)
  | .setOutput, [x, y] => some (.setOutput x y)
  | _, _ => none

/-- A setting that both levels have counts where it stands last, behind the subcommand before in
front of it. -/
def Invocation.ofLevels? (above : Arguments) (s : Subcommand) (below : Arguments) :
    Option Invocation := do
  let command ← Command.ofArguments? s below
  let shared (setting : Setting) := (below.setting? setting).or (above.setting? setting)
  match above.positionals with
  | [clout] =>
    some ⟨clout, shared .config, ((shared .format).bind Format.ofName?).getD .text, command⟩
  | _ => none

def Invocation.parse (args : List String) : Except Stop Invocation := do
  let top ← Level.top.read (.ok .empty) args
  match top.next with
  | none => .error .usage
  | some (.help, names) => .error (.ofHelp names)
  | some (s, rest) =>
    let behind ← (Level.ofSubcommand s).read (.ok .empty) rest
    match Invocation.ofLevels? (← top.args) s (← behind.args) with
    | some invocation => .ok invocation
    | none => .error .usage

end CloutQuery.CommandLine

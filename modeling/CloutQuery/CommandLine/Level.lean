namespace CloutQuery.CommandLine

inductive Format where
  | text
  | json
deriving DecidableEq

def Format.ofName? : String → Option Format
  | "text" => some .text
  | "json" => some .json
  | _ => none

inductive ValueKind where
  | text
  | path
  | format
deriving DecidableEq

/-- A path cannot be empty. -/
def ValueKind.admits : ValueKind → String → Bool
  | .text, _ => true
  | .path, value => value ≠ ""
  | .format, value => (Format.ofName? value).isSome

/-- A value that is given to a level; the label stands for it in a description. -/
structure Parameter where
  label : String
  kind : ValueKind
  about : String
deriving DecidableEq

structure Setting extends Parameter where
  name : String
deriving DecidableEq

namespace Setting

def config : Setting where
  name := "config"
  label := "<CONFIG>"
  kind := .path
  about := "Resolver configuration (JSON); defaults to CLOUTPATH_* environment variables"

def format : Setting where
  name := "format"
  label := "<FORMAT>"
  kind := .format
  about := "Output format [default: text] [possible values: text, json]"

def site : Setting where
  name := "site"
  label := "<SITE>"
  kind := .text
  about := "Vertex key bound to SELF (and used for HOST)"

def source : Setting where
  name := "source"
  label := "<SOURCE>"
  kind := .text
  about := "Vertex key bound to SOURCE"

def target : Setting where
  name := "target"
  label := "<TARGET>"
  kind := .text
  about := "Vertex key bound to TARGET"

def typeName : Setting where
  name := "type"
  label := "<TYPE_NAME>"
  kind := .text
  about := "Also test membership of this node type"

end Setting

inductive Flag where
  | verbose
  | help
  | version
deriving DecidableEq

namespace Flag

def name : Flag → String
  | verbose => "verbose"
  | help => "help"
  | version => "version"

def letter : Flag → Char
  | verbose => 'v'
  | help => 'h'
  | version => 'V'

def about : Flag → String
  | verbose => "Increase log verbosity (-v debug, -vv trace)"
  | help => "Print help"
  | version => "Print version"

def isRepeatable : Flag → Bool
  | verbose => true
  | _ => false

end Flag

inductive Subcommand where
  | entity
  | host
  | policyTargets
  | members
  | getProperty
  | getAttribute
  | classify
  | compare
  | setOutput
  | help
deriving DecidableEq

namespace Subcommand

def all : List Subcommand :=
  [entity, host, policyTargets, members, getProperty, getAttribute, classify, compare, setOutput,
    help]

def name : Subcommand → String
  | entity => "entity"
  | host => "host"
  | policyTargets => "policy-targets"
  | members => "members"
  | getProperty => "get-property"
  | getAttribute => "get-attribute"
  | classify => "classify"
  | compare => "compare"
  | setOutput => "set-output"
  | help => "help"

def ofName? (name : String) : Option Subcommand := all.find? (·.name = name)

def about : Subcommand → String
  | entity => "Resolve an entity name to its node template"
  | host => "Show the host of a vertex"
  | policyTargets => "List the node templates a policy applies to"
  | members => "List the members of a group"
  | getProperty => "Read a nested property, e.g. `SELF.endpoint.port`"
  | getAttribute => "Read a nested attribute, e.g. `web.host.0.ip`"
  | classify => "Classify a vertex (model element kind, node template types)"
  | compare => "Compare two JSON values (-1, 0 or 1)"
  | setOutput => "Assign an output from text and show the coerced value (not saved)"
  | help => "Print this message or the help of the given subcommand(s)"

end Subcommand

structure Level where
  path : List String
  about : String
  positionals : List Parameter
  settings : List Setting
  flags : List Flag
  subcommands : List Subcommand
deriving DecidableEq

namespace Level

def top : Level where
  path := ["cloutpath"]
  about := "Resolve entities and values in compiled clout graphs"
  positionals := [⟨"<CLOUT>", .path, "Clout snapshot (JSON)"⟩]
  settings := [.config, .format]
  flags := [.verbose, .help, .version]
  subcommands := Subcommand.all

/-- The configuration, the format and the verbosity may also be given behind a subcommand. -/
def behind (s : Subcommand) (labels : List String) (settings : List Setting) : Level where
  path := top.path ++ top.positionals.map (·.label) ++ [s.name]
  about := s.about
  positionals := labels.map (⟨·, .text, ""⟩)
  settings := settings
  flags := [.verbose, .help]
  subcommands := []

def contextSettings : List Setting := [.config, .site, .format, .source, .target]

def ofSubcommand : Subcommand → Level
  | .entity => behind .entity ["<NAME>"] contextSettings
  | .host => behind .host ["<VERTEX>"] [.config, .format]
  | .policyTargets => behind .policyTargets ["<POLICY>"] [.config, .format]
  | .members => behind .members ["<GROUP>"] [.config, .format]
  | .getProperty => behind .getProperty ["<PATH>"] contextSettings
  | .getAttribute => behind .getAttribute ["<PATH>"] contextSettings
  | .classify => behind .classify ["<VERTEX>"] [.config, .typeName, .format]
  | .compare => behind .compare ["<LEFT>", "<RIGHT>"] [.config, .format]
  | .setOutput => behind .setOutput ["<NAME>", "<VALUE>"] [.config, .format]
  | .help =>
    { behind .help [] [] with
      positionals := [⟨"[COMMAND]...", .text, "Print help for the subcommand(s)"⟩]
      flags := [] }

def setting? (level : Level) (name : String) : Option Setting :=
  level.settings.find? (·.name = name)

def subcommand? (level : Level) (name : String) : Option Subcommand :=
  level.subcommands.find? (·.name = name)

end Level

def unlines (lines : List String) : String := String.join (lines.map (· ++ "\n"))

/-- A heading, and rows of a name with what it is; the second column begins two places behind the
longest name. -/
def table (heading : String) (rows : List (String × String)) : List String :=
  let width := (rows.map (·.1.length)).foldl max 0
  if rows.isEmpty then []
  else "" :: heading :: rows.map fun (name, about) ↦
    "  " ++ name ++ "".pushn ' ' (width + 2 - name.length) ++ about

def Setting.row (s : Setting) : String × String :=
  ("    --" ++ s.name ++ " " ++ s.label, s.about)

def Flag.row (f : Flag) : String × String :=
  ("-" ++ f.letter.toString ++ ", --" ++ f.name ++ (if f.isRepeatable then "..." else ""), f.about)

namespace Level

def usage (level : Level) : String :=
  let options := if level.settings.isEmpty && level.flags.isEmpty then [] else ["[OPTIONS]"]
  let command := if level.subcommands.isEmpty then [] else ["<COMMAND>"]
  "Usage: " ++
    " ".intercalate (level.path ++ options ++ level.positionals.map (·.label) ++ command)

def help (level : Level) : String :=
  unlines <| [level.about, "", level.usage] ++
    table "Commands:" (level.subcommands.map fun s ↦ (s.name, s.about)) ++
    table "Arguments:" (level.positionals.map fun p ↦ (p.label, p.about)) ++
    table "Options:" (level.settings.map (·.row) ++ level.flags.map (·.row))

end Level

end CloutQuery.CommandLine

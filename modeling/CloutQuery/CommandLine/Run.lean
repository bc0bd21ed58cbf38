import CloutQuery.CommandLine.Arguments
import CloutQuery.Graph.Load
import CloutQuery.Graph.Output
import CloutQuery.Host.Registry
import CloutQuery.Resolve.Membership
import CloutQuery.Resolve.Nested

namespace CloutQuery.CommandLine

open Json
open Text (quoted)

inductive Style where
  | bold
  | boldGreen
  | dimmed
deriving DecidableEq

namespace Style

def code : Style → List Char
  | bold => ['\x1b', '[', '1', 'm']
  | boldGreen => ['\x1b', '[', '1', ';', '3', '2', 'm']
  | dimmed => ['\x1b', '[', '2', 'm']

def reset : List Char := ['\x1b', '[', '0', 'm']

/-- Takes the style up again behind each reset in the text. -/
def resume (style : Style) : List Char → List Char
  | '\x1b' :: '[' :: '0' :: 'm' :: rest => reset ++ style.code ++ style.resume rest
  | c :: rest => c :: style.resume rest
  | [] => []

def apply (style : Style) (inColor : Bool) (text : String) : String :=
  if inColor then String.ofList (style.code ++ style.resume text.toList ++ reset) else text

end Style

structure Surroundings where
  file : String → Option String
  environment : String → Option String

inductive RunError where
  | configUnread (path : String)
  | configInvalid (path : String)
  | cloutUnloaded (path : String)
  | noVertex (key : String)
  | outputNotSet (name : String)
  | leftNotJson
  | rightNotJson
  | resolve (error : ResolveError)

def RunError.message : RunError → String
  | .configUnread path => "failed to read config " ++ path
  | .configInvalid path => "invalid config " ++ path
  | .cloutUnloaded path => "failed to load clout " ++ path
  | .noVertex key => "no vertex with key " ++ quoted key
  | .outputNotSet name => "output " ++ quoted name ++ " cannot be set"
  | .leftNotJson => "left is not JSON"
  | .rightNotJson => "right is not JSON"
  | .resolve error => error.message

structure Outcome where
  code : Nat
  stdout : String
  stderr : String

structure Report where
  value : Value
  lines : Bool → List String

namespace Report

def ofValue (v : Value) : Report := ⟨v, fun _ ↦ [v.render]⟩

def ofVertex (v : Vertex) : Report where
  value := .object (.ofList [("key", .text v.key), ("name", v.name?.elim .null .text)])
  lines inColor :=
    [Style.boldGreen.apply inColor (v.name?.getD "-") ++ " " ++
      Style.dimmed.apply inColor ("(" ++ v.key ++ ")")]

def ofTemplates (templates : List Payload) : Report :=
  let names := templates.map fun t ↦ (t.get? "name").getD .null
  ⟨.array names, fun inColor ↦ names.map fun name ↦
    Style.dimmed.apply inColor "-" ++ " " ++ name.text?.getD "?"⟩

def ofClassification (c : Classifier) (v : Vertex) (typeName : Option String) : Report :=
  let kind := (c.elementKind? v.metadata).map (·.name)
  let nodeTemplate : Value := .boolean (c.isNodeTemplateOf v typeName)
  { value := .object (.ofList [("key", .text v.key),
      ("model_element", .boolean (c.isModelElement v.metadata)),
      ("kind", kind.elim .null .text), ("node_template", nodeTemplate)])
    lines := fun inColor ↦ [Style.bold.apply inColor v.key ++ " kind=" ++ kind.getD "-" ++
      " node_template=" ++ nodeTemplate.render] }

def render (r : Report) (format : Format) (inColor : Bool) : String :=
  match format with
  | .json => r.value.pretty ++ "\n"
  | .text => String.join ((r.lines inColor).map (· ++ "\n"))

end Report

def vertex (g : Graph) (key : String) : Except RunError Vertex :=
  match g.vertexByKey? key with
  | some v => .ok v
  | none => .error (.noVertex key)

def vertexId (g : Graph) : Option String → Except RunError (Option VertexId)
  | none => .ok none
  | some key => (vertex g key).map fun v ↦ some v.id

def callContext (g : Graph) (keys : ContextKeys) : Except RunError CallContext := do
  let site ← vertexId g keys.site
  let source ← vertexId g keys.source
  let target ← vertexId g keys.target
  pure ⟨site, source, target⟩

def resolved {α : Type} (result : Except ResolveError α) : Except RunError α :=
  result.mapError .resolve

def operand (error : RunError) (text : String) : Except RunError Value :=
  (parse text).mapError fun _ ↦ error

def setOutput (g : Graph) (name text : String) : Except RunError Report :=
  match g.setOutput? name text with
  | none => .error (.outputNotSet name)
  | some g => .ok (.ofValue (((g.output? name).bind (·.get? "$value")).getD .null))

def report (r : Resolver) : Command → Except RunError Report
  | .entity name keys => do
    let context ← callContext r.graph keys
    (resolved (r.resolveNamedEntity context name)).map .ofVertex
  | .host key => do
    let v ← vertex r.graph key
    (resolved (r.resolveHost v.id)).map .ofVertex
  | .policyTargets key => do
    let v ← vertex r.graph key
    pure (.ofTemplates (r.policyTargets v.id))
  | .members key => do
    let v ← vertex r.graph key
    pure (.ofTemplates (r.groupMembers v.id))
  | .getProperty path keys => do
    let context ← callContext r.graph keys
    (resolved (r.propertyAt context (Segment.parseDotted path))).map .ofValue
  | .getAttribute path keys => do
    let context ← callContext r.graph keys
    (resolved (r.attributeAt context (Segment.parseDotted path))).map .ofValue
  | .classify key typeName => do
    let v ← vertex r.graph key
    pure (.ofClassification r.classifier v typeName)
  | .compare left right => do
    let l ← operand .leftNotJson left
    let r' ← operand .rightNotJson right
    let ordering ← resolved ((r.host.compare l r').mapError .host)
    pure (.ofValue (.number (Number.ofOrdering ordering)))
  | .setOutput name text => setOutput r.graph name text

def loadConfig (s : Surroundings) : Option String → Except RunError Config
  | none => .ok (Config.ofEnvironment s.environment)
  | some path =>
    match s.file path with
    | none => .error (.configUnread path)
    | some text => (Config.parse text).mapError fun _ ↦ .configInvalid path

def loadClout (s : Surroundings) (path : String) : Except RunError Graph :=
  match s.file path with
  | none => .error (.cloutUnloaded path)
  | some text => (Graph.ofText text).mapError fun _ ↦ .cloutUnloaded path

def variableNames : List String :=
  ["CLOUTPATH_MARKER", "CLOUTPATH_VERSION", "CLOUTPATH_HOST_ROLE", "CLICOLOR_FORCE"]

def Surroundings.inColor (s : Surroundings) : Bool := (s.environment "CLICOLOR_FORCE").any (· ≠ "0")

/-- The configuration is read before the clout. -/
def Invocation.report (i : Invocation) (s : Surroundings) : Except RunError Report := do
  let config ← loadConfig s i.config
  let graph ← loadClout s i.clout
  CommandLine.report ⟨graph, Registry.withBuiltins.toHost, config⟩ i.command

def Invocation.run (i : Invocation) (s : Surroundings) : Outcome :=
  match i.report s with
  | .ok report => ⟨0, report.render i.format s.inColor, ""⟩
  | .error e => ⟨1, "", "Error: " ++ e.message ++ "\n"⟩

def Outcome.failure? (o : Outcome) : Option String :=
  if o.code = 1 then some (String.ofList (o.stderr.toList.takeWhile (· ≠ '\n'))) else none

def versionLine : String := "cloutpath 0.1.0\n"

def Stop.outcome : Stop → Outcome
  | .usage => ⟨2, "", Level.top.usage ++ "\n"⟩
  | .version => ⟨0, versionLine, ""⟩
  | .help level => ⟨0, level.help, ""⟩

def run (args : List String) (s : Surroundings) : Outcome :=
  match Invocation.parse args with
  | .ok i => i.run s
  | .error stop => stop.outcome

end CloutQuery.CommandLine

import CloutQuery.Config
import CloutQuery.Host.Basic

namespace CloutQuery

open Text (quoted)

/-- The vertices that `SELF` and `HOST`, `SOURCE` and `TARGET` refer to. -/
structure CallContext where
  site : Option VertexId
  source : Option VertexId
  target : Option VertexId
deriving DecidableEq

def CallContext.empty : CallContext := ⟨none, none, none⟩

inductive EntityRef where
  | site
  | source
  | target
  | host
  | named (name : String)
deriving DecidableEq

namespace EntityRef

def parse : String → EntityRef
  | "SELF" => .site
  | "SOURCE" => .source
  | "TARGET" => .target
  | "HOST" => .host
  | name => .named name

def text : EntityRef → String
  | .site => "SELF"
  | .source => "SOURCE"
  | .target => "TARGET"
  | .host => "HOST"
  | .named name => name

end EntityRef

inductive Missing where
  | nodeTemplate (entity : String)
  | vertex (id : VertexId)
  /-- The host of a vertex; only a node template is named. -/
  | host (nodeTemplate : Option String)
  /-- A path that ends where the name of the value should come. -/
  | valueName (noun node path : String)
  | value (noun key node : String)
  | nested (noun path node : String)

def Missing.message : Missing → String
  | .nodeTemplate entity => quoted entity ++ " node template not found"
  | .vertex id => "vertex " ++ id.render ++ " not found"
  | .host none => "\"HOST\" not found"
  | .host (some name) => "\"HOST\" not found for node template " ++ quoted name
  | .valueName noun node path =>
    noun ++ " name not found in " ++ quoted node ++ " for " ++ quoted path
  | .value noun key node => noun ++ " " ++ quoted key ++ " not found in " ++ quoted node
  | .nested noun path node =>
    "nested " ++ noun ++ " " ++ quoted path ++ " not found in " ++ quoted node

inductive ResolveError where
  | tooFewSegments
  | context (entity : String)
  | notFound (missing : Missing)
  | host (error : HostError)

def ResolveError.message : ResolveError → String
  | .tooFewSegments => "must have at least 2 arguments"
  | .context entity => quoted entity ++ " cannot be used in this context"
  | .notFound missing => missing.message
  | .host error => error.message

structure Resolver where
  graph : Graph
  host : Host
  config : Config

def Resolver.classifier (r : Resolver) : Classifier := r.config.classifier

end CloutQuery

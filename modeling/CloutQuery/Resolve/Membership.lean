import CloutQuery.Resolve.Entity

namespace CloutQuery.Resolver

variable (r : Resolver)

/-- The targets of the member edges, in edge order. Members are not looked into further. -/
def membersOf (group : Vertex) : List Payload :=
  (((r.graph.edgesOut group).filter (r.isKind · .member)).filterMap r.graph.target?).map
    (·.properties)

def groupMembers (id : VertexId) : List Payload :=
  match r.graph.vertex? id with
  | some group => r.membersOf group
  | none => []

def sameName (p q : Payload) : Bool :=
  match p.get? "name", q.get? "name" with
  | some a, some b => a.same b
  | none, none => true
  | _, _ => false

/-- Adds a member of a targeted group unless there is a target of that name. -/
def addMember (targets : List Payload) (member : Payload) : List Payload :=
  if targets.any (sameName · member) then targets else targets ++ [member]

def addTargets (targets : List Payload) (e : Edge) : List Payload :=
  match r.graph.target? e with
  | none => targets
  | some target =>
    if r.isKind e .nodeTemplateTarget then targets ++ [target.properties]
    else if r.isKind e .groupTarget then (r.membersOf target).foldl addMember targets
    else targets

def policyTargets (id : VertexId) : List Payload :=
  match r.graph.vertex? id with
  | some policy => (r.graph.edgesOut policy).foldl r.addTargets []
  | none => []

end CloutQuery.Resolver

import CloutQuery.Graph.Load
import CloutQuery.Graph.Output
import CloutQuery.Resolve.Basic

namespace CloutQuery

structure SharedHistory where
  list : Nat
  entries : List HistoryEntry

structure Workspace where
  graph : Graph
  list : Nat

def Workspace.history (w : Workspace) : SharedHistory := ⟨w.list, w.graph.history⟩

/-- Several graphs of which one is current. Histories are shared, not copied: each carries the number of
the list it is, and a new number comes with every load, every new graph and every appended entry. -/
structure Session where
  workspaces : Array Workspace
  current : Nat
  config : Config
  host : Host
  snapshots : List SharedHistory
  /-- No history list has this number yet. -/
  nextList : Nat

namespace Session

def start (graph : Graph) (host : Host) : Session :=
  ⟨#[⟨graph, 0⟩], 0, Config.standard, host, [], 1⟩

def workspace (s : Session) : Workspace := s.workspaces.getD s.current ⟨default, 0⟩

def graph (s : Session) : Graph := s.workspace.graph

def resolver (s : Session) : Resolver := ⟨s.graph, s.host, s.config⟩

def withGraph (s : Session) (graph : Graph) : Session :=
  { s with workspaces := s.workspaces.modify s.current fun w ↦ { w with graph } }

def appendHistory (s : Session) (entry : HistoryEntry) : Session :=
  { s with
    workspaces := s.workspaces.modify s.current fun w ↦ ⟨w.graph.appendHistory entry, s.nextList⟩
    nextList := s.nextList + 1 }

def openWorkspace (s : Session) (w : Workspace) : Session :=
  { s with workspaces := s.workspaces.push w, current := s.workspaces.size }

def fork (s : Session) : Session := s.openWorkspace s.workspace

def openNew (s : Session) (version : String) : Session :=
  { s.openWorkspace ⟨Graph.empty version, s.nextList⟩ with nextList := s.nextList + 1 }

def switchTo? (s : Session) (index : Nat) : Option Session :=
  if index < s.workspaces.size then some { s with current := index } else none

/-- Keeps the current history, and says whether it is the very list kept last. -/
def takeSnapshot (s : Session) : Option Bool × Session :=
  let history := s.workspace.history
  (s.snapshots.getLast?.map (·.list == history.list), { s with snapshots := s.snapshots ++ [history] })

end Session

end CloutQuery

import CloutQuery.Graph.Basic
import CloutQuery.Json.Decoder

namespace CloutQuery

open Json

structure EdgeDocument where
  metadata : Payload
  properties : Payload
  target : String

structure VertexDocument where
  metadata : Payload
  properties : Payload
  edges : List EdgeDocument

structure CloutDocument where
  version : String
  metadata : Payload
  properties : Payload
  vertices : Table VertexDocument

namespace EdgeDocument

structure Draft where
  metadata : Option Payload
  properties : Option Payload
  target : Option String

def fields : List (RecordField Draft) := [
  Decoder.field "metadata" Decoder.payload (·.metadata) fun d x ↦ { d with metadata := some x },
  Decoder.field "properties" Decoder.payload (·.properties) fun d x ↦ { d with properties := some x },
  Decoder.field "targetID" Decoder.text (·.target) fun d x ↦ { d with target := some x }]

/-- Only the target has to be there. -/
def Draft.finish (d : Draft) : Option EdgeDocument :=
  d.target.map fun target ↦ ⟨d.metadata.getD ∅, d.properties.getD ∅, target⟩

def decoder : Decoder EdgeDocument := Decoder.record fields ⟨none, none, none⟩ Draft.finish

end EdgeDocument

namespace VertexDocument

structure Draft where
  metadata : Option Payload
  properties : Option Payload
  edges : Option (List EdgeDocument)

def fields : List (RecordField Draft) := [
  Decoder.field "metadata" Decoder.payload (·.metadata) fun d x ↦ { d with metadata := some x },
  Decoder.field "properties" Decoder.payload (·.properties) fun d x ↦ { d with properties := some x },
  Decoder.field "edgesOut" (Decoder.list EdgeDocument.decoder) (·.edges)
    fun d x ↦ { d with edges := some x }]

def Draft.finish (d : Draft) : Option VertexDocument :=
  some ⟨d.metadata.getD ∅, d.properties.getD ∅, d.edges.getD []⟩

def decoder : Decoder VertexDocument := Decoder.record fields ⟨none, none, none⟩ Draft.finish

end VertexDocument

namespace CloutDocument

structure Draft where
  version : Option String
  metadata : Option Payload
  properties : Option Payload
  vertices : Option (Table VertexDocument)

def fields : List (RecordField Draft) := [
  Decoder.field "version" Decoder.text (·.version) fun d x ↦ { d with version := some x },
  Decoder.field "metadata" Decoder.payload (·.metadata) fun d x ↦ { d with metadata := some x },
  Decoder.field "properties" Decoder.payload (·.properties) fun d x ↦ { d with properties := some x },
  Decoder.field "vertexes" (Decoder.table VertexDocument.decoder) (·.vertices)
    fun d x ↦ { d with vertices := some x }]

def Draft.finish (d : Draft) : Option CloutDocument :=
  some ⟨d.version.getD Graph.defaultVersion, d.metadata.getD ∅, d.properties.getD ∅, d.vertices.getD ∅⟩

def decoder : Decoder CloutDocument := Decoder.record fields ⟨none, none, none, none⟩ Draft.finish

end CloutDocument

namespace HistoryEntry

def timestampDecoder : Decoder Timestamp := Decoder.text.refine Timestamp.parse

structure Draft where
  timestamp : Option Timestamp
  description : Option String

def fields : List (RecordField Draft) := [
  Decoder.field "timestamp" timestampDecoder (·.timestamp) fun d x ↦ { d with timestamp := some x },
  Decoder.field "description" Decoder.text (·.description) fun d x ↦ { d with description := some x }]

def Draft.finish (d : Draft) : Option HistoryEntry := do
  some ⟨.at (← d.timestamp), ← d.description⟩

def decoder : Decoder HistoryEntry := Decoder.record fields ⟨none, none⟩ Draft.finish

end HistoryEntry

end CloutQuery

import CloutQuery.Element.Classifier
import CloutQuery.Json.Decoder

namespace CloutQuery

open Json

structure Config where
  marker : String
  version : String
  hostRole : String
deriving DecidableEq

namespace Config

def standard : Config := ⟨Classifier.standard.marker, Classifier.standard.version, "host"⟩

def classifier (c : Config) : Classifier := ⟨c.marker, c.version⟩

/-- What a partial configuration leaves out is standard. -/
structure Draft where
  marker : Option String
  version : Option String
  hostRole : Option String

def Draft.complete (d : Draft) : Config :=
  ⟨d.marker.getD standard.marker, d.version.getD standard.version, d.hostRole.getD standard.hostRole⟩

def fields : List (RecordField Draft) := [
  Decoder.field "marker" Decoder.text (·.marker) fun d x ↦ { d with marker := some x },
  Decoder.field "version" Decoder.text (·.version) fun d x ↦ { d with version := some x },
  Decoder.field "host_role" Decoder.text (·.hostRole) fun d x ↦ { d with hostRole := some x }]

def decoder : Decoder Config :=
  Decoder.record fields ⟨none, none, none⟩ fun d ↦ some d.complete

def parse (text : String) : Except Fault Config := decoder.parse text

def ofEnvironment (lookup : String → Option String) : Config :=
  Draft.complete
    ⟨lookup "CLOUTPATH_MARKER", lookup "CLOUTPATH_VERSION", lookup "CLOUTPATH_HOST_ROLE"⟩

end Config

end CloutQuery

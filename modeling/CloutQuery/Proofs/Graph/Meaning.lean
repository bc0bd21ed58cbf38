import CloutQuery.Graph.Load
import CloutQuery.Proofs.Json.Meaning

namespace CloutQuery

open Json

namespace EdgeDocument

inductive Means : Value → EdgeDocument → Prop
  | mk {v : Value} {members : List (String × Value)} {metadata properties : Payload} {target : String}
      (record : IsRecord ["metadata", "properties", "targetID"] v members)
      (metadata_states : States members "metadata" (fun v t ↦ v = .object t) ∅ metadata)
      (properties_states : States members "properties" (fun v t ↦ v = .object t) ∅ properties)
      (target_stated : members.lookup "targetID" = some (.text target)) :
      Means v ⟨metadata, properties, target⟩

theorem fields_read : (∀ f ∈ fields, f.Reads "metadata" Decoder.payload (·.metadata)) ∧
    (∀ f ∈ fields, f.Reads "properties" Decoder.payload (·.properties)) ∧
    ∀ f ∈ fields, f.Reads "targetID" Decoder.text (·.target) := by
  simp only [fields, List.forall_mem_cons]
  -- each field sets its own part of the draft and no other
  refine ⟨⟨?_, ?_, ?_, nofun⟩, ⟨?_, ?_, ?_, nofun⟩, ?_, ?_, ?_, nofun⟩ <;>
    first
    | exact Decoder.field_reads fun _ _ ↦ rfl
    | exact Decoder.field_reads_other (by decide) fun _ _ ↦ rfl

theorem tells_decoder : decoder.Tells Means := by
  intro v e hv h
  obtain ⟨members, s, hread, hfinish⟩ := Decoder.exists_readInto (by decide) hv h
  obtain ⟨target, htarget, rfl⟩ := Option.map_eq_some_iff.1 hfinish
  obtain ⟨hmetadata, hproperties, hfields⟩ := fields_read
  obtain ⟨_, hlookup, rfl⟩ := hread.given hfields (by decide) rfl Decoder.tells_text htarget
  exact .mk hread.record (hread.states hmetadata (by decide) rfl Decoder.tells_payload ∅)
    (hread.states hproperties (by decide) rfl Decoder.tells_payload ∅) hlookup

end EdgeDocument

namespace VertexDocument

inductive Means : Value → VertexDocument → Prop
  | mk {v : Value} {members : List (String × Value)} {metadata properties : Payload}
      {edges : List EdgeDocument} (record : IsRecord ["metadata", "properties", "edgesOut"] v members)
      (metadata_states : States members "metadata" (fun v t ↦ v = .object t) ∅ metadata)
      (properties_states : States members "properties" (fun v t ↦ v = .object t) ∅ properties)
      (edges_states : States members "edgesOut" (ListMeans EdgeDocument.Means) [] edges) :
      Means v ⟨metadata, properties, edges⟩

theorem fields_read : (∀ f ∈ fields, f.Reads "metadata" Decoder.payload (·.metadata)) ∧
    (∀ f ∈ fields, f.Reads "properties" Decoder.payload (·.properties)) ∧
    ∀ f ∈ fields, f.Reads "edgesOut" (Decoder.list EdgeDocument.decoder) (·.edges) := by
  simp only [fields, List.forall_mem_cons]
  refine ⟨⟨?_, ?_, ?_, nofun⟩, ⟨?_, ?_, ?_, nofun⟩, ?_, ?_, ?_, nofun⟩ <;>
    first
    | exact Decoder.field_reads fun _ _ ↦ rfl
    | exact Decoder.field_reads_other (by decide) fun _ _ ↦ rfl

theorem tells_decoder : decoder.Tells Means := by
  intro v x hv h
  obtain ⟨members, s, hread, hfinish⟩ := Decoder.exists_readInto (by decide) hv h
  obtain ⟨hmetadata, hproperties, hedges⟩ := fields_read
  cases hfinish
  exact .mk hread.record (hread.states hmetadata (by decide) rfl Decoder.tells_payload ∅)
    (hread.states hproperties (by decide) rfl Decoder.tells_payload ∅)
    (hread.states hedges (by decide) rfl (Decoder.tells_list EdgeDocument.tells_decoder) [])

end VertexDocument

namespace CloutDocument

/-- What a value with its keys in order says as a document. -/
inductive Means : Value → CloutDocument → Prop
  | mk {v : Value} {members : List (String × Value)} {version : String} {metadata properties : Payload}
      {vertices : Table VertexDocument}
      (record : IsRecord ["version", "metadata", "properties", "vertexes"] v members)
      (version_states : States members "version" (fun v s ↦ v = .text s) "1.0" version)
      (metadata_states : States members "metadata" (fun v t ↦ v = .object t) ∅ metadata)
      (properties_states : States members "properties" (fun v t ↦ v = .object t) ∅ properties)
      (vertices_states : States members "vertexes" (TableMeans VertexDocument.Means) ∅ vertices) :
      Means v ⟨version, metadata, properties, vertices⟩

theorem fields_read : (∀ f ∈ fields, f.Reads "version" Decoder.text (·.version)) ∧
    (∀ f ∈ fields, f.Reads "metadata" Decoder.payload (·.metadata)) ∧
    (∀ f ∈ fields, f.Reads "properties" Decoder.payload (·.properties)) ∧
    ∀ f ∈ fields, f.Reads "vertexes" (Decoder.table VertexDocument.decoder) (·.vertices) := by
  simp only [fields, List.forall_mem_cons]
  refine ⟨⟨?_, ?_, ?_, ?_, nofun⟩, ⟨?_, ?_, ?_, ?_, nofun⟩, ⟨?_, ?_, ?_, ?_, nofun⟩, ?_, ?_, ?_, ?_,
    nofun⟩ <;>
    first
    | exact Decoder.field_reads fun _ _ ↦ rfl
    | exact Decoder.field_reads_other (by decide) fun _ _ ↦ rfl

theorem tells_decoder : decoder.Tells Means := by
  intro v x hv h
  obtain ⟨members, s, hread, hfinish⟩ := Decoder.exists_readInto (by decide) hv h
  obtain ⟨hversion, hmetadata, hproperties, hvertices⟩ := fields_read
  cases hfinish
  exact .mk hread.record (hread.states hversion (by decide) rfl Decoder.tells_text "1.0")
    (hread.states hmetadata (by decide) rfl Decoder.tells_payload ∅)
    (hread.states hproperties (by decide) rfl Decoder.tells_payload ∅)
    (hread.states hvertices (by decide) rfl (Decoder.tells_table VertexDocument.tells_decoder) ∅)

end CloutDocument

namespace HistoryEntry

inductive Means : Value → HistoryEntry → Prop
  | mk {v : Value} {members : List (String × Value)} {text description : String} {time : Timestamp}
      (record : IsRecord ["timestamp", "description"] v members)
      (timestamp_stated : members.lookup "timestamp" = some (.text text))
      (tells_time : Timestamp.parse text = some time)
      (description_stated : members.lookup "description" = some (.text description)) :
      Means v ⟨.at time, description⟩

theorem fields_read : (∀ f ∈ fields, f.Reads "timestamp" timestampDecoder (·.timestamp)) ∧
    ∀ f ∈ fields, f.Reads "description" Decoder.text (·.description) := by
  simp only [fields, List.forall_mem_cons]
  refine ⟨⟨?_, ?_, nofun⟩, ?_, ?_, nofun⟩ <;>
    first
    | exact Decoder.field_reads fun _ _ ↦ rfl
    | exact Decoder.field_reads_other (by decide) fun _ _ ↦ rfl

theorem tells_timestampDecoder :
    timestampDecoder.Tells fun v time ↦ ∃ text, v = .text text ∧ Timestamp.parse text = some time := by
  intro v time _ h
  obtain ⟨text, htext, htime⟩ := Option.bind_eq_some_iff.1 h
  exact ⟨text, Value.text?_eq_some_iff.1 htext, htime⟩

theorem tells_decoder : decoder.Tells Means := by
  intro v x hv h
  obtain ⟨members, s, hread, hfinish⟩ := Decoder.exists_readInto (by decide) hv h
  obtain ⟨htimestamp, hdescription⟩ := fields_read
  obtain ⟨time, htime, hfinish⟩ := Option.bind_eq_some_iff.1 hfinish
  obtain ⟨description, hstated, hfinish⟩ := Option.bind_eq_some_iff.1 hfinish
  cases hfinish
  obtain ⟨_, hlookup, text, rfl, htells⟩ :=
    hread.given htimestamp (by decide) rfl tells_timestampDecoder htime
  obtain ⟨_, hlookup', rfl⟩ := hread.given hdescription (by decide) rfl Decoder.tells_text hstated
  exact .mk hread.record hlookup htells hlookup'

end HistoryEntry

end CloutQuery

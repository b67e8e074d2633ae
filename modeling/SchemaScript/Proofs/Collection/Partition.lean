import SchemaScript.Collection.Basic
import SchemaScript.Proofs.Entries
import SchemaScript.Proofs.Script.ForeignKey

/-!
# SchemaScript.Proofs.Collection.Partition

Each column of a table goes into its collection by its name, and in one way only: as a reference, if
some column of this name is a foreign key that points into the model, and else as a field
(`columns_partition`).

The three lists that are made from the fields agree: the properties have each name once, in its
first place and with what its last column says; the storage types are those of all columns in order;
and the names that are required are among both. What a schema says about a property is read from its
JSON value (`recorded?_toJson`).
-/

namespace SchemaScript
namespace Collection

/-- The columns of which no reference has the name. -/
def remaining (t : Table) (references : List CollectionReference) : List Column :=
  t.columns.filter fun c => c.name ∉ references.map (·.field)

/-- The types of documents' values, with the names that they have in a schema. -/
def bsonTypes : List (StorageType × String) :=
  [(.int, "int"), (.double, "double"), (.bool, "bool"), (.date, "date"), (.object, "object"),
    (.string, "string")]

/-- What a schema records about a property under the given name. -/
def recorded? (schema : Json.Value) (property name : String) : Option Json.Value := do
  let properties ← schema.member? "properties"
  let recorded ← properties.member? property
  recorded.member? name

variable {s : Scope} {t : Table} {name : String}

theorem mem_remaining {references : List CollectionReference} {c : Column} :
    c ∈ remaining t references ↔ c ∈ t.columns ∧ c.name ∉ references.map (·.field) := by
  rw [remaining, List.mem_filter, decide_eq_true_eq]

/-! ## References -/

theorem mem_fields_references :
    name ∈ (ofTable s t).references.map (·.field) ↔
      ∃ l ∈ s.foreignKeys t, l.column.name = name := by
  rw [ofTable, List.map_map, List.mem_map]
  rfl

theorem references_eq (tables : List Table) (t : Table) :
    (ofTable (.ofTables tables) t).references =
      t.columns.filterMap fun c => (c.declared? tables).map fun r =>
        ⟨c.name, r.table, r.column, r.kind⟩ := by
  rw [ofTable, Scope.foreignKeys_ofTables, List.map_filterMap]
  simp only [Option.map_map]
  rfl

/-! ## Fields -/

theorem fieldColumns_eq (s : Scope) (t : Table) :
    fieldColumns s t = remaining t (ofTable s t).references := by
  refine List.filter_congr fun c _ => ?_
  rw [Bool.eq_iff_iff, decide_eq_true_eq, mem_fields_references]
  simp

/-- Every column is a field or a reference by its name. -/
theorem mem_names_iff :
    name ∈ t.columns.map (·.name) ↔
      name ∈ (fieldColumns s t).map (·.name) ∨ name ∈ (ofTable s t).references.map (·.field) := by
  rw [fieldColumns_eq]
  constructor
  · intro hname
    obtain ⟨c, hc, rfl⟩ := List.mem_map.mp hname
    by_cases hfield : c.name ∈ (ofTable s t).references.map (·.field)
    · exact .inr hfield
    · exact .inl (List.mem_map_of_mem (mem_remaining.mpr ⟨hc, hfield⟩))
  · rintro (hname | hname)
    · obtain ⟨c, hc, rfl⟩ := List.mem_map.mp hname
      exact List.mem_map_of_mem (mem_remaining.mp hc).1
    · obtain ⟨l, hl, rfl⟩ := mem_fields_references.mp hname
      exact List.mem_map_of_mem (Table.mem_links.mp (List.mem_of_mem_filter hl)).1

theorem keys_properties (s : Scope) (t : Table) :
    (ofTable s t).schema.properties.map Prod.fst =
      ((fieldColumns s t).map (·.name)).eraseDups := by
  rw [ofTable, Entries.keys_merge, List.map_map]
  rfl

theorem mem_keys_properties :
    name ∈ (ofTable s t).schema.properties.map Prod.fst ↔
      name ∈ (fieldColumns s t).map (·.name) := by
  rw [keys_properties, List.mem_eraseDups]

/-- What the schema says about a name is what its last column says. -/
theorem mem_properties {property : Property} :
    (name, property) ∈ (ofTable s t).schema.properties ↔
      ((fieldColumns s t).reverse.find? (·.name = name)).map .ofColumn = some property := by
  rw [ofTable, Entries.mem_merge, ← List.map_reverse, lookup_map_name]

theorem mem_bsonTypes (storage : StorageType) : (storage, storage.bsonName) ∈ bsonTypes := by
  cases storage <;> decide

theorem recorded?_toJson {schema : CollectionSchema} (h : (schema.properties.map Prod.fst).Nodup)
    {key : String} {property : Property} (hmem : (key, property) ∈ schema.properties) :
    recorded? schema.toJson key "bsonType" = some (.string property.storage.bsonName) ∧
    recorded? schema.toJson key "description" = some (.string property.description) := by
  let members := schema.properties.map fun e => (e.1, e.2.toJson)
  have hproperties : schema.toJson.member? "properties" = some (.object members) := by
    unfold CollectionSchema.toJson
    cases schema.required.isEmpty <;> rfl
  have hkeys : (members.map Prod.fst).Nodup := by
    rw [List.map_map]
    exact h
  have hkey : (Json.Value.object members).member? key = some property.toJson :=
    (Entries.lookup_eq_some_iff_mem hkeys).mpr (List.mem_map.mpr ⟨_, hmem, rfl⟩)
  simp only [recorded?, hproperties, hkey, Option.bind_eq_bind, Option.bind_some]
  exact ⟨rfl, rfl⟩

/-- A default that is not empty is told behind the name. -/
theorem description_ofColumn (c : Column) :
    (Property.ofColumn c).description = c.name ++ " field" ++
      (if c.defaultValue.getD "" = "" then ""
      else " (default: " ++ c.defaultValue.getD "" ++ ")") := by
  unfold Property.ofColumn Column.givenDefault?
  cases c.defaultValue with
  | none => simp
  | some value =>
    by_cases hvalue : value = ""
    · simp [Option.filter, hvalue]
    · have hopen (rest : String) :
          " field (default: " ++ rest = " field" ++ (" (default: " ++ rest) := by
        rw [← String.append_assoc]
        rfl
      simp [Option.filter, hvalue, hopen, String.append_assoc]

theorem names_fields (s : Scope) (t : Table) :
    (ofTable s t).fields.map Prod.fst = (fieldColumns s t).map (·.name) := by
  rw [ofTable, List.map_map]
  rfl

theorem required_eq (s : Scope) (t : Table) :
    (ofTable s t).schema.required = ((fieldColumns s t).filter fun c =>
      c.isNullable = some false ∨ c.isPrimaryKey = true).map (·.name) := by
  have hrequired (c : Column) :
      c.isRequired = decide (c.isNullable = some false ∨ c.isPrimaryKey = true) := by
    rw [Bool.eq_iff_iff, decide_eq_true_eq]
    simp [Column.isRequired]
  rw [ofTable]
  simp only [hrequired]

theorem required_sublist (s : Scope) (t : Table) :
    (ofTable s t).schema.required.Sublist ((ofTable s t).fields.map Prod.fst) := by
  rw [required_eq, names_fields]
  exact List.filter_sublist.map _

theorem mem_keys_of_mem_required (h : name ∈ (ofTable s t).schema.required) :
    name ∈ (ofTable s t).schema.properties.map Prod.fst := by
  rw [mem_keys_properties, ← names_fields]
  exact (required_sublist s t).mem h

/-- What a collection is made of. Its properties and its references share the names of the columns
among them, and neither has a name of the other. -/
theorem columns_partition (tables : List Table) (t : Table) :
    let c := ofTable (.ofTables tables) t
    let keys := c.schema.properties.map Prod.fst
    let fields := remaining t c.references
    (∀ name, name ∈ t.columns.map (·.name) ↔
      name ∈ keys ∨ name ∈ c.references.map (·.field)) ∧
    (∀ name ∈ keys, name ∉ c.references.map (·.field)) ∧
    c.references = (t.columns.filterMap fun column => (column.declared? tables).map fun r =>
      ⟨column.name, r.table, r.column, r.kind⟩) ∧
    keys = (fields.map (·.name)).eraseDups ∧ keys.Nodup ∧
    (∀ e ∈ c.schema.properties, ∃ column bsonType,
      fields.reverse.find? (·.name = e.1) = some column ∧
      e.2.storage = .classify column.dataType ∧ (e.2.storage, bsonType) ∈ bsonTypes ∧
      e.2.description = e.1 ++ " field" ++
        (if column.defaultValue.getD "" = "" then ""
        else " (default: " ++ column.defaultValue.getD "" ++ ")") ∧
      recorded? c.schema.toJson e.1 "bsonType" = some (.string bsonType) ∧
      recorded? c.schema.toJson e.1 "description" = some (.string e.2.description)) ∧
    c.fields = fields.map (fun column => (column.name, .classify column.dataType)) ∧
    c.schema.required = (fields.filter fun column =>
      column.isNullable = some false ∨ column.isPrimaryKey = true).map (·.name) ∧
    c.schema.required.Sublist (c.fields.map Prod.fst) ∧
    ∀ name ∈ c.schema.required, name ∈ keys := by
  intro c keys fields
  have hfields : fields = fieldColumns (.ofTables tables) t := (fieldColumns_eq _ t).symm
  refine ⟨fun name => ?_, fun name hname => ?_, references_eq tables t, ?_,
    Entries.nodup_keys_merge _, fun e he => ?_, ?_, ?_, required_sublist _ t,
    fun name => mem_keys_of_mem_required⟩
  · rw [mem_keys_properties]
    exact mem_names_iff
  · rw [mem_keys_properties, ← hfields] at hname
    obtain ⟨column, hcolumn, rfl⟩ := List.mem_map.mp hname
    exact (mem_remaining.mp hcolumn).2
  · rw [hfields]
    exact keys_properties _ t
  · obtain ⟨name, property⟩ := e
    obtain ⟨column, hcolumn, hproperty⟩ := Option.map_eq_some_iff.mp (mem_properties.mp he)
    subst hproperty
    have hname : column.name = name := by simpa using List.find?_some hcolumn
    rw [hfields]
    refine ⟨column, _, hcolumn, rfl, mem_bsonTypes _, ?_,
      recorded?_toJson (Entries.nodup_keys_merge _) he⟩
    rw [← hname]
    exact description_ofColumn column
  · rw [hfields]
    rfl
  · rw [hfields]
    exact required_eq _ t

/-- Two columns share the name of a foreign key, and two others share a name but neither their types
nor their defaults. -/
def repeatedTables : List Table :=
  [.withColumns "user" [(Column.untyped "id").primaryKey],
    .withColumns "order" [(Column.typed "note" "TEXT").nullable false,
      (Column.typed "user" "INT").references "user" "id" .manyToOne,
      (Column.typed "id" "INT").primaryKey, Column.typed "user" "TEXT",
      (Column.typed "note" "DECIMAL(10,2)").withDefault "1.5"]]

theorem columns_partition_repeatedTables :
    let t := repeatedTables.getLast (by decide)
    let c := ofTable (.ofTables repeatedTables) t
    let note : Property := ⟨.double, "note field (default: 1.5)"⟩
    c.schema.properties.map Prod.fst = ["note", "id"] ∧ c.references.map (·.field) = ["user"] ∧
    c.schema.required = ["note", "id"] ∧ ("note", note) ∈ c.schema.properties ∧
    "note" ∉ c.references.map (·.field) ∧ "note" ∈ c.schema.properties.map Prod.fst ∧
    recorded? c.schema.toJson "note" "bsonType" = some (.string "double") ∧
    recorded? c.schema.toJson "note" "description" = some (.string "note field (default: 1.5)") ∧
    ∃ column, (remaining t c.references).reverse.find? (·.name = "note") = some column ∧
      .double = StorageType.classify column.dataType ∧ column.defaultValue.getD "" = "1.5" := by
  intro t c note
  have hrequired : c.schema.required = ["note", "id"] := by decide +kernel
  have hnote : ("note", note) ∈ c.schema.properties := by decide +kernel
  obtain ⟨-, hdisjoint, -, -, -, hlast, -, -, -, hkeys⟩ := columns_partition repeatedTables t
  have hmember : "note" ∈ c.schema.required := by
    rw [hrequired]
    exact List.mem_cons_self
  have hkey := hkeys "note" hmember
  obtain ⟨column, bsonType, hcolumn, hstorage, hname, -, htype, hdescription⟩ := hlast _ hnote
  have hdouble : bsonType = "double" := by
    have hnames : ∀ e ∈ bsonTypes, e.1 = .double → e.2 = "double" := by decide
    exact hnames _ hname rfl
  have hdefault : (remaining t c.references).reverse.find? (·.name = "note") =
      some ((Column.typed "note" "DECIMAL(10,2)").withDefault "1.5") := by decide +kernel
  rw [hdouble] at htype
  refine ⟨by decide +kernel, by decide +kernel, hrequired, hnote, hdisjoint "note" hkey, hkey,
    htype, hdescription, column, hcolumn, hstorage, ?_⟩
  rw [Option.some.inj (hcolumn.symm.trans hdefault)]
  rfl

end Collection
end SchemaScript

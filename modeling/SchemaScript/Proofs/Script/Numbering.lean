import SchemaScript.Proofs.Script.ConstraintName
import SchemaScript.Proofs.Script.Share

/-!
# SchemaScript.Proofs.Script.Numbering

Which columns get their numbers from the database. Lines with a keyword and sequences with triggers
are made apart from each other, and both are for the columns that are the whole primary key of their
table and have the type of a plain integer (`Scope.numbered`).

* `isIntegerTyped_iff`: the type token, without blanks around it, is one of two words.
* `columnsWith_keyword`: the columns whose line has a keyword.
* `sequenceColumns_eq_numbered`: the columns that have a sequence and a trigger.
* `names_createTrigger`: the identifiers in a trigger.
* `sequenceNames_eq`, `triggerNames_eq`: the names of sequences and triggers, which join the table
  and the column.
* `blocks_eq`: where the sequences and the triggers stand in a script.
-/

namespace SchemaScript

/-- The column is the only one of the primary key, and its type is `INT` or `INTEGER`. -/
def Table.Numbers (t : Table) (c : Column) : Prop :=
  t.primaryKeyColumns = [c] ∧
    ∃ token ∈ c.dataType, ∃ word ∈ ["INT", "INTEGER"], Text.equalAsciiCase (Text.trim token) word

instance (t : Table) : DecidablePred t.Numbers :=
  fun c => inferInstanceAs (Decidable (t.primaryKeyColumns = [c] ∧ ∃ token ∈ c.dataType,
    ∃ word ∈ ["INT", "INTEGER"], Text.equalAsciiCase (Text.trim token) word))

namespace Statement

def sequence? : Statement → Option (Table × Column)
  | .createSequence t c => some (t, c)
  | _ => none

def trigger? : Statement → Option (Table × Column)
  | .createTrigger t c => some (t, c)
  | _ => none

end Statement

namespace Scope

/-- The pairs of an exported table and one of its columns that the database can number. -/
def numbered (s : Scope) : List (Table × Column) :=
  s.tables.flatMap fun t => (t.columns.filter (t.Numbers ·)).map fun c => (t, c)

/-- The pairs of an exported table and a column whose line has the mark. -/
def columnsWith (s : Scope) (p : Profile) (word : String) : List (Table × Column) :=
  s.tables.flatMap fun t => (p.columnsWith t word).map fun c => (t, c)

/-- The pairs for which the script makes a sequence. -/
def sequences (s : Scope) (p : Profile) : List (Table × Column) :=
  (s.statements p).filterMap Statement.sequence?

/-- The pairs for which the script makes a trigger. -/
def triggers (s : Scope) (p : Profile) : List (Table × Column) :=
  (s.statements p).filterMap Statement.trigger?

/-- The names of the sequences that the script makes. -/
def sequenceNames (s : Scope) (p : Profile) : List String :=
  s.namesBehind p ["CREATE SEQUENCE "]

/-- The names of the triggers that the script makes. -/
def triggerNames (s : Scope) (p : Profile) : List String :=
  s.namesBehind p ["CREATE OR REPLACE TRIGGER "]

end Scope

/-! ## Numbered columns -/

theorem isIntegerTyped_iff {c : Column} :
    c.isIntegerTyped = true ↔ ∃ token ∈ c.dataType,
      ∃ word ∈ ["INT", "INTEGER"], Text.equalAsciiCase (Text.trim token) word := by
  unfold Column.isIntegerTyped
  cases c.dataType <;> simp

section Numbers

variable {p : Profile} {s : Scope} {t : Table} {c : Column}

theorem numbers_iff (hc : c ∈ t.columns) :
    t.Numbers c ↔
      (t.hasCompositeKey = false ∧ c.isPrimaryKey = true) ∧ c.isIntegerTyped = true := by
  have hmem : c ∈ t.primaryKeyColumns ↔ c.isPrimaryKey = true := by
    simp [Table.primaryKeyColumns, hc]
  have hsingle : t.hasCompositeKey = false ↔ t.primaryKeyColumns.length ≤ 1 := by
    simp [Table.hasCompositeKey]
  rw [Table.Numbers, ← isIntegerTyped_iff, ← hmem, hsingle]
  rcases t.primaryKeyColumns with _ | ⟨d, _ | ⟨e, keys⟩⟩
  · simp
  · simp [@eq_comm _ d c]
  · simp

theorem filter_numbers (t : Table) :
    t.columns.filter (t.Numbers ·) = t.numberedColumns := by
  have hiff : ∀ c ∈ t.columns, decide (t.Numbers c) =
      (!t.hasCompositeKey && c.isPrimaryKey && c.isIntegerTyped) := fun c hc => by
    rw [Bool.eq_iff_iff]
    simp [numbers_iff hc]
  rw [List.filter_congr hiff, Table.numberedColumns, Table.primaryKeyColumns, List.filter_filter]
  cases t.hasCompositeKey <;> simp [Bool.and_comm]

theorem length_numberedColumns_le (t : Table) : t.numberedColumns.length ≤ 1 := by
  rw [Table.numberedColumns]
  split
  · simp
  · rename_i hkey
    have hkeys : t.primaryKeyColumns.length ≤ 1 := by simpa [Table.hasCompositeKey] using hkey
    exact Nat.le_trans (List.length_filter_le _ _) hkeys

/-! ## Keywords and sequences -/

theorem columnsWith_keyword (hp : p ∈ Profile.all) {keyword : String}
    (h : keyword ∈ numberingWords) :
    p.columnsWith t keyword =
      if keyword ∈ p.numbering.keyword? then t.columns.filter (t.Numbers ·) else [] := by
  have hmarks : ∀ c ∈ t.columns,
      decide (keyword ∈ p.marks (!t.hasCompositeKey && c.isPrimaryKey) c) =
        (decide (keyword ∈ p.numbering.keyword?) && decide (t.Numbers c)) := fun c hc => by
    rw [Bool.eq_iff_iff]
    simp [Profile.numbering_mem_marks h, numbers_iff hc]
  rw [Profile.columnsWith_eq hp, List.filter_congr hmarks]
  by_cases hkeyword : keyword ∈ p.numbering.keyword? <;> simp [hkeyword]

theorem scope_columnsWith_keyword (hp : p ∈ Profile.all) {keyword : String}
    (h : keyword ∈ numberingWords) :
    s.columnsWith p keyword = if keyword ∈ p.numbering.keyword? then s.numbered else [] := by
  simp only [Scope.columnsWith, Scope.numbered, columnsWith_keyword hp h]
  split <;> simp

theorem sequenceColumns_eq_numbered (h : p.numbering = .sequenceTrigger) :
    s.sequenceColumns p = s.numbered := by
  simp only [Scope.sequenceColumns_eq, Scope.numbered, filter_numbers, Profile.sequencedColumns,
    if_pos h]

theorem sequences_eq (s : Scope) (p : Profile) : s.sequences p = s.sequenceColumns p := by
  rw [Scope.sequences, filterMap_statements]
  simp [Statement.sequence?]

theorem triggers_eq (s : Scope) (p : Profile) : s.triggers p = s.sequenceColumns p := by
  rw [Scope.triggers, filterMap_statements]
  simp [Statement.trigger?]

/-! ## Identifiers of sequences and triggers -/

/-- What stands in front of the identifiers of a trigger. -/
def triggerWords : List String :=
  ["CREATE OR REPLACE TRIGGER ", "\nBEFORE INSERT ON ", "\nFOR EACH ROW\nBEGIN\n  IF :NEW.",
    " IS NULL THEN\n    SELECT ", ".NEXTVAL INTO :NEW."]

theorem names_createSequence (hp : p ∈ Profile.all) :
    readIdentifiers p ["CREATE SEQUENCE "] ((Statement.createSequence t c).text p s).toList =
      some [p.fold (Statement.sequenceName t c)] := by
  have htext : ((Statement.createSequence t c).text p s).toList =
      withNames p ["CREATE SEQUENCE "] [Statement.sequenceName t c]
        " START WITH 1 INCREMENT BY 1;".toList := by
    unfold Statement.text Statement.createSequenceText
    simp only [withNames, String.toList_append, List.append_assoc]
  have hwords : ∀ q ∈ Profile.all, (∀ w ∈ ["CREATE SEQUENCE "], IsBetween q w) ∧
      " START WITH 1 INCREMENT BY 1;".toList.head? ≠ some q.closeQuote := by decide
  rw [htext]
  exact readIdentifiers_withNames ["CREATE SEQUENCE "] [Statement.sequenceName t c] rfl
    (hwords p hp).1 (hwords p hp).2

/-- A trigger is for its table, looks at its column, draws from its sequence and assigns what it has
drawn to its column. -/
theorem names_createTrigger (hp : p ∈ Profile.all) :
    readIdentifiers p triggerWords ((Statement.createTrigger t c).text p s).toList =
      some [p.fold (Statement.triggerName t c), p.fold t.name, p.fold c.name,
        p.fold (Statement.sequenceName t c), p.fold c.name] := by
  have htext : ((Statement.createTrigger t c).text p s).toList =
      withNames p triggerWords
        [Statement.triggerName t c, t.name, c.name, Statement.sequenceName t c, c.name]
        " FROM DUAL;\n  END IF;\nEND;\n/".toList := by
    -- The words between two identifiers are put together from the ends of lines.
    have hinsert : "\nBEFORE INSERT ON ".toList = "\n".toList ++ "BEFORE INSERT ON ".toList := by
      decide
    have hwhen : "\nFOR EACH ROW\nBEGIN\n  IF :NEW.".toList = "\n".toList ++
        ("FOR EACH ROW\n".toList ++ ("BEGIN\n".toList ++ "  IF :NEW.".toList)) := by decide
    have hselect : " IS NULL THEN\n    SELECT ".toList =
        " IS NULL THEN\n".toList ++ "    SELECT ".toList := by decide
    have hend : " FROM DUAL;\n  END IF;\nEND;\n/".toList = " FROM DUAL;\n".toList ++
        ("  END IF;\n".toList ++ ("END;\n".toList ++ "/".toList)) := by decide
    unfold Statement.text Statement.createTriggerText
    simp only [withNames, triggerWords, hinsert, hwhen, hselect, hend, String.toList_append,
      List.append_assoc]
  have hwords : ∀ q ∈ Profile.all, (∀ w ∈ triggerWords, IsBetween q w) ∧
      " FROM DUAL;\n  END IF;\nEND;\n/".toList.head? ≠ some q.closeQuote := by decide
  rw [htext]
  exact readIdentifiers_withNames triggerWords
    [Statement.triggerName t c, t.name, c.name, Statement.sequenceName t c, c.name] rfl
    (hwords p hp).1 (hwords p hp).2

/-! ## Names of sequences and triggers -/

theorem nameBehind?_of_readIdentifiers {words : String} {later : List String} {text name : String}
    {names : List String}
    (h : readIdentifiers p (words :: later) text.toList = some (name :: names)) :
    nameBehind? p [words] text = some name := by
  rw [readIdentifiers] at h
  rw [nameBehind?, readIdentifiers]
  split at h
  · cases h
  · split at h
    · cases h
    · obtain ⟨others, -, hnames⟩ := Option.map_eq_some_iff.mp h
      rw [(List.cons.inj hnames).1]
      rfl

theorem sequenceNames_eq (hp : p ∈ Profile.all) :
    s.sequenceNames p =
      (s.sequenceColumns p).map fun n => p.fold (Statement.sequenceName n.1 n.2) := by
  have hread : ∀ st n, Statement.sequence? st = some n →
      nameBehind? p ["CREATE SEQUENCE "] (st.readText p s) =
        some (p.fold (Statement.sequenceName n.1 n.2)) := by
    intro st n hn
    cases st <;> cases hn
    exact nameBehind?_of_readIdentifiers (names_createSequence (s := s) hp)
  rw [Scope.sequenceNames, namesBehind_eq hp (by decide) hread, ← sequences_eq, Scope.sequences]
  intro st
  cases st <;> simp [Statement.sequence?, Statement.opening]

theorem triggerNames_eq (hp : p ∈ Profile.all) :
    s.triggerNames p =
      (s.sequenceColumns p).map fun n => p.fold (Statement.triggerName n.1 n.2) := by
  have hread : ∀ st n, Statement.trigger? st = some n →
      nameBehind? p ["CREATE OR REPLACE TRIGGER "] (st.readText p s) =
        some (p.fold (Statement.triggerName n.1 n.2)) := by
    intro st n hn
    cases st <;> cases hn
    exact nameBehind?_of_readIdentifiers (names_createTrigger (s := s) hp)
  rw [Scope.triggerNames, namesBehind_eq hp (by decide) hread, ← triggers_eq, Scope.triggers]
  intro st
  cases st <;> simp [Statement.trigger?, Statement.opening]

/-- The same ending behind all names does not make them more alike. -/
theorem nodup_fold_append_iff (p : Profile) (ending : String) (names : List String) :
    (names.map fun name => p.fold (name ++ ending)).Nodup ↔ (names.map p.fold).Nodup := by
  have hinj : Function.Injective (· ++ p.fold ending) := fun a b h =>
    (String.append_left_inj _).mp h
  have hnames : (names.map fun name => p.fold (name ++ ending)) =
      (names.map p.fold).map (· ++ p.fold ending) := by
    rw [List.map_map]
    exact List.map_congr_left fun name _ => p.fold_append name ending
  rw [hnames, List.nodup_map_iff hinj]

/-! ## Blocks -/

/-- A block of a script, if it has statements. -/
def blockOf (banner : Option String) (separator : String) (statements : List Statement) :
    List Block :=
  if statements = [] then [] else [⟨banner, separator, statements⟩]

theorem filter_blocks (bs : List Block) :
    bs.filter (fun b => !b.statements.isEmpty) =
      bs.flatMap fun b => blockOf b.banner b.separator b.statements := by
  induction bs with
  | nil => rfl
  | cons b bs ih =>
    obtain ⟨banner, separator, statements⟩ := b
    cases statements <;> simp [blockOf, ih]

/-- The tables come first, then the sequences and the triggers, and the constraints last. -/
theorem blocks_eq (s : Scope) (h : p.headerStatements = []) :
    s.blocks p =
      s.tables.map (fun t => ⟨none, "\n", [.createTable t]⟩) ++
      blockOf (some "Sequences") "\n"
        ((s.sequenceColumns p).map fun n => .createSequence n.1 n.2) ++
      blockOf (some "Triggers") "\n\n"
        ((s.sequenceColumns p).map fun n => .createTrigger n.1 n.2) ++
      blockOf (some "Constraints") "\n" ((s.constraints p).map .addConstraint) := by
  have htables : (s.tables.map fun t => (⟨none, "\n", [.createTable t]⟩ : Block)).flatMap
      (fun b => blockOf b.banner b.separator b.statements) =
        s.tables.map fun t => ⟨none, "\n", [.createTable t]⟩ := by
    rw [List.flatMap_map, List.map_eq_flatMap]
    simp [blockOf]
  rw [Scope.blocks, filter_blocks, Scope.allBlocks, List.flatMap_append, List.flatMap_append,
    htables, h]
  simp [blockOf, Scope.constraints]

end Numbers

/-- Keywords and sequences are for the same columns, in the order of the model: those that are the
whole primary key of their table and have the type of a plain integer, of which a table has one at
most. In the script for Oracle each of them has a sequence and a trigger, whose names join the table
and the column. The trigger is for its table, draws from the sequence of this name and assigns to
its column. Names of sequences are distinct if and only if the joined texts are, and so are those of
triggers. All sequences stand behind the tables, all triggers behind the sequences and all
constraints behind the triggers, and if there is no such column, there are no blocks for sequences
and triggers. -/
theorem numbering_agrees (tables : List Table) :
    let s := Scope.ofTables tables
    let keywords := [(Profile.mySql, "AUTO_INCREMENT"), (.sqlite, "AUTOINCREMENT"),
      (.sqlServer, "IDENTITY(1,1)")]
    let joined (n : Table × Column) := n.1.name ++ "_" ++ n.2.name
    (∀ e ∈ keywords, s.columnsWith e.1 e.2 = s.numbered) ∧
    (∀ p ∈ Profile.all, ∀ keyword ∈ numberingWords, (p, keyword) ∉ keywords →
      s.columnsWith p keyword = []) ∧
    s.sequences .oracle = s.numbered ∧
    s.triggers .oracle = s.numbered ∧
    (∀ p ∈ Profile.all, p ≠ .oracle → s.sequences p = [] ∧ s.triggers p = []) ∧
    (∀ t ∈ s.tables, (t.columns.filter (t.Numbers ·)).length ≤ 1) ∧
    s.sequenceNames .oracle = s.numbered.map (fun n => Text.upper (joined n ++ "_SEQ")) ∧
    s.triggerNames .oracle = s.numbered.map (fun n => Text.upper (joined n ++ "_TRG")) ∧
    (∀ n ∈ s.numbered, readIdentifiers .oracle triggerWords
        ((Statement.createTrigger n.1 n.2).text .oracle s).toList =
      some [Text.upper (joined n ++ "_TRG"), Text.upper n.1.name, Text.upper n.2.name,
        Text.upper (joined n ++ "_SEQ"), Text.upper n.2.name]) ∧
    ((s.sequenceNames .oracle).Nodup ↔ (s.numbered.map fun n => Text.upper (joined n)).Nodup) ∧
    ((s.triggerNames .oracle).Nodup ↔ (s.numbered.map fun n => Text.upper (joined n)).Nodup) ∧
    s.blocks .oracle =
      s.tables.map (fun t => ⟨none, "\n", [.createTable t]⟩) ++
      blockOf (some "Sequences") "\n" (s.numbered.map fun n => .createSequence n.1 n.2) ++
      blockOf (some "Triggers") "\n\n" (s.numbered.map fun n => .createTrigger n.1 n.2) ++
      blockOf (some "Constraints") "\n" ((s.constraints .oracle).map .addConstraint) := by
  intro s keywords joined
  have hp : Profile.oracle ∈ Profile.all := by decide
  have horacle : s.sequenceColumns .oracle = s.numbered := sequenceColumns_eq_numbered rfl
  have hsequences : s.sequenceNames .oracle =
      s.numbered.map fun n => Text.upper (joined n ++ "_SEQ") := by
    rw [sequenceNames_eq hp, horacle]
    rfl
  have htriggers : s.triggerNames .oracle =
      s.numbered.map fun n => Text.upper (joined n ++ "_TRG") := by
    rw [triggerNames_eq hp, horacle]
    rfl
  have hnodup (ending : String) : (s.numbered.map fun n => Text.upper (joined n ++ ending)).Nodup ↔
      (s.numbered.map fun n => Text.upper (joined n)).Nodup := by
    have hiff := nodup_fold_append_iff .oracle ending (s.numbered.map joined)
    rwa [List.map_map, List.map_map] at hiff
  refine ⟨fun e he => ?_, fun p hp keyword hkeyword hother => ?_, ?_, ?_, fun p hp hne => ?_,
    fun t ht => ?_, hsequences, htriggers, fun n hn => names_createTrigger hp, ?_, ?_, ?_⟩
  · have hkeywords : ∀ e ∈ keywords,
        e.1 ∈ Profile.all ∧ e.2 ∈ numberingWords ∧ e.2 ∈ e.1.numbering.keyword? := by decide
    obtain ⟨hall, hword, hkeyword⟩ := hkeywords e he
    rw [scope_columnsWith_keyword hall hword, if_pos hkeyword]
  · have hkeywords : ∀ q ∈ Profile.all, ∀ word ∈ numberingWords, (q, word) ∉ keywords →
        word ∉ q.numbering.keyword? := by decide
    rw [scope_columnsWith_keyword hp hkeyword, if_neg (hkeywords p hp keyword hkeyword hother)]
  · rw [sequences_eq, horacle]
  · rw [triggers_eq, horacle]
  · have hnumbering : ∀ q ∈ Profile.all, q ≠ .oracle → q.numbering ≠ .sequenceTrigger := by decide
    have hnone : s.sequenceColumns p = [] := if_neg (hnumbering p hp hne)
    rw [sequences_eq, triggers_eq, hnone]
    exact ⟨rfl, rfl⟩
  · rw [filter_numbers]
    exact length_numberedColumns_le t
  · rw [hsequences, hnodup]
  · rw [htriggers, hnodup]
  · rw [blocks_eq s rfl, horacle]

/-- A key with blanks around its type, a key of two columns, and one whose type has a parameter. -/
def countedTables : List Table :=
  let key (name token : String) : Column :=
    { Column.untyped name with dataType := some token, isPrimaryKey := true }
  [.withColumns "node" [.typed "rank" "INT", key "id" " Integer\n"],
    .withColumns "edge" [key "start" "INT", key "end" "INT"],
    .withColumns "mark" [key "id" "INT(11)"], .withColumns "node_id" [key "no" "int"]]

theorem numbering_agrees_countedTables :
    let s := Scope.ofTables countedTables
    let node := countedTables.head (by decide)
    let id := node.columns.getLast (by decide)
    let keywords := [(Profile.mySql, "AUTO_INCREMENT"), (.sqlite, "AUTOINCREMENT"),
      (.sqlServer, "IDENTITY(1,1)")]
    (Profile.sqlite, "AUTOINCREMENT") ∈ keywords ∧ node ∈ s.tables ∧ (node, id) ∈ s.numbered ∧
    s.columnsWith .sqlite "AUTOINCREMENT" = s.numbered ∧
    Profile.postgreSql ∈ Profile.all ∧ "IDENTITY(1,1)" ∈ numberingWords ∧
    (Profile.postgreSql, "IDENTITY(1,1)") ∉ keywords ∧
    s.columnsWith .postgreSql "IDENTITY(1,1)" = [] ∧
    s.triggers .oracle = s.numbered ∧ Profile.postgreSql ≠ .oracle ∧
    s.sequences .postgreSql = [] ∧ (node.columns.filter (node.Numbers ·)).length ≤ 1 ∧
    s.sequenceNames .oracle = ["NODE_ID_SEQ", "NODE_ID_NO_SEQ"] ∧
    (s.sequenceNames .oracle).Nodup ∧
    readIdentifiers .oracle triggerWords ((Statement.createTrigger node id).text .oracle s).toList =
      some ["NODE_ID_TRG", "NODE", "ID", "NODE_ID_SEQ", "ID"] := by
  intro s node id keywords
  have hsqlite : (Profile.sqlite, "AUTOINCREMENT") ∈ keywords := by decide
  have hnode : node ∈ s.tables := by decide
  have hid : (node, id) ∈ s.numbered := by decide +kernel
  have hall : Profile.postgreSql ∈ Profile.all := by decide
  have hword : "IDENTITY(1,1)" ∈ numberingWords := by decide
  have hother : (Profile.postgreSql, "IDENTITY(1,1)") ∉ keywords := by decide
  have hdialect : Profile.postgreSql ≠ .oracle := by decide
  obtain ⟨hkeyword, hnone, -, htriggers, hsequences, hsole, hnames, -, hreads, hnodup, -⟩ :=
    numbering_agrees countedTables
  have hread := (hreads (node, id) hid).trans
    (show _ = some ["NODE_ID_TRG", "NODE", "ID", "NODE_ID_SEQ", "ID"] by decide +kernel)
  refine ⟨hsqlite, hnode, hid, hkeyword (.sqlite, "AUTOINCREMENT") hsqlite, hall, hword, hother,
    hnone _ hall _ hword hother, htriggers, hdialect, (hsequences _ hall hdialect).1,
    hsole node hnode, ?_, hnodup.mpr (by decide +kernel), hread⟩
  exact hnames.trans (by decide +kernel)

/-- The table and the column of both keys join to the same text. -/
def joinedTables : List Table :=
  [.withColumns "a_b" [(Column.typed "c" "INT").primaryKey],
    .withColumns "a" [(Column.typed "b_c" "INT").primaryKey]]

/-- Two sequences of a clean model have the same name, as have two triggers, and each trigger draws
from the sequence of this name. -/
theorem sequence_names_clash :
    let s := Scope.ofTables joinedTables
    (Review.reportOn joinedTables).isClean = true ∧
    s.numbered.map (fun n => (n.1.name, n.2.name)) = [("a_b", "c"), ("a", "b_c")] ∧
    s.sequenceNames .oracle = ["A_B_C_SEQ", "A_B_C_SEQ"] ∧
    s.triggerNames .oracle = ["A_B_C_TRG", "A_B_C_TRG"] ∧
    ∀ n ∈ s.numbered, readIdentifiers .oracle triggerWords
        ((Statement.createTrigger n.1 n.2).text .oracle s).toList =
      some ["A_B_C_TRG", Text.upper n.1.name, Text.upper n.2.name, "A_B_C_SEQ",
        Text.upper n.2.name] := by
  intro s
  have hp : Profile.oracle ∈ Profile.all := by decide
  have hsequences : s.sequenceNames .oracle = ["A_B_C_SEQ", "A_B_C_SEQ"] :=
    (sequenceNames_eq hp).trans (by decide +kernel)
  have htriggers : s.triggerNames .oracle = ["A_B_C_TRG", "A_B_C_TRG"] :=
    (triggerNames_eq hp).trans (by decide +kernel)
  have hnames : ∀ n ∈ s.numbered,
      [Profile.oracle.fold (Statement.triggerName n.1 n.2), Profile.oracle.fold n.1.name,
        Profile.oracle.fold n.2.name, Profile.oracle.fold (Statement.sequenceName n.1 n.2),
        Profile.oracle.fold n.2.name] =
      ["A_B_C_TRG", Text.upper n.1.name, Text.upper n.2.name, "A_B_C_SEQ",
        Text.upper n.2.name] := by decide +kernel
  refine ⟨by decide +kernel, by decide +kernel, hsequences, htriggers, fun n hn => ?_⟩
  rw [names_createTrigger hp, hnames n hn]

end SchemaScript

import SchemaScript.Proofs.Script.Phrase
import SchemaScript.Proofs.Script.Statements

/-!
# SchemaScript.Proofs.Script.Integrity

Scripts are read back as the statements that they were made of, whatever names, descriptions and
default values the model has.

* `IsStatement`: a text that is a phrase with a semicolon; each of the intended statements is one
  (`isStatement_tableText`, `isStatement_constraint`).
* `Holds p cs texts`: the text `cs` holds exactly the statements `texts`. This passes from the parts
  of a script to the script, with comments and line feeds in between (`Holds.append`,
  `Holds.gap_append`, `holds_intercalate`).
* `readScript_scriptText`: the statements of a script are those of the header, the tables and the
  constraints.
-/

namespace SchemaScript

section Statements

variable {p : Profile}

/-- The lexemes of a statement without its semicolon. -/
def lexemesOf (p : Profile) (text : String) : List Lexeme :=
  ((lex p .outside text.toList).getD []).dropLast

/-- The text is one statement: no comment, one semicolon outside of quotes, and that at its end. -/
structure IsStatement (p : Profile) (text : String) : Prop where
  readsAs : ReadsAs p text.toList (lexemesOf p text ++ [.char ';'])
  inner : ∀ l ∈ lexemesOf p text, l.IsInner
  start : ∀ l ∈ (lexemesOf p text).head?, l.isBlank = false

theorem isStatement_of_phrase (hp : p.IsReadable) {text : String} {cs : List Char}
    (ht : text.toList = cs ++ [';']) (h : IsPhrase p cs)
    (hstart : ∃ c rest, cs = c :: rest ∧ Text.isBlank c = false) : IsStatement p text := by
  obtain ⟨ls, hls, hinner⟩ := h
  have hreads : ReadsAs p text.toList (ls ++ [.char ';']) := by
    rw [ht]
    exact hls.append (readsAs_semicolon hp) (apart_semicolon hp [])
  have hof : lexemesOf p text = ls := by
    rw [lexemesOf, hreads.lex_eq]
    simp
  refine ⟨by rwa [hof], by rwa [hof], ?_⟩
  rw [hof]
  intro l hl
  cases ls with
  | nil => cases hl
  | cons l' ls =>
    cases hl
    have hchars := hls.flatMap_chars
    cases l with
    | char d =>
      obtain ⟨c, rest, hcs, hc⟩ := hstart
      rw [hcs] at hchars
      have hdc : d = c := (List.cons.inj hchars).1
      rwa [hdc]
    | comment text => rfl
    | quoted kind text => rfl

theorem IsStatement.statementText {text : String} (h : IsStatement p text) :
    statementText p (lexemesOf p text) = text := by
  have hchars := h.readsAs.flatMap_chars
  rw [List.flatMap_append] at hchars
  rw [SchemaScript.statementText, ← String.toList_inj, String.toList_ofList, ← hchars]
  rfl

theorem isStatement_header (hp : p.IsReadable) {header : String}
    (h : header ∈ p.headerStatements) : IsStatement p header := by
  obtain ⟨body, rfl, hbody, hstart⟩ := hp.headerStatements_ordinary header h
  exact isStatement_of_phrase hp (String.toList_append ..) (isPhrase_ordinary hp hbody) hstart

theorem toList_statement (c : Constraint) :
    (c.statement p).toList = "ALTER TABLE ".toList ++ ((p.quote c.table).toList ++
      (" ADD CONSTRAINT ".toList ++ ((p.quote c.name).toList ++ (" ".toList ++
        (c.clause p).toList)))) ++ [';'] := by
  unfold Constraint.statement
  simp only [String.toList_append, List.append_assoc]
  rfl

theorem isStatement_constraint (hp : p.IsReadable) (c : Constraint) :
    IsStatement p (c.statement p) := by
  refine isStatement_of_phrase hp (toList_statement c) ?_ ⟨'A', _, rfl, by decide⟩
  refine .ordinary_append hp (by decide) (.join hp (isPhrase_quote hp _) (by decide) (by decide) ?_)
  exact .join hp (isPhrase_quote hp _) (by decide) (by decide) (isPhrase_clause hp c)

/-- What follows the name in the statement of a table. -/
def tableRest (p : Profile) (s : Scope) (t : Table) : List Char :=
  " (\n".toList ++ (",\n".toList.intercalate
    ((Statement.tableBody p s t).map fun line => "  ".toList ++ line.toList) ++
      ("\n)".toList ++ p.tableSuffix.toList))

theorem toList_tableText (s : Scope) (t : Table) :
    (Statement.tableText p s t).toList =
      "CREATE TABLE ".toList ++ ((p.quote t.name).toList ++ tableRest p s t) ++ [';'] := by
  unfold Statement.tableText
  simp only [String.toList_append, String.toList_intercalate, tableRest, List.append_assoc,
    List.map_map, Function.comp_def]
  rfl

theorem isPhrase_tableRest (hp : p.IsReadable) (s : Scope) {t : Table}
    (ht : ∀ c ∈ t.columns, c.HasPlainType) : IsPhrase p (tableRest p s t) := by
  unfold tableRest
  refine .ordinary_append hp (by decide) (.append_ordinary hp ?_ ?_)
  · refine isPhrase_intercalate hp (by decide) (by decide) fun cs hcs => ?_
    obtain ⟨line, hline, rfl⟩ := List.mem_map.mp hcs
    exact .ordinary_append hp (by decide) (isPhrase_tableBody hp s ht line hline)
  · intro c hc
    rcases List.mem_append.mp hc with h | h
    · exact (by decide : IsOrdinary "\n)".toList) c h
    · exact hp.tableSuffix_ordinary c h

theorem apart_tableRest (hp : p.IsReadable) (s : Scope) (t : Table) :
    Apart p (tableRest p s t) :=
  apart_of_ordinary hp (c := ' ') (by decide) _

theorem isStatement_tableText (hp : p.IsReadable) (s : Scope) {t : Table}
    (ht : ∀ c ∈ t.columns, c.HasPlainType) : IsStatement p (Statement.tableText p s t) := by
  refine isStatement_of_phrase hp (toList_tableText s t) ?_ ⟨'C', _, rfl, by decide⟩
  refine .ordinary_append hp (by decide) ?_
  exact (isPhrase_quote hp t.name).append (isPhrase_tableRest hp s ht) (apart_tableRest hp s t)

/-- The first identifier of the statement of a table is the name of the table. -/
theorem firstIdentifier?_tableText (hp : p.IsReadable) (s : Scope) {t : Table}
    (ht : ∀ c ∈ t.columns, c.HasPlainType) :
    firstIdentifier? (lexemesOf p (Statement.tableText p s t)) = some (p.fold t.name).toList := by
  obtain ⟨ls, hls, -⟩ := isPhrase_tableRest hp s ht
  have hreads : ReadsAs p (Statement.tableText p s t).toList
      ("CREATE TABLE ".toList.map .char ++
        (.quoted .identifier (p.fold t.name).toList :: ls) ++ [.char ';']) := by
    rw [toList_tableText]
    refine .append (.ordinary_append hp (by decide) ?_) (readsAs_semicolon hp)
      (apart_semicolon hp [])
    rw [toList_quote]
    exact (readsAs_quoted hp .identifier _).append hls (apart_tableRest hp s t)
  rw [lexemesOf, hreads.lex_eq, Option.getD_some, List.dropLast_concat]
  rfl

end Statements

/-! ## From statements to scripts -/

section Scripts

variable {p : Profile}

/-- A text of comments and white space, which may stand in front of anything. -/
def IsGap (p : Profile) (g : List Char) : Prop :=
  ∃ ls : List Lexeme, (∀ l ∈ ls, l.isComment = true ∨ l.isBlank = true) ∧
    ∀ rest, lex p .outside (g ++ rest) = (lex p .outside rest).map (ls ++ ·)

/-- The text holds the given statements and nothing behind the last one. -/
def Holds (p : Profile) (cs : List Char) (texts : List String) : Prop :=
  ∃ ls, ReadsAs p cs ls ∧ readStatements ls = (texts.map (lexemesOf p), [])

theorem isGap_lineFeeds (hp : p.IsReadable) (n : Nat) : IsGap p (List.replicate n '\n') := by
  refine ⟨(List.replicate n '\n').map .char, fun l hl => ?_, fun rest => lex_ordinary hp ?_ rest⟩
  · obtain ⟨c, hc, rfl⟩ := List.mem_map.mp hl
    rw [List.eq_of_mem_replicate hc]
    exact .inr (by decide)
  · intro c hc
    rw [List.eq_of_mem_replicate hc]
    decide

theorem isGap_comment {text : List Char} (ht : '\n' ∉ text) :
    IsGap p ('-' :: '-' :: text ++ ['\n']) := by
  refine ⟨[.comment text, .char '\n'], fun l hl => ?_, fun rest => ?_⟩
  · simp only [List.mem_cons, List.not_mem_nil, or_false] at hl
    rcases hl with rfl | rfl
    · exact .inl rfl
    · exact .inr (by decide)
  · simpa [lex] using lex_comment (p := p) text ht [] rest

theorem IsGap.append {g h : List Char} (hg : IsGap p g) (hh : IsGap p h) : IsGap p (g ++ h) := by
  obtain ⟨ls, hls, hg⟩ := hg
  obtain ⟨ms, hms, hh⟩ := hh
  refine ⟨ls ++ ms, fun l hl => ?_, fun rest => ?_⟩
  · rcases List.mem_append.mp hl with h | h
    · exact hls l h
    · exact hms l h
  · rw [List.append_assoc, hg, hh, Option.map_map]
    congr 1
    funext ks
    simp

theorem isGap_flatten {gs : List (List Char)} (h : ∀ g ∈ gs, IsGap p g) : IsGap p gs.flatten := by
  induction gs with
  | nil => exact ⟨[], nofun, fun rest => by simp⟩
  | cons g gs ih =>
    rw [List.flatten_cons]
    exact (h g (by simp)).append (ih fun g hg => h g (by simp [hg]))

theorem holds_nil : Holds p [] [] :=
  ⟨[], readsAs_nil, rfl⟩

theorem IsStatement.holds {text : String} (h : IsStatement p text) :
    Holds p text.toList [text] := by
  refine ⟨_, h.readsAs, ?_⟩
  simp only [readStatements]
  rw [splitStatements_concat fun l hl => (h.inner l hl).2]
  simp [bare_eq_self (fun l hl => (h.inner l hl).1) h.start]

theorem Holds.append {cs ds : List Char} {ts us : List String} (hc : Holds p cs ts)
    (hd : Holds p ds us) (ha : Apart p ds) : Holds p (cs ++ ds) (ts ++ us) := by
  obtain ⟨ls, hls, hts⟩ := hc
  obtain ⟨ms, hms, hus⟩ := hd
  refine ⟨ls ++ ms, hls.append hms ha, ?_⟩
  rw [readStatements_append (by rw [hts]), hts, hus, List.map_append]

theorem readStatements_gap {gap ls : List Lexeme}
    (hg : ∀ l ∈ gap, l.isComment = true ∨ l.isBlank = true) (hls : (readStatements ls).1 ≠ []) :
    readStatements (gap ++ ls) = readStatements ls := by
  induction gap with
  | nil => rfl
  | cons l gap ih =>
    have h := ih fun l hl => hg l (by simp [hl])
    rw [List.cons_append, readStatements_cons (hg l (by simp)) (by rwa [h]), h]

/-- A gap in front of statements leaves them as they are. -/
theorem Holds.gap_append {g cs : List Char} {ts : List String} (hg : IsGap p g)
    (hc : Holds p cs ts) (hne : ts ≠ []) : Holds p (g ++ cs) ts := by
  obtain ⟨gap, hgap, hg⟩ := hg
  obtain ⟨ls, hls, hts⟩ := hc
  refine ⟨gap ++ ls, fun rest hr => ?_, ?_⟩
  · rw [List.append_assoc, hg, hls rest hr, Option.map_map]
    congr 1
    funext ks
    simp
  · rw [readStatements_gap hgap (by rw [hts]; simpa using hne), hts]

/-- Parts with line feeds between them. -/
theorem holds_intercalate (hp : p.IsReadable) {ι : Type} (n : Nat) (text : ι → String)
    (statements : ι → List String) (items : List ι)
    (h : ∀ i ∈ items, Holds p (text i).toList (statements i) ∧ statements i ≠ []) :
    Holds p ((List.replicate (n + 1) '\n').intercalate (items.map fun i => (text i).toList))
      (items.flatMap statements) := by
  induction items with
  | nil => exact holds_nil
  | cons i items ih =>
    have hi := (h i (by simp)).1
    have hitems := ih fun j hj => h j (by simp [hj])
    cases items with
    | nil => simpa using hi
    | cons j items =>
      rw [List.map_cons, List.map_cons, List.intercalate_cons_cons, List.append_assoc,
        List.flatMap_cons]
      refine hi.append (.gap_append (isGap_lineFeeds hp (n + 1)) hitems ?_) ?_
      · simp [(h j (by simp)).2]
      · exact apart_of_ordinary hp (c := '\n') (by decide) _

/-! ## The script of a model -/

theorem isGap_commentText (description : String) :
    IsGap p (Statement.commentText description).toList := by
  rw [Statement.commentText, String.toList_join, List.flatMap_map]
  refine isGap_flatten fun g hg => ?_
  obtain ⟨line, hline, rfl⟩ := List.mem_map.mp hg
  obtain ⟨cs, hcs, rfl⟩ := List.mem_map.mp hline
  have hspace : '\n' ∉ ' ' :: Text.trimEndChars cs := by
    rintro (_ | ⟨_, h⟩)
    exact Text.not_mem_of_mem_lineChars hcs (Text.mem_of_mem_trimEndChars h)
  have htext : ("-- " ++ Text.trimEnd (String.ofList cs) ++ "\n").toList =
      '-' :: '-' :: (' ' :: Text.trimEndChars cs) ++ ['\n'] := by
    simp [Text.trimEnd]
  rw [htext]
  exact isGap_comment hspace

theorem isGap_descriptionText (t : Table) : IsGap p (Statement.descriptionText t).toList := by
  unfold Statement.descriptionText
  split
  · exact isGap_commentText _
  · exact ⟨[], nofun, fun rest => by simp⟩

/-- What is read of a statement: all of it but the description of a table. -/
def Statement.readText (p : Profile) (s : Scope) : Statement → String
  | .createTable t => tableText p s t
  | st => st.text p s

/-- The statements of the script of a dialect that needs no triggers. -/
def Scope.plainStatements (s : Scope) (p : Profile) : List Statement :=
  p.headerStatements.map .header ++ s.tables.map .createTable ++
    (s.tables.flatMap (p.deferredConstraints s)).map .addConstraint

theorem flatMap_statements_blocks (s : Scope) (hn : p.numbering ≠ .sequenceTrigger) :
    (s.blocks p).flatMap (·.statements) = s.plainStatements p := by
  have hstatements := Scope.statements_eq (s := s) (p := p)
  rw [Scope.statements] at hstatements
  rw [hstatements]
  simp [Scope.definitions, Scope.plainStatements, Scope.sequenceColumns, hn]

theorem isStatement_readText (hp : p.IsReadable) {s : Scope}
    (ht : ∀ t ∈ s.tables, ∀ c ∈ t.columns, c.HasPlainType) {st : Statement}
    (hst : st ∈ s.plainStatements p) : IsStatement p (st.readText p s) := by
  simp only [Scope.plainStatements, List.mem_append, List.mem_map] at hst
  rcases hst with (⟨header, hh, rfl⟩ | ⟨t, hmem, rfl⟩) | ⟨c, -, rfl⟩
  · exact isStatement_header hp hh
  · exact isStatement_tableText hp s (ht t hmem)
  · exact isStatement_constraint hp c

theorem holds_statement (hp : p.IsReadable) {s : Scope}
    (ht : ∀ t ∈ s.tables, ∀ c ∈ t.columns, c.HasPlainType) {st : Statement}
    (hst : st ∈ s.plainStatements p) : Holds p (st.text p s).toList [st.readText p s] := by
  have h := (isStatement_readText hp ht hst).holds
  cases st with
  | createTable t =>
    rw [Statement.text, Statement.createTableText, String.toList_append]
    exact h.gap_append (isGap_descriptionText t) (by simp)
  | header => exact h
  | createSequence => exact h
  | createTrigger => exact h
  | addConstraint => exact h

theorem holds_block (hp : p.IsReadable) {s : Scope}
    (ht : ∀ t ∈ s.tables, ∀ c ∈ t.columns, c.HasPlainType) {b : Block} (n : Nat)
    (hsep : b.separator.toList = List.replicate (n + 1) '\n')
    (hbanner : ∀ banner ∈ b.banner, '\n' ∉ banner.toList) (hne : b.statements ≠ [])
    (hst : ∀ st ∈ b.statements, st ∈ s.plainStatements p) :
    Holds p (b.text p s).toList (b.statements.map (·.readText p s)) := by
  have hbody := holds_intercalate hp n (fun st => Statement.text p s st)
    (fun st => [Statement.readText p s st]) b.statements fun st hmem =>
      ⟨holds_statement hp ht (hst st hmem), by simp⟩
  rw [← List.map_eq_flatMap] at hbody
  rw [Block.text, String.toList_append, String.toList_intercalate, hsep, List.map_map]
  refine hbody.gap_append ?_ (by simpa using hne)
  cases hb : b.banner with
  | none => exact ⟨[], nofun, fun rest => by simp⟩
  | some banner =>
    have hspace : '\n' ∉ ' ' :: banner.toList := by
      rintro (_ | ⟨_, h⟩)
      exact hbanner banner hb h
    have htext : ("-- " ++ banner ++ "\n").toList =
        '-' :: '-' :: (' ' :: banner.toList) ++ ['\n'] := by
      simp
    rw [htext]
    exact isGap_comment hspace

/-- All blocks have line feeds between their statements, and banners of one line. -/
theorem block_form {s : Scope} {b : Block} (hb : b ∈ s.allBlocks p) :
    (∃ n, b.separator.toList = List.replicate (n + 1) '\n') ∧
      ∀ banner ∈ b.banner, '\n' ∉ banner.toList := by
  have hone : "\n".toList = List.replicate 1 '\n' := by decide
  have htwo : "\n\n".toList = List.replicate 2 '\n' := by decide
  simp only [Scope.allBlocks, List.mem_append, List.mem_map, List.mem_cons, List.not_mem_nil,
    or_false] at hb
  rcases hb with (rfl | ⟨t, -, rfl⟩) | rfl | rfl | rfl
  · exact ⟨⟨0, hone⟩, by simp⟩
  · exact ⟨⟨0, hone⟩, by simp⟩
  · exact ⟨⟨0, hone⟩, by simp⟩
  · exact ⟨⟨1, htwo⟩, by simp⟩
  · exact ⟨⟨0, hone⟩, by simp⟩

/-- The blocks of a script hold the statements of the script. -/
theorem holds_blocks (hp : p.IsReadable) (hn : p.numbering ≠ .sequenceTrigger) {s : Scope}
    (ht : ∀ t ∈ s.tables, ∀ c ∈ t.columns, c.HasPlainType) :
    Holds p (String.intercalate "\n\n" ((s.blocks p).map (·.text p s))).toList
      ((s.plainStatements p).map (·.readText p s)) := by
  have hblocks := holds_intercalate hp 1 (fun b => Block.text p s b)
    (fun b => b.statements.map (·.readText p s)) (s.blocks p) fun b hb => by
      obtain ⟨hall, hne⟩ := List.mem_filter.mp hb
      have hne : b.statements ≠ [] := by simpa using hne
      obtain ⟨⟨n, hsep⟩, hbanner⟩ := block_form hall
      refine ⟨holds_block hp ht n hsep hbanner hne fun st hst => ?_, by simpa using hne⟩
      rw [← flatMap_statements_blocks s hn]
      exact List.mem_flatMap.mpr ⟨b, hb, hst⟩
  rw [← List.map_flatMap, flatMap_statements_blocks s hn] at hblocks
  rw [String.toList_intercalate, List.map_map]
  exact hblocks

theorem readScript_eq (hp : p.IsReadable) (hn : p.numbering ≠ .sequenceTrigger) {s : Scope}
    (ht : ∀ t ∈ s.tables, ∀ c ∈ t.columns, c.HasPlainType) :
    readScript p (s.scriptText p) =
      some ((s.plainStatements p).map fun st => lexemesOf p (st.readText p s), [.char '\n']) := by
  obtain ⟨ls, hls, hread⟩ := holds_blocks hp hn ht
  have hend : ReadsAs p "\n".toList [.char '\n'] := readsAs_ordinary hp (by decide)
  have hscript : ReadsAs p (s.scriptText p).toList (ls ++ [.char '\n']) := by
    rw [Scope.scriptText, String.toList_append]
    exact hls.append hend (apart_of_ordinary hp (c := '\n') (by decide) [])
  rw [readScript, hscript.lex_eq, Option.map_some, readStatements_append (by rw [hread]), hread]
  simp [readStatements, splitStatements, Function.comp_def]

end Scripts

/-- Whatever names, descriptions and default values hold, a script is read as its statements: those
of the header, one for each table, the constraints, and behind them nothing but white space. The
first identifier of the statement of a table is the name of the table. -/
theorem readScript_scriptText {p : Profile}
    (hp : p ∈ [Profile.postgreSql, .mySql, .sqlite, .sqlServer]) (tables : List Table)
    (ht : ∀ t ∈ tables, ∀ c ∈ t.columns, c.HasPlainType) :
    let s := Scope.ofTables tables
    ∃ statements last,
      readScript p (s.scriptText p) = some (statements, last) ∧
      statements.map (statementText p) =
        p.headerStatements ++ s.tables.map (Statement.tableText p s) ++
          s.tables.flatMap (fun t => (p.deferredConstraints s t).map (·.statement p)) ∧
      (∀ i, (h : i < s.tables.length) →
        statements[p.headerStatements.length + i]?.bind firstIdentifier? =
          some s.tables[i].name.toList) ∧
      ∀ l ∈ last, l.isBlank = true := by
  intro s
  have hread : p.IsReadable := isReadable_of_mem (by
    simp only [List.mem_cons, List.not_mem_nil, or_false] at hp
    rcases hp with rfl | rfl | rfl | rfl <;> decide)
  have hn : p.numbering ≠ .sequenceTrigger := by
    simp only [List.mem_cons, List.not_mem_nil, or_false] at hp
    rcases hp with rfl | rfl | rfl | rfl <;> decide
  have hfold (name : String) : p.fold name = name := by
    simp only [List.mem_cons, List.not_mem_nil, or_false] at hp
    rcases hp with rfl | rfl | rfl | rfl <;> rfl
  have hplain : ∀ t ∈ s.tables, ∀ c ∈ t.columns, c.HasPlainType :=
    fun t hmem => ht t (List.mem_filter.mp hmem).1
  refine ⟨_, _, readScript_eq hread hn hplain, ?_, ?_, by decide⟩
  · rw [List.map_map]
    calc (s.plainStatements p).map (statementText p ∘ fun st => lexemesOf p (st.readText p s))
      _ = (s.plainStatements p).map (·.readText p s) :=
        List.map_congr_left fun st hst => (isStatement_readText hread hplain hst).statementText
      _ = _ := by
        simp [Scope.plainStatements, Statement.readText, Statement.text, List.map_flatMap,
          Function.comp_def]
  · intro i h
    have hi : (s.plainStatements p)[p.headerStatements.length + i]? =
        some (.createTable s.tables[i]) := by
      rw [Scope.plainStatements, List.append_assoc, List.getElem?_append_right (by simp)]
      simp [List.getElem?_append_left, h]
    rw [List.getElem?_map, hi]
    have hname := firstIdentifier?_tableText hread s (hplain s.tables[i] (List.getElem_mem h))
    simpa [Statement.readText, hfold] using hname

/-- A table whose texts are made of the marks that scripts give a meaning to. -/
def markedTable : Table :=
  ⟨"a];--'\n", some "it's; [\n-- ';", [
    ⟨"]];'", some "VARCHAR(10, 2)", true, false, none, false, some "';--\n", none⟩,
    ⟨"--", some "INT", false, true, none, true, some ";", some ⟨"a];--'\n", "]];'", .oneToOne⟩⟩]⟩

theorem readScript_scriptText_marked :
    let s := Scope.ofTables [markedTable]
    ∃ statements last,
      readScript .sqlServer (s.scriptText .sqlServer) = some (statements, last) ∧
      statements.map (statementText .sqlServer) =
        Profile.sqlServer.headerStatements ++ s.tables.map (Statement.tableText .sqlServer s) ++
          s.tables.flatMap (fun t =>
            (Profile.sqlServer.deferredConstraints s t).map (·.statement .sqlServer)) ∧
      (∀ i, (h : i < s.tables.length) →
        statements[Profile.sqlServer.headerStatements.length + i]?.bind firstIdentifier? =
          some s.tables[i].name.toList) ∧
      ∀ l ∈ last, l.isBlank = true :=
  readScript_scriptText (by decide) [markedTable] (by decide)

end SchemaScript

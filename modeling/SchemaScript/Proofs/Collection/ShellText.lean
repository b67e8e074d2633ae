import SchemaScript.Proofs.Collection.CommandText

/-!
# SchemaScript.Proofs.Collection.ShellText

Shell scripts are read as the commands that they are made for (`readShell_shellText`): whatever
names, descriptions, types and default values hold, there is one command that creates a collection,
one that inserts a document, and one for each reference, and nothing else.

`HoldsCommands` says of a piece of the script which commands it holds between comments and white
space. Blocks are such pieces, and scripts are put together from them.
-/

namespace SchemaScript

/-! ## Pieces of a script -/

/-- Between two commands, the text is read as the given commands. -/
def HoldsCommands (cs : List Char) (commands : List ShellCommand) : Prop :=
  ∃ texts, texts.map ShellCommand.ofChars? = commands.map some ∧
    ∀ rest, commandTexts .outside [] [] (cs ++ rest) =
      (commandTexts .outside [] [] rest).map (texts ++ ·)

namespace HoldsCommands

theorem nil : HoldsCommands [] [] :=
  ⟨[], rfl, fun rest => by simp⟩

theorem append {cs ds : List Char} {commands commands' : List ShellCommand}
    (hcs : HoldsCommands cs commands) (hds : HoldsCommands ds commands') :
    HoldsCommands (cs ++ ds) (commands ++ commands') := by
  obtain ⟨texts, htexts, hcs⟩ := hcs
  obtain ⟨texts', htexts', hds⟩ := hds
  refine ⟨texts ++ texts', by simp [htexts, htexts'], fun rest => ?_⟩
  rw [List.append_assoc, hcs, hds, Option.map_map]
  congr 1
  funext ts
  simp

theorem additive : Text.Additive HoldsCommands :=
  ⟨nil, append⟩

theorem feed : HoldsCommands ['\n'] [] := by
  refine ⟨[], rfl, fun rest => ?_⟩
  rw [List.singleton_append, commandTexts, if_neg (by simp), if_neg (by decide),
    if_neg (by decide)]
  simp [awaitedBehind, closingOf?, keep, Json.isSpace]

/-- A comment holds no command, whatever its text. -/
theorem comment {text : List Char} (htext : '\n' ∉ text) :
    HoldsCommands ('/' :: '/' :: (text ++ ['\n'])) [] := by
  have hcomment (rest : List Char) : commandTexts .comment [] [] (text ++ '\n' :: rest) =
      commandTexts .outside [] [] rest := by
    induction text with
    | nil => rw [List.nil_append, commandTexts, if_pos rfl]; rfl
    | cons c text ih =>
      have hc : c ≠ '\n' := fun h => htext (by simp [h])
      rw [List.cons_append, commandTexts, if_neg hc, ih fun h => htext (by simp [h])]
  refine ⟨[], rfl, fun rest => ?_⟩
  have hopen : commandTexts .outside [] [] ('/' :: '/' :: (text ++ '\n' :: rest)) =
      commandTexts .comment [] [] (text ++ '\n' :: rest) := by
    rw [commandTexts, if_pos ⟨rfl, rfl⟩, commandTexts, if_neg (by decide)]
  simp [hopen, hcomment]

/-- A text that closes its brackets is a command with its semicolon. -/
theorem command {text cs : List Char} {command : ShellCommand} (htext : text = 'd' :: cs)
    (hpassage : Passage [] [] cs) (hcommand : ShellCommand.ofChars? text = some command) :
    HoldsCommands (text ++ [';']) [command] := by
  subst htext
  refine ⟨['d' :: cs], by simp [hcommand], fun rest => ?_⟩
  have hstart : commandTexts .outside [] [] ('d' :: (cs ++ ';' :: rest)) =
      commandTexts .outside [] ['d'] (cs ++ ';' :: rest) := by
    rw [commandTexts, if_neg (by simp), if_neg (by decide), if_neg (by decide)]
    rfl
  have hpass := hpassage [] ['d'] (';' :: rest) (by simp)
  have hend (read : List Char) : commandTexts .outside [] read (';' :: rest) =
      (commandTexts .outside [] [] rest).map (read.reverse :: ·) := by
    rw [commandTexts, if_neg (by simp), if_neg (by decide), if_pos rfl, if_pos rfl]
  simp only [List.append_nil] at hpass
  simp only [List.cons_append, List.append_assoc, List.nil_append]
  rw [hstart, hpass, hend]
  simp

/-- Blocks with an empty line in front of each but the first, which holds no commands. -/
theorem paragraphs {α : Type} {first : String} {blocks : α → List String}
    {commands : α → List ShellCommand} {as : List α}
    (hfirst : HoldsCommands (first.toList ++ ['\n']) [])
    (h : ∀ a ∈ as, HoldsCommands
      ((blocks a).flatMap fun block => ['\n'] ++ (block.toList ++ ['\n'])) (commands a)) :
    HoldsCommands (String.intercalate "\n\n" (first :: as.flatMap blocks) ++ "\n").toList
      (as.flatMap commands) :=
  additive.paragraphs hfirst h

/-- The commands of a script that is made of pieces with commands. -/
theorem readShell_eq {script : String} {commands : List ShellCommand}
    (h : HoldsCommands script.toList commands) : readShell script = some commands := by
  obtain ⟨texts, htexts, hread⟩ := h
  have hend : commandTexts .outside [] [] [] = some [] := rfl
  have hscript : commandTexts .outside [] [] script.toList = some texts := by
    rw [← List.append_nil script.toList, hread, hend]
    simp
  rw [readShell, hscript, Option.bind_some]
  -- What is left is about the texts alone: each is read as the command in its place.
  clear hread hscript
  induction texts generalizing commands with
  | nil =>
    cases commands with
    | nil => rfl
    | cons command commands => cases htexts
  | cons text texts ih =>
    cases commands with
    | nil => cases htexts
    | cons command commands =>
      obtain ⟨htext, htexts⟩ := List.cons.inj htexts
      rw [List.mapM_cons, htext, ih htexts]
      rfl

end HoldsCommands

/-! ## Blocks -/

namespace Collection

theorem not_mem_commentText (text : String) :
    '\n' ∉ (commentText text).toList ∧ '\r' ∉ (commentText text).toList := by
  have hchar {d : Char} (hd : d ∈ (commentText text).toList) : ¬ (d = '\r' ∨ d = '\n') := by
    rw [commentText, String.toList_ofList] at hd
    obtain ⟨c, -, rfl⟩ := List.mem_map.mp hd
    split
    · decide
    · assumption
  exact ⟨fun h => hchar h (.inr rfl), fun h => hchar h (.inl rfl)⟩

theorem holds_createBlock (c : Collection) :
    HoldsCommands (c.createBlock.toList ++ ['\n'])
      [.createCollection c.name c.schema.toJson] := by
  have htitle : '\n' ∉ " Collection: ".toList ++ (commentText c.name).toList := by
    simp [not_mem_commentText]
  have hdescription : '\n' ∉ ' ' :: (commentText c.schema.description).toList := by
    simp [not_mem_commentText]
  have hopen : Passage [] [')'] "b.createCollection(".toList := passage_plain rfl
  have hcommand := HoldsCommands.command (by simp) (hopen.append (passage_createChars c))
    (ofChars?_create c)
  have hblock := (HoldsCommands.comment htitle).append
    ((HoldsCommands.comment hdescription).append (hcommand.append .feed))
  unfold createBlock
  unfold createChars at hblock
  simpa using hblock

theorem holds_sampleBlock (c : Collection) :
    HoldsCommands (c.sampleBlock.toList ++ ['\n']) [.insertOne c.name c.sampleDocument] := by
  have hnote : '\n' ∉ " Sample document for ".toList ++ (commentText c.name).toList := by
    simp [not_mem_commentText]
  obtain ⟨cs, hcs, haccessor⟩ := passage_accessor c.name
  have hopen : Passage [] [')'] ".insertOne(".toList := passage_plain rfl
  have hclose : Passage [')'] [] [')'] := passage_plain rfl
  have hpassage := haccessor.append
    (hopen.append (((passage_sampleDocument c).frame _).append hclose))
  have hcommand := HoldsCommands.command (by simp [hcs]) hpassage
    (ofChars?_insert c.name c.sampleDocument)
  have hblock := (HoldsCommands.comment hnote).append (hcommand.append .feed)
  unfold sampleBlock
  simpa using hblock

theorem holds_indexText (c : Collection) (r : CollectionReference) :
    HoldsCommands ((c.indexText r).toList ++ ['\n']) [.createIndex c.name r.field] := by
  have hkind : '\n' ∉ r.kind.name.toList := by
    cases r.kind <;> decide
  have hnote : '\n' ∉ (" " ++ commentText c.name ++ "." ++ commentText r.field ++ " references " ++
      commentText r.collection ++ "." ++ commentText r.foreignField ++ " (" ++ r.kind.name ++
      ")").toList := by
    simp [not_mem_commentText, hkind]
  obtain ⟨cs, hcs, haccessor⟩ := passage_accessor c.name
  have hopen : Passage [] [')'] ".createIndex(".toList := passage_plain rfl
  have hpassage := haccessor.append (hopen.append (passage_indexChars r))
  have hcommand := HoldsCommands.command (by simp [hcs]) hpassage (ofChars?_index c.name r)
  have hblock := (HoldsCommands.comment hnote).append (hcommand.append .feed)
  unfold indexText
  unfold indexChars at hblock
  simpa using hblock

/-- The commands for a collection. -/
def commands (c : Collection) : List ShellCommand :=
  [.createCollection c.name c.schema.toJson, .insertOne c.name c.sampleDocument] ++
    c.references.map fun r => .createIndex c.name r.field

theorem holds_indexBlock (c : Collection) (h : c.references ≠ []) :
    HoldsCommands ((String.intercalate "\n" (c.references.map c.indexText)).toList ++ ['\n'])
      (c.references.map fun r => .createIndex c.name r.field) :=
  HoldsCommands.additive.lines h fun r _ => holds_indexText c r

/-- The blocks of a collection, each with an empty line in front of it. -/
theorem holds_blocks (c : Collection) :
    HoldsCommands (c.blocks.flatMap fun block => ['\n'] ++ (block.toList ++ ['\n']))
      c.commands := by
  have hcreate := HoldsCommands.feed.append (holds_createBlock c)
  have hsample := HoldsCommands.feed.append (holds_sampleBlock c)
  unfold blocks commands
  by_cases hreferences : c.references = []
  · simpa [hreferences] using hcreate.append hsample
  · have hindex := HoldsCommands.feed.append (holds_indexBlock c hreferences)
    simpa [hreferences] using hcreate.append (hsample.append hindex)

/-- The comments at the start of scripts. -/
def bannerComments : List String :=
  [" MongoDB Schema Validation and Collection Creation",
    " Run these commands in MongoDB shell or MongoDB Compass"]

theorem toList_banner : banner.toList ++ ['\n'] =
    bannerComments.flatMap fun text => '/' :: '/' :: (text.toList ++ ['\n']) := by
  decide +kernel

end Collection

end SchemaScript
